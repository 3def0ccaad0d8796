import OnlineAuction.Scheduler.Warnings

/-! Nobody is warned twice of one lot, whatever becomes of the tasks that warn, and a
task that comes after a failure warns those who have been left out. -/

namespace OnlineAuction.Scheduler

open Notifications

/-- At most one row of `AUCTION_ENDING` for each user and lot. -/
def Once (notifications : List NewNotification) : Prop :=
  ∀ auctionId userId, notifications.countP (warns auctionId userId) ≤ 1

/-- Whoever a task is about to warn: of those who had bid when it asked, exactly the
ones that have no row yet. -/
structure WarnsTheOthers (w : Watch) (auction : Auction) (users : List Recipient)
    (payloads : List Payload) : Prop where
  bidders : ∃ earlier, earlier <:+ w.process.bidders auction.id ∧
    (users.map (·.id)).Perm earlier.dedup
  pending : ∃ leader, payloads =
    (users.filter fun user => !w.notified auction.id user.id).map (endingSoonPayload leader)

def warningRows (auction : Auction) (payloads : List Payload) : List NewNotification :=
  payloads.map (Payload.row (some auction.id) (some auction.title))

/-- What a step leaves in the table: nothing, a row of another type, or all the rows of
a task that was about to warn. -/
inductive Leaves (w : Watch) : List NewNotification → Prop where
  | nothing : Leaves w []
  | other {row : NewNotification} (hType : row.type ≠ NotificationType.auctionEnding.value) :
      Leaves w [row]
  | warnings {task : Nat} {auction : Auction} {users : List Recipient} {payloads : List Payload}
      (hPhase : w.warnings task = .notifies auction users payloads) :
      Leaves w (warningRows auction payloads)

/-- The next call of the task answers. -/
def WatchEvent.proceeds (task : Nat) : WatchEvent → Prop
  | .answer called _ => called = task
  | .commit called => called = task
  | _ => False

/-- The task of a lot without its flag, left to itself, warns exactly the bidders
without a row before it comes to the flag. -/
def WarnsTheRest (w : Watch) (task : Nat) (auction : Auction) (users : List Recipient) : Prop :=
  ∃ w', Runs.Reaches Watch.step (fun _ e => e.proceeds task) w w' ∧
    w'.warnings task = .flags auction ∧
    w'.notifications = w.notifications ++ warningRows auction
      ((users.filter fun user => !w.notified auction.id user.id).map
        (endingSoonPayload (w.process.bidders auction.id).head?))

structure WarnedOnce (w : Watch) : Prop where
  once : Once w.notifications
  others : ∀ task auction users payloads, w.warnings task = .notifies auction users payloads →
    WarnsTheOthers w auction users payloads
  leaves : ∀ e w', w.step e = some w' →
    ∃ rows, Leaves w rows ∧ w'.notifications = w.notifications ++ rows
  retried : ∀ task t auction users, w.endingSoon.tasks.get task = some t → t.status = .ticking →
    w.warnings task = .loads → w.process.lots.get t.auctionId = some auction →
    auction.isActive = true → auction.endingSoonNotified = false →
    (users.map Recipient.id).Perm (w.process.bidders auction.id).dedup →
      WarnsTheRest w task auction users

def Watch.settled (w : Watch) (auctionId : LotId) : Bool :=
  (List.range w.endingSoon.tasks.serial).all fun task =>
    (w.endingSoon.tasks.get task).all fun t =>
      !(t.auctionId = auctionId && t.status = .cancelled && (w.warnings task).commits)

/-- A commit in flight when its task is cancelled takes effect before the replacement
wakes up or never. -/
def CommitsSettled (w : Watch) : WatchEvent → Prop
  | .wake task => (w.endingSoon.tasks.get task).all (fun t => w.settled t.auctionId) = true
  | _ => True

instance (w : Watch) (e : WatchEvent) : Decidable (CommitsSettled w e) := by
  cases e <;> unfold CommitsSettled <;> infer_instance

namespace Registry

def Exclusive (r : Registry) : Prop :=
  ∀ task t, r.tasks.get task = some t → t.live = true → r.completionTasks t.auctionId = some task

/-- The tasks are as they were or have been cancelled, and no new one has woken up. -/
structure Later (r r' : Registry) : Prop where
  kept : ∀ task t, r.tasks.get task = some t → ∃ t', r'.tasks.get task = some t' ∧
    t'.auctionId = t.auctionId ∧ (t'.status = t.status ∨ t.live = true ∧ t'.status = .cancelled)
  created : ∀ task t', r'.tasks.get task = some t' →
    (r.tasks.get task).isSome ∨ t'.status ≠ .ticking

theorem Later.refl (r : Registry) : Later r r :=
  ⟨fun _ t hTask => ⟨t, hTask, rfl, .inl rfl⟩, fun _ _ hTask => .inl (by simp [hTask])⟩

variable {r : Registry} {auctionId : LotId}

/-- Exclusive means that every live task is tracked. -/
theorem exclusive_iff : r.Exclusive ↔ r.Tracks fun _ => True :=
  ⟨fun h task t _ => h task t, fun h task t => h task t trivial⟩

theorem Exclusive.cancelAuction (h : r.Exclusive) : (r.cancelAuction auctionId).Exclusive :=
  exclusive_iff.mpr (exclusive_iff.mp h).cancelAuction

/-- Arming keeps one live task a lot. -/
theorem Exclusive.armCompletionTask (h : r.Exclusive) (endTime : Time) :
    (r.armCompletionTask none auctionId endTime).Exclusive := by
  apply exclusive_iff.mpr
  apply ((exclusive_iff.mp h).armCompletionTask none endTime).mono
  intro task _ _ _
  exact .inr ⟨trivial, by simp⟩

theorem Exclusive.wake (h : r.Exclusive) {task : Nat} {t : CompletionTask}
    (hTask : r.tasks.get task = some t) (hLive : t.live = true) : (r.wake task).Exclusive :=
  exclusive_iff.mpr ((exclusive_iff.mp h).wake hTask hLive)

/-- The end of a task keeps one live task a lot. -/
theorem Exclusive.finish (h : r.Exclusive) {task : Nat} {t : CompletionTask}
    (hTask : r.tasks.get task = some t) : (r.finish task t.auctionId).Exclusive :=
  exclusive_iff.mpr ((exclusive_iff.mp h).finish hTask)

theorem Reworks.later {r r' : Registry} (h : Reworks auctionId r r') : Later r r' where
  kept task t hTask := by
    obtain ⟨t', hTask', hLot, -, hStatus⟩ := h.kept task t hTask
    exact ⟨t', hTask', hLot, hStatus.imp_right fun hCancelled => hCancelled.2⟩
  created task t' hTask' := (h.created task t' hTask').imp_right fun hNew => hNew.2

/-- A registry that calls have left behind. -/
structure Called (r r' : Registry) : Prop where
  later : Later r r'
  sound : r'.Sound
  exclusive : r'.Exclusive

/-- Arming a warning is among the calls. -/
theorem Called.armEndingSoonTask (hSound : r.Sound) (hExclusive : r.Exclusive) (auction : Auction)
    (now : Time) : Called r (r.armEndingSoonTask auction now) := by
  unfold Registry.armEndingSoonTask
  dsimp only
  split_ifs
  · exact ⟨.refl r, hSound, hExclusive⟩
  · have hReworks := armCompletionTask_reworks hSound none auction.id
      (auction.endTime - endingSoonLead)
    exact ⟨hReworks.later, hReworks.sound, hExclusive.armCompletionTask _⟩

theorem Later.trans {r r' r'' : Registry} (h : Later r r') (h' : Later r' r'') : Later r r'' where
  kept task t hTask := by
    obtain ⟨t', hTask', hLot', hStatus'⟩ := h.kept task t hTask
    obtain ⟨t'', hTask'', hLot'', hStatus''⟩ := h'.kept task t' hTask'
    refine ⟨t'', hTask'', hLot''.trans hLot', ?_⟩
    rcases hStatus' with hSame | ⟨hLive, hCancelled⟩
    · rcases hStatus'' with hSame' | ⟨hLive', hCancelled'⟩
      · exact .inl (hSame'.trans hSame)
      · exact .inr ⟨by simpa [CompletionTask.live, hSame] using hLive', hCancelled'⟩
    · rcases hStatus'' with hSame' | ⟨hLive', hCancelled'⟩
      · exact .inr ⟨hLive, hSame'.trans hCancelled⟩
      · exact .inr ⟨hLive, hCancelled'⟩
  created task t'' hTask'' := by
    rcases h'.created task t'' hTask'' with hOld | hNew
    · obtain ⟨t', hTask'⟩ := Option.isSome_iff_exists.mp hOld
      refine (h.created task t' hTask').imp_right fun hNew hTicking => ?_
      obtain ⟨found, hFound, -, hStatus⟩ := h'.kept task t' hTask'
      rw [hTask'', Option.some.injEq] at hFound
      subst hFound
      rcases hStatus with hSame | ⟨-, hCancelled⟩
      · exact hNew (hSame.symm.trans hTicking)
      · cases hCancelled.symm.trans hTicking
    · exact .inr hNew

/-- Whatever is called. -/
theorem Called.onEndingSoon (hSound : r.Sound) (hExclusive : r.Exclusive) (call : Call)
    (now : Time) : Called r (call.onEndingSoon now r) := by
  have hCancel (id : LotId) : Called r (r.cancelAuction id) :=
    ⟨(cancelAuction_reworks hSound id).later, (cancelAuction_reworks hSound id).sound,
      hExclusive.cancelAuction⟩
  cases call with
  | schedule auction =>
      have hFirst := hCancel auction.id
      simp only [Call.onEndingSoon]
      split_ifs
      · have hSecond := Called.armEndingSoonTask hFirst.sound hFirst.exclusive auction now
        exact ⟨hFirst.later.trans hSecond.later, hSecond.sound, hSecond.exclusive⟩
      · exact hFirst
  | cancel auctionId => exact hCancel auctionId
  | rearm auction => exact .armEndingSoonTask hSound hExclusive auction now

end Registry

def Warning.tells : Warning → Bool
  | .notifies _ _ _ => true
  | _ => false

def Warning.Ok (w : Watch) (auctionId : LotId) : Warning → Prop
  | .readsLastBid auction => auction.id = auctionId
  | .readsBidders auction _ => auction.id = auctionId
  | .readsUsers auction _ userIds => auction.id = auctionId ∧
      ∃ earlier, earlier <:+ w.process.bidders auction.id ∧ userIds = earlier.dedup
  | .readsNotified auction _ users => auction.id = auctionId ∧
      ∃ earlier, earlier <:+ w.process.bidders auction.id ∧ (users.map (·.id)).Perm earlier.dedup
  | .notifies auction users payloads =>
      auction.id = auctionId ∧ WarnsTheOthers w auction users payloads
  | .pushes auction => auction.id = auctionId
  | .flags auction => auction.id = auctionId
  | _ => True

/-- No task of a lot is about to warn while another one is awake. -/
structure Watch.Inv (w : Watch) : Prop where
  rowIds : RowIds w.process
  sound : w.endingSoon.Sound
  exclusive : w.endingSoon.Exclusive
  unborn : ∀ task, w.endingSoon.tasks.get task = none → w.warnings task = .sleeps
  asleep : ∀ task t, w.endingSoon.tasks.get task = some t → t.status = .sleeping →
    w.warnings task = .sleeps
  telling : ∀ task t, w.endingSoon.tasks.get task = some t → (w.warnings task).tells = true →
    t.status = .ticking ∨ t.status = .cancelled
  ok : ∀ task t, w.endingSoon.tasks.get task = some t → (w.warnings task).Ok w t.auctionId
  alone : ∀ task t other t', w.endingSoon.tasks.get task = some t → t.status = .ticking →
    w.endingSoon.tasks.get other = some t' → t'.auctionId = t.auctionId →
      (w.warnings other).tells = true → other = task
  single : ∀ task t other t', w.endingSoon.tasks.get task = some t →
    (w.warnings task).tells = true → w.endingSoon.tasks.get other = some t' →
      t'.auctionId = t.auctionId → (w.warnings other).tells = true → other = task
  once : Once w.notifications

variable {w w' : Watch} {task : Nat} {t : CompletionTask}

/-- A task knows what it knew when bids have been added and, if it is about to warn,
nobody of its lot has been warned. -/
theorem Warning.Ok.mono {phase : Warning} {auctionId : LotId} (h : phase.Ok w auctionId)
    (hBidders : ∀ id, w.process.bidders id <:+ w'.process.bidders id)
    (hNotified : phase.tells = true → ∀ userId, w'.notified auctionId userId =
      w.notified auctionId userId) : phase.Ok w' auctionId := by
  have hSuffix {id : LotId} {earlier : List UserId} (hEarlier : earlier <:+ w.process.bidders id) :
      earlier <:+ w'.process.bidders id := hEarlier.trans (hBidders id)
  cases phase with
  | readsUsers auction leader userIds =>
      obtain ⟨hId, earlier, hEarlier, hIds⟩ := h
      exact ⟨hId, earlier, hSuffix hEarlier, hIds⟩
  | readsNotified auction leader users =>
      obtain ⟨hId, earlier, hEarlier, hIds⟩ := h
      exact ⟨hId, earlier, hSuffix hEarlier, hIds⟩
  | notifies auction users payloads =>
      obtain ⟨hId, ⟨earlier, hEarlier, hIds⟩, leader, hPayloads⟩ := h
      refine ⟨hId, ⟨earlier, hSuffix hEarlier, hIds⟩, leader, ?_⟩
      rw [hPayloads, hId]
      simp only [hNotified rfl]
  | _ => exact h

namespace Watch.Inv

theorem ne_sleeps (hTells : (w.warnings task).tells = true) : w.warnings task ≠ .sleeps := by
  intro hSleeps
  rw [hSleeps] at hTells
  cases hTells

/-- A task that is awake or ticking after some calls was there before them, and
has at most been cancelled. -/
theorem was_called (h : w.Inv) {r : Registry} (hCalled : Registry.Called w.endingSoon r)
    {t' : CompletionTask} (hTask : r.tasks.get task = some t')
    (hPhase : w.warnings task ≠ .sleeps ∨ t'.status = .ticking) :
    ∃ t, w.endingSoon.tasks.get task = some t ∧ t'.auctionId = t.auctionId ∧
      (t'.status = t.status ∨ t.live = true ∧ t'.status = .cancelled) := by
  obtain ⟨t, hOld⟩ : ∃ t, w.endingSoon.tasks.get task = some t := by
    rw [← Option.isSome_iff_exists]
    rcases hCalled.later.created task t' hTask with hOld | hNew
    · exact hOld
    · by_contra hNone
      rw [Option.not_isSome_iff_eq_none] at hNone
      exact hPhase.elim (fun hAwake => hAwake (h.unborn task hNone)) hNew
  obtain ⟨found, hFound, hLot, hStatus⟩ := hCalled.later.kept task t hOld
  rw [hTask, Option.some.injEq] at hFound
  exact ⟨t, hOld, hFound ▸ hLot, hFound ▸ hStatus⟩

/-- The lots and the bids have changed, and calls have been made. -/
theorem called (h : w.Inv) {p : Process} {r : Registry} (now : Time) (hRowIds : RowIds p)
    (hBidders : ∀ id, w.process.bidders id <:+ p.bidders id)
    (hCalled : Registry.Called w.endingSoon r) :
    Watch.Inv ⟨p, r, w.warnings, w.notifications, now⟩ := by
  constructor
  case rowIds => exact hRowIds
  case sound => exact hCalled.sound
  case exclusive => exact hCalled.exclusive
  case unborn =>
    intro task hNone
    apply h.unborn
    by_contra hOld
    obtain ⟨t, hOld⟩ := Option.ne_none_iff_exists'.mp hOld
    obtain ⟨t', hTask', -⟩ := hCalled.later.kept task t hOld
    cases hNone.symm.trans hTask'
  case asleep =>
    intro task t' hTask' hSleeping
    cases hOld : w.endingSoon.tasks.get task with
    | none => exact h.unborn task hOld
    | some t =>
        obtain ⟨found, hFound, -, hStatus⟩ := hCalled.later.kept task t hOld
        rw [hTask', Option.some.injEq] at hFound
        subst hFound
        rcases hStatus with hSame | ⟨-, hCancelled⟩
        · exact h.asleep task t hOld (hSame.symm.trans hSleeping)
        · cases hCancelled.symm.trans hSleeping
  case telling =>
    intro task t' hTask' hTelling
    obtain ⟨t, hOld, -, hStatus⟩ := h.was_called hCalled hTask' (.inl (ne_sleeps hTelling))
    rcases hStatus with hSame | ⟨-, hCancelled⟩
    · rw [hSame]
      exact h.telling task t hOld hTelling
    · exact .inr hCancelled
  case ok =>
    intro task t' hTask'
    show (w.warnings task).Ok _ t'.auctionId
    by_cases hSleeps : w.warnings task = .sleeps
    · rw [hSleeps]
      trivial
    · obtain ⟨t, hOld, hLot, -⟩ := h.was_called hCalled hTask' (.inl hSleeps)
      rw [hLot]
      exact (h.ok task t hOld).mono hBidders fun _ _ => rfl
  case alone =>
    intro task t' other u' hTask' hTicking hOther hSame hTelling
    obtain ⟨t, hOld, hLot, hStatus⟩ := h.was_called hCalled hTask' (.inr hTicking)
    obtain ⟨u, hOldOther, hLotOther, -⟩ := h.was_called hCalled hOther (.inl (ne_sleeps hTelling))
    have hWasTicking : t.status = .ticking := by
      rcases hStatus with hKept | ⟨-, hCancelled⟩
      · exact hKept.symm.trans hTicking
      · cases hCancelled.symm.trans hTicking
    exact h.alone task t other u hOld hWasTicking hOldOther
      ((hLotOther.symm.trans hSame).trans hLot) hTelling
  case single =>
    intro task t' other u' hTask' hFirst hOther hSame hSecond
    obtain ⟨t, hOld, hLot, -⟩ := h.was_called hCalled hTask' (.inl (ne_sleeps hFirst))
    obtain ⟨u, hOldOther, hLotOther, -⟩ := h.was_called hCalled hOther (.inl (ne_sleeps hSecond))
    exact h.single task t other u hOld hFirst hOldOther ((hLotOther.symm.trans hSame).trans hLot)
      hSecond
  case once => exact h.once

structure Turned (w : Watch) (task : Nat) (t : CompletionTask) (r' : Registry)
    (status : TaskStatus) (phase : Warning) : Prop where
  self : r'.tasks.get task = some { t with status := status }
  others : ∀ other, other ≠ task → r'.tasks.get other = w.endingSoon.tasks.get other
  exclusive : r'.Exclusive
  tells : phase.tells = true → status = .ticking
  alone : status = .ticking → ∀ other t', w.endingSoon.tasks.get other = some t' →
    t'.auctionId = t.auctionId → (w.warnings other).tells = true → other = task

namespace Turned

variable {r' : Registry} {status : TaskStatus} {phase : Warning} {t' : CompletionTask}

theorem is (h : Turned w task t r' status phase) (hGet : r'.tasks.get task = some t') :
    t' = { t with status := status } := Option.some.inj (hGet.symm.trans h.self)

theorem was (h : Turned w task t r' status phase) {other : Nat} (hOther : other ≠ task)
    (hGet : r'.tasks.get other = some t') : w.endingSoon.tasks.get other = some t' := by
  rwa [h.others other hOther] at hGet

/-- While a task ticks, no other one of its lot is about to warn: two that are live would
share a slot. -/
theorem keeps_alone (h : Turned w task t r' status phase) (hInv : w.Inv) {first other : Nat}
    {t₁ t₂ : CompletionTask} (hFirst : r'.tasks.get first = some t₁) (hTicking : t₁.status = .ticking)
    (hOther : r'.tasks.get other = some t₂) (hSame : t₂.auctionId = t₁.auctionId)
    (hTelling : (({ w with endingSoon := r' }.enter task phase).warnings other).tells = true) :
    other = first := by
  by_cases hTwo : other = task
  · subst hTwo
    rw [Watch.warnings_enter_self] at hTelling
    have hLive : t₂.live = true := by
      rw [h.is hOther]
      simp [CompletionTask.live, h.tells hTelling]
    have hSlot := h.exclusive other t₂ hOther hLive
    have hSlot' := h.exclusive first t₁ hFirst (by simp [CompletionTask.live, hTicking])
    rw [hSame, hSlot'] at hSlot
    exact (Option.some.inj hSlot).symm
  · rw [Watch.warnings_enter_other _ _ hTwo] at hTelling
    by_cases hOne : first = task
    · subst hOne
      rw [h.is hFirst] at hTicking hSame
      exact h.alone hTicking other t₂ (h.was hTwo hOther) hSame hTelling
    · exact hInv.alone first t₁ other t₂ (h.was hOne hFirst) hTicking (h.was hTwo hOther) hSame
        hTelling

/-- Of the tasks of a lot, one at most is about to warn. -/
theorem keeps_single (h : Turned w task t r' status phase) (hInv : w.Inv) {first other : Nat}
    {t₁ t₂ : CompletionTask} (hFirst : r'.tasks.get first = some t₁)
    (hTells₁ : (({ w with endingSoon := r' }.enter task phase).warnings first).tells = true)
    (hOther : r'.tasks.get other = some t₂) (hSame : t₂.auctionId = t₁.auctionId)
    (hTells₂ : (({ w with endingSoon := r' }.enter task phase).warnings other).tells = true) :
    other = first := by
  by_cases hOne : first = task
  · subst hOne
    rw [Watch.warnings_enter_self] at hTells₁
    refine h.keeps_alone hInv hFirst ?_ hOther hSame hTells₂
    rw [h.is hFirst]
    exact h.tells hTells₁
  · by_cases hTwo : other = task
    · subst hTwo
      rw [Watch.warnings_enter_self] at hTells₂
      refine (h.keeps_alone hInv hOther ?_ hFirst hSame.symm hTells₁).symm
      rw [h.is hOther]
      exact h.tells hTells₂
    · rw [Watch.warnings_enter_other _ _ hOne] at hTells₁
      rw [Watch.warnings_enter_other _ _ hTwo] at hTells₂
      exact hInv.single first t₁ other t₂ (h.was hOne hFirst) hTells₁ (h.was hTwo hOther) hSame hTells₂

end Turned

/-- A task changes its status and goes on. -/
theorem turn (h : w.Inv) {r' : Registry} {status : TaskStatus} {phase : Warning}
    (hTurned : Turned w task t r' status phase) (hSound : r'.Sound)
    (hOk : phase.Ok w t.auctionId) (hAwake : status ≠ .sleeping) :
    ({ w with endingSoon := r' }.enter task phase).Inv := by
  have hPhase : ({ w with endingSoon := r' }.enter task phase).warnings task = phase :=
    Watch.warnings_enter_self ..
  have hPhases {other : Nat} (hOther : other ≠ task) :
      ({ w with endingSoon := r' }.enter task phase).warnings other = w.warnings other :=
    Watch.warnings_enter_other _ _ hOther
  constructor
  case rowIds => exact h.rowIds
  case sound => exact hSound
  case exclusive => exact hTurned.exclusive
  case unborn =>
    intro other hNone
    have hOther : other ≠ task := by
      rintro rfl
      cases hNone.symm.trans hTurned.self
    rw [hPhases hOther]
    exact h.unborn other ((hTurned.others other hOther).symm.trans hNone)
  case asleep =>
    intro other t' hGet hSleeping
    by_cases hOther : other = task
    · subst hOther
      rw [hTurned.is hGet] at hSleeping
      exact absurd hSleeping hAwake
    · rw [hPhases hOther]
      exact h.asleep other t' (hTurned.was hOther hGet) hSleeping
  case telling =>
    intro other t' hGet hTelling
    by_cases hOther : other = task
    · subst hOther
      rw [hPhase] at hTelling
      rw [hTurned.is hGet]
      exact .inl (hTurned.tells hTelling)
    · rw [hPhases hOther] at hTelling
      exact h.telling other t' (hTurned.was hOther hGet) hTelling
  case ok =>
    intro other t' hGet
    by_cases hOther : other = task
    · subst hOther
      rw [hPhase, hTurned.is hGet]
      exact hOk.mono (fun _ => List.suffix_refl _) fun _ _ => rfl
    · rw [hPhases hOther]
      exact (h.ok other t' (hTurned.was hOther hGet)).mono (fun _ => List.suffix_refl _)
        fun _ _ => rfl
  case alone =>
    intro first t₁ other t₂ hFirst hTicking hOther hSame hTelling
    exact hTurned.keeps_alone h hFirst hTicking hOther hSame hTelling
  case single =>
    intro first t₁ other t₂ hFirst hTells₁ hOther hSame hTells₂
    exact hTurned.keeps_single h hFirst hTells₁ hOther hSame hTells₂
  case once => exact h.once

/-- A task that is awake goes on to its next call. -/
theorem move (h : w.Inv) (hTask : w.endingSoon.tasks.get task = some t)
    (hAwake : t.status = .ticking ∨ t.status = .cancelled) (phase : Warning)
    (hOk : phase.Ok w t.auctionId) (hTells : phase.tells = true → t.status = .ticking) :
    (w.enter task phase).Inv := by
  have hTurned : Turned w task t w.endingSoon t.status phase :=
    { self := hTask
      others := fun _ _ => rfl
      exclusive := h.exclusive
      tells := hTells
      alone := fun hTicking other t' hOther hSame hTelling =>
        h.alone task t other t' hTask hTicking hOther hSame hTelling }
  apply h.turn hTurned h.sound hOk
  rcases hAwake with hStatus | hStatus <;> simp [hStatus]

/-- Rows that warn nobody of a lot a task is about to warn of. -/
theorem added (h : w.Inv) (rows : List NewNotification)
    (hOther : ∀ task t, w.endingSoon.tasks.get task = some t → (w.warnings task).tells = true →
      ∀ userId, rows.any (warns t.auctionId userId) = false)
    (hOnce : Once (w.notifications ++ rows)) :
    ({ w with notifications := w.notifications ++ rows } : Watch).Inv :=
  { h with
    ok := fun task t hTask => (h.ok task t hTask).mono (fun _ => List.suffix_refl _)
      fun hTells userId => by
        simp [Watch.notified, List.any_append, hOther task t hTask hTells userId]
    once := hOnce }

/-- The answer of a query. -/
theorem ok_answer (h : w.Inv) (hTask : w.endingSoon.tasks.get task = some t)
    {users : List Recipient} {phase : Warning}
    (hAnswer : w.answer t.auctionId users (w.warnings task) = some phase) :
    phase.Ok w t.auctionId := by
  have hOk := h.ok task t hTask
  cases hWas : w.warnings task <;> rw [hWas] at hAnswer hOk
  case loads =>
    simp only [Watch.answer] at hAnswer
    split at hAnswer
    · obtain rfl := Option.some.inj hAnswer
      trivial
    · rename_i auction hFound
      obtain rfl := Option.some.inj hAnswer
      exact h.rowIds.stored _ _ (Option.filter_eq_some_iff.mp hFound).1
  case readsLastBid auction =>
    obtain rfl := Option.some.inj hAnswer
    exact hOk
  case readsBidders auction leader =>
    simp only [Watch.answer] at hAnswer
    split_ifs at hAnswer
    · obtain rfl := Option.some.inj hAnswer
      exact hOk
    · obtain rfl := Option.some.inj hAnswer
      exact ⟨hOk, _, List.suffix_refl _, rfl⟩
  case readsUsers auction leader userIds =>
    simp only [Watch.answer] at hAnswer
    split_ifs at hAnswer with hPerm
    obtain rfl := Option.some.inj hAnswer
    obtain ⟨hId, earlier, hEarlier, rfl⟩ := hOk
    exact ⟨hId, earlier, hEarlier, hPerm⟩
  case readsNotified auction leader found =>
    simp only [Watch.answer] at hAnswer
    split_ifs at hAnswer
    · obtain rfl := Option.some.inj hAnswer
      exact hOk.1
    · obtain rfl := Option.some.inj hAnswer
      exact ⟨hOk.1, hOk.2, leader, rfl⟩
  case pushes auction =>
    obtain rfl := Option.some.inj hAnswer
    exact hOk
  all_goals cases hAnswer

end Watch.Inv

/-- A batch leaves at most one row for each user when it is for users without one. -/
theorem Once.append (h : Once w.notifications) {auction : Auction} {users : List Recipient}
    {payloads : List Payload} (hWarns : WarnsTheOthers w auction users payloads) :
    Once (w.notifications ++ payloads.map (Payload.row (some auction.id) (some auction.title))) := by
  intro auctionId userId
  obtain ⟨⟨earlier, -, hPerm⟩, leader, rfl⟩ := hWarns
  have hNodup : (users.map (·.id)).Nodup := hPerm.nodup_iff.mpr (List.nodup_dedup earlier)
  have hWarned (user : Recipient) :
      warns auctionId userId ((endingSoonPayload leader user).row (some auction.id)
        (some auction.title)) = (user.id = userId && auction.id = auctionId) := by
    simp only [warns, Payload.row, endingSoonPayload, decide_true, Bool.and_true, Option.some.injEq]
    congr
  rw [List.countP_append, List.map_map, List.countP_map]
  simp only [Function.comp_def, hWarned]
  by_cases hLot : auction.id = auctionId
  · subst hLot
    by_cases hTold : w.notified auction.id userId = true
    · have hNobody : (users.filter fun user => !w.notified auction.id user.id).countP
          (fun user => user.id = userId && decide (auction.id = auction.id)) = 0 := by
        rw [List.countP_eq_zero]
        intro user hMem hIs
        simp only [List.mem_filter, Bool.not_eq_true'] at hMem
        simp only [decide_true, Bool.and_true, decide_eq_true_eq] at hIs
        rw [hIs, hTold] at hMem
        cases hMem.2
      rw [hNobody]
      exact h auction.id userId
    · have hNone : w.notifications.countP (warns auction.id userId) = 0 := by
        rw [List.countP_eq_zero]
        intro row hRow hWarns
        exact hTold (List.any_eq_true.mpr ⟨row, hRow, hWarns⟩)
      rw [hNone, Nat.zero_add]
      calc
        _ ≤ users.countP fun user => user.id = userId && decide (auction.id = auction.id) :=
          List.filter_sublist.countP_le
        _ = (users.map (·.id)).count userId := by
          rw [List.count, List.countP_map]
          congr 1
          funext user
          simp [Bool.beq_eq_decide_eq]
        _ ≤ 1 := List.nodup_iff_count_le_one.mp hNodup userId
  · simp only [hLot, decide_false, Bool.and_false, List.countP_false]
    exact h auctionId userId

namespace Watch.Inv

/-- A commit that takes effect, after which the task has nothing more to tell. -/
theorem land (h : w.Inv) (hTask : w.endingSoon.tasks.get task = some t)
    (hAwake : t.status = .ticking ∨ t.status = .cancelled)
    (hLand : w.land (w.warnings task) = some w') {next : Warning} (hTells : next.tells = false)
    (hOk : ∀ auction users payloads, w.warnings task = .notifies auction users payloads →
      auction.id = t.auctionId → next.Ok w t.auctionId)
    (hFlags : ∀ auction, w.warnings task = .flags auction → next = .closes) :
    (w'.enter task next).Inv := by
  have hNext : next.Ok w t.auctionId → (w.enter task next).Inv := fun hIs =>
    h.move hTask hAwake next hIs fun hIs => by
      rw [hTells] at hIs
      cases hIs
  have hWas := h.ok task t hTask
  cases hPhase : w.warnings task <;> rw [hPhase] at hLand hWas
  case notifies auction users payloads =>
    obtain rfl := Option.some.inj hLand
    obtain ⟨hId, hWarns⟩ := hWas
    have hMoved := hNext (hOk auction users payloads hPhase hId)
    apply hMoved.added
    · intro other t' hOther hTelling userId
      have hNot : other ≠ task := by
        rintro rfl
        rw [Watch.warnings_enter_self, hTells] at hTelling
        cases hTelling
      have hStill : (w.warnings other).tells = true := by
        rwa [w.warnings_enter_other next hNot] at hTelling
      have hLot : auction.id ≠ t'.auctionId := by
        intro hSame
        exact hNot (h.single task t other t' hTask (by rw [hPhase]; rfl) hOther
          (hSame.symm.trans hId) hStill)
      rw [List.any_eq_false]
      intro row hRow
      obtain ⟨payload, -, rfl⟩ := List.mem_map.mp hRow
      simp [warns, Payload.row, hLot]
    · exact h.once.append hWarns
  case flags auction =>
    simp only [Watch.land] at hLand
    split_ifs at hLand
    obtain rfl := Option.some.inj hLand
    rw [hFlags auction hPhase] at hNext ⊢
    apply (hNext trivial).called w.now
    · exact ⟨fun _ _ => h.rowIds.stored_write auction _, h.rowIds.inserted⟩
    · exact fun _ => List.suffix_refl _
    · exact ⟨.refl _, h.sound, h.exclusive⟩
  all_goals cases hLand

/-- A task wakes up when no commit of its lot is in flight. -/
theorem wake (h : w.Inv) (hTask : w.endingSoon.tasks.get task = some t)
    (hSleeping : t.status = .sleeping) (hSettled : w.settled t.auctionId = true) :
    ({ w with endingSoon := w.endingSoon.wake task }.enter task .loads).Inv := by
  have hLive : t.live = true := by simp [CompletionTask.live, hSleeping]
  have hTurned : Turned w task t (w.endingSoon.wake task) .ticking .loads := by
    constructor
    case self => exact Registry.tasks_wake_self hTask
    case others => exact fun other hOther => w.endingSoon.tasks_wake_other hOther
    case exclusive => exact h.exclusive.wake hTask hLive
    case tells => exact fun _ => rfl
    case alone =>
      intro _ other t' hOther hSame hTells
      have hSlot := h.exclusive task t hTask hLive
      rcases h.telling other t' hOther hTells with hTicking | hCancelled
      · have hSlot' := h.exclusive other t' hOther (by simp [CompletionTask.live, hTicking])
        rw [hSame, hSlot] at hSlot'
        exact (Option.some.inj hSlot').symm
      · have hNot := List.all_eq_true.mp hSettled other (List.mem_range.mpr (Table.lt_serial hOther))
        rw [hOther, Option.all_some, hSame, hCancelled] at hNot
        cases hPhase : w.warnings other <;> rw [hPhase] at hTells <;> cases hTells
        rw [hPhase] at hNot
        simp [Warning.commits] at hNot
  exact h.turn hTurned (h.sound.wake task) trivial fun hIs => by cases hIs

/-- Every step keeps the invariant, the wakings under the proviso of the run. -/
theorem step (h : w.Inv) {e : WatchEvent} (hStep : w.step e = some w') (hSettled : CommitsSettled w e) :
    w'.Inv := by
  have hSame : Registry.Called w.endingSoon w.endingSoon := ⟨.refl _, h.sound, h.exclusive⟩
  cases Watch.steps_of_step hStep with
  | act _ hProcess =>
      obtain ⟨hRowIds, hBidders⟩ := h.rowIds.step hProcess
      apply h.called w.now hRowIds hBidders
      split
      · exact hSame
      · exact .onEndingSoon h.sound h.exclusive _ _
  | call call =>
      have hRowIds : RowIds (w.process.setRegistry (call.onCompletion w.process.registry)) :=
        ⟨h.rowIds.stored, h.rowIds.inserted⟩
      apply h.called w.now hRowIds fun _ => List.suffix_refl _
      exact .onEndingSoon h.sound h.exclusive _ _
  | pass => exact h.called _ h.rowIds (fun _ => List.suffix_refl _) hSame
  | @other row hType =>
      have hNobody (auctionId : LotId) (userId : UserId) : warns auctionId userId row = false := by
        simp [warns, hType]
      apply h.added
      · intro _ t _ _ userId
        simp [hNobody]
      · intro auctionId userId
        rw [List.countP_append, List.countP_singleton, if_neg (by simp [hNobody])]
        exact h.once auctionId userId
  | wake hTask hSleeping =>
      exact h.wake hTask hSleeping (by simpa [CommitsSettled, hTask] using hSettled)
  | answer hTask hTicking hAnswer =>
      exact h.move hTask (.inl hTicking) _ (h.ok_answer hTask hAnswer) fun _ => hTicking
  | @commit task _ _ hTask hTicking hLand =>
      apply h.land hTask (.inl hTicking) hLand
      · cases w.warnings task <;> rfl
      · intro auction users payloads hIs hId
        rw [hIs]
        exact hId
      · intro auction hIs
        rw [hIs]
        rfl
  | fails hTask hTicking =>
      exact h.move hTask (.inl hTicking) .closes trivial fun hTells => by cases hTells
  | failsLate hTask hTicking hLand =>
      exact h.land hTask (.inl hTicking) hLand rfl (fun _ _ _ _ _ => trivial) fun _ _ => rfl
  | land hTask hCancelled hLand =>
      exact h.land hTask (.inr hCancelled) hLand rfl (fun _ _ _ _ _ => trivial) fun _ _ => rfl
  | @finish task t hTask =>
      have hTurned : Turned w task t (w.endingSoon.finish task t.auctionId) .finished .ended :=
        { self := Registry.tasks_finish_self t.auctionId hTask
          others := fun other hOther => w.endingSoon.tasks_finish_other t.auctionId hOther
          exclusive := h.exclusive.finish hTask
          tells := fun hIs => by cases hIs
          alone := fun hIs => by cases hIs }
      exact h.turn hTurned (h.sound.finish hTask) trivial fun hIs => by cases hIs

/-- The tasks that the process arms as it starts. -/
theorem start (rows : List (Option Auction)) (bidders : LotId → List UserId)
    {notifications : List NewNotification} (hOnce : Once notifications) (now : Time) :
    (Watch.start rows bidders notifications now).Inv := by
  have hArmed (auctions : List Auction) (r : Registry) (hSound : r.Sound)
      (hExclusive : r.Exclusive) :
      (auctions.foldl (fun r auction => (Call.schedule auction).onEndingSoon now r) r).Sound ∧
        (auctions.foldl (fun r auction => (Call.schedule auction).onEndingSoon now r) r).Exclusive := by
    induction auctions generalizing r with
    | nil => exact ⟨hSound, hExclusive⟩
    | cons auction rest ih =>
        have hCalled := Registry.Called.onEndingSoon hSound hExclusive (.schedule auction) now
        exact ih _ hCalled.sound hCalled.exclusive
  obtain ⟨hSound, hExclusive⟩ := hArmed (activeAuctions (storedLots rows)) .empty
    (fun _ _ hSlot => by cases hSlot) fun _ _ hTask => by cases hTask
  exact {
    rowIds := ⟨fun _ _ hRow => storedLots_id hRow, fun _ _ hIs => by cases hIs⟩
    sound := hSound
    exclusive := hExclusive
    unborn := fun _ _ => rfl
    asleep := fun _ _ _ _ => rfl
    telling := fun _ _ _ hTells => by cases hTells
    ok := fun _ _ _ => trivial
    alone := fun _ _ _ _ _ _ _ _ hTells => by cases hTells
    single := fun _ _ _ _ _ hTells => by cases hTells
    once := hOnce }

end Watch.Inv

/-- A commit that lands leaves the warnings of one batch. -/
theorem Watch.land_leaves {task : Nat} (hLand : w.land (w.warnings task) = some w')
    (next : Warning) : ∃ rows, Leaves w rows ∧
      (w'.enter task next).notifications = w.notifications ++ rows := by
  cases hPhase : w.warnings task <;> rw [hPhase] at hLand
  case notifies auction users payloads =>
    obtain rfl := Option.some.inj hLand
    exact ⟨_, .warnings hPhase, rfl⟩
  case flags auction =>
    simp only [Watch.land] at hLand
    split_ifs at hLand
    obtain rfl := Option.some.inj hLand
    exact ⟨[], .nothing, (List.append_nil _).symm⟩
  all_goals cases hLand

/-- No row is ever lost, and none of `AUCTION_ENDING` comes from elsewhere. -/
theorem Watch.step_leaves {e : WatchEvent} (hStep : w.step e = some w') :
    ∃ rows, Leaves w rows ∧ w'.notifications = w.notifications ++ rows := by
  have hNothing : ∃ rows, Leaves w rows ∧ w.notifications = w.notifications ++ rows :=
    ⟨[], .nothing, (List.append_nil _).symm⟩
  cases Watch.steps_of_step hStep with
  | @other row hType => exact ⟨[row], .other hType, rfl⟩
  | commit _ _ hLand => exact Watch.land_leaves hLand _
  | failsLate _ _ hLand => exact Watch.land_leaves hLand _
  | land _ _ hLand => exact Watch.land_leaves hLand _
  | _ => exact hNothing

/-- An answer moves the task on. -/
theorem Watch.enter_answers (hTask : w.endingSoon.tasks.get task = some t)
    (hTicking : t.status = .ticking) (users : List Recipient) {phase next : Warning}
    (hAnswer : w.answer t.auctionId users phase = some next) :
    (w.enter task phase).step (.answer task users) = some (w.enter task next) := by
  have hAgain : (w.enter task phase).enter task next = w.enter task next := by
    simp only [Watch.enter, Function.update_idem]
  have hAnswer' : (w.enter task phase).answer t.auctionId users phase = some next := hAnswer
  have hTask' : (w.enter task phase).endingSoon.tasks.get task = some t := hTask
  simp only [Watch.step, hTask', hTicking, if_true, Watch.warnings_enter_self, hAnswer',
    Option.map_some, hAgain]

/-- A retry asks the table who has been told. -/
theorem Watch.warns_rest (hTask : w.endingSoon.tasks.get task = some t)
    (hTicking : t.status = .ticking) (hPhase : w.warnings task = .loads) {auction : Auction}
    (hStored : w.process.lots.get t.auctionId = some auction) (hActive : auction.isActive = true)
    (hFlag : auction.endingSoonNotified = false) {users : List Recipient}
    (hUsers : (users.map (·.id)).Perm (w.process.bidders auction.id).dedup) :
    WarnsTheRest w task auction users := by
  let leader := (w.process.bidders auction.id).head?
  let pendingUsers := users.filter fun user => !w.notified auction.id user.id
  have hGoesOn (phase next : Warning)
      (run : Runs.Reaches Watch.step (fun _ e => e.proceeds task) w (w.enter task phase))
      (hAnswer : w.answer t.auctionId users phase = some next) :
      Runs.Reaches Watch.step (fun _ e => e.proceeds task) w (w.enter task next) :=
    run.next (.answer task users) (Watch.enter_answers hTask hTicking users hAnswer) rfl
  have hLoads : Runs.Reaches Watch.step (fun _ e => e.proceeds task) w (w.enter task .loads) := by
    have hSame : w.enter task .loads = w := by
      rw [← hPhase, Watch.enter, Function.update_eq_self]
    rw [hSame]
    exact .init
  have hBidders : Runs.Reaches Watch.step (fun _ e => e.proceeds task) w
      (w.enter task (.readsBidders auction leader)) := by
    apply hGoesOn (.readsLastBid auction) _ (hGoesOn .loads _ hLoads _) rfl
    simp [Watch.answer, hStored, Option.filter, hActive, hFlag]
  by_cases hNobody : (w.process.bidders auction.id).dedup = []
  · rw [hNobody, List.perm_nil, List.map_eq_nil_iff] at hUsers
    refine ⟨_, hGoesOn _ (.flags auction) hBidders ?_, w.warnings_enter_self .., ?_⟩
    · simp [Watch.answer, hNobody]
    · simp [hUsers, warningRows, Watch.enter]
  have hNotified : Runs.Reaches Watch.step (fun _ e => e.proceeds task) w
      (w.enter task (.readsNotified auction leader users)) := by
    let userIds := (w.process.bidders auction.id).dedup
    apply hGoesOn (.readsUsers auction leader userIds) _ (hGoesOn _ _ hBidders _) _
    · simp only [Watch.answer]
      rw [if_neg hNobody]
    · simp only [Watch.answer]
      rw [if_pos hUsers]
  by_cases hTold : pendingUsers = []
  · refine ⟨_, hGoesOn _ (.flags auction) hNotified ?_, w.warnings_enter_self .., ?_⟩
    · simp only [Watch.answer]
      rw [if_pos hTold]
    · show w.notifications = w.notifications ++ warningRows auction (pendingUsers.map _)
      simp [hTold, warningRows]
  · let payloads := pendingUsers.map (endingSoonPayload leader)
    have hNotifies : Runs.Reaches Watch.step (fun _ e => e.proceeds task) w
        (w.enter task (.notifies auction users payloads)) := by
      apply hGoesOn _ _ hNotified
      simp only [Watch.answer]
      rw [if_neg hTold]
    let told : Watch := { w with notifications := w.notifications ++ warningRows auction payloads }
    have hTold : Runs.Reaches Watch.step (fun _ e => e.proceeds task) w
        (told.enter task (.pushes auction)) := by
      apply hNotifies.next (.commit task) _ rfl
      have hTask' : (w.enter task (.notifies auction users payloads)).endingSoon.tasks.get task =
        some t := hTask
      simp only [Watch.step, hTask', hTicking, if_true, Watch.warnings_enter_self, Watch.land,
        Option.map_some, Warning.afterCommit, Option.some.injEq]
      simp [Watch.enter, told, warningRows]
    refine ⟨told.enter task (.flags auction), ?_, told.warnings_enter_self .., rfl⟩
    exact hTold.next (.answer task users) (told.enter_answers hTask hTicking users rfl) rfl

/-- What the invariant says of the rows. -/
theorem Watch.Inv.warnedOnce (h : w.Inv) : WarnedOnce w where
  once := h.once
  others task auction users payloads hPhase := by
    cases hTask : w.endingSoon.tasks.get task with
    | none => cases hPhase.symm.trans (h.unborn task hTask)
    | some t =>
        have hOk := h.ok task t hTask
        rw [hPhase] at hOk
        exact hOk.2
  leaves _ _ hStep := Watch.step_leaves hStep
  retried _ _ _ _ hTask hTicking hPhase hStored hActive hFlag hUsers :=
    Watch.warns_rest hTask hTicking hPhase hStored hActive hFlag hUsers

/-- Nobody has two rows, a task about to warn warns exactly the bidders without one, and
so does every task that finds the lot without its flag, whatever has failed before. -/
theorem warned_once (rows : List (Option Auction)) (bidders : LotId → List UserId)
    (notifications : List NewNotification) (now : Time) (hOnce : Once notifications)
    (run : Runs.Reaches Watch.step CommitsSettled (.start rows bidders notifications now) w) :
    WarnedOnce w := by
  have hInv : w.Inv := by
    apply run.invariant (I := Watch.Inv) (.start rows bidders hOnce now)
    intro before after e h hStep hSettled
    exact h.step hStep hSettled
  exact hInv.warnedOnce

/-- A bidder with an e-mail address and every notification. -/
def bidder (id : UserId) : Recipient :=
  ⟨id, "bidder", "bidder@shop.ru", true, true, true, true, true, true, true⟩

/-- The first task fails before it has warned anybody, the second before the flag, and
the third finds nobody left: of the two bidders one had been told before. -/
theorem warned_once_chair : ∃ w : Watch,
    w.notifications.length = 2 ∧ w.notified 0 5 = true ∧ w.notified 0 7 = true ∧
      (w.warnings 2).commits = true ∧ WarnedOnce w := by
  let told := (endingSoonPayload none (bidder 5)).row (some 0) none
  let wakesAt (task : Nat) (t : Time) : List WatchEvent :=
    [.pass t, .wake task, .answer task [], .answer task [], .answer task [],
      .answer task [bidder 7, bidder 5], .answer task []]
  obtain ⟨w, run, hTwo, hFive, hSeven, hFlags⟩ := Runs.exists_reaches Watch.step CommitsSettled
    (.start [some (newAuction 0 chair 0 0)] (fun _ => [7, 5]) [told] 0)
    (wakesAt 0 (seconds 300) ++ [.raise 0 false, .finish 0,
        .call (.rearm { newAuction 0 chair 0 0 with endTime := seconds 900 })] ++
      wakesAt 1 (seconds 600) ++ [.commit 1, .answer 1 [], .raise 1 false, .finish 1,
        .call (.rearm { newAuction 0 chair 0 0 with endTime := seconds 1200 })] ++
      wakesAt 2 (seconds 900))
    (fun w => w.notifications.length = 2 ∧ w.notified 0 5 = true ∧ w.notified 0 7 = true ∧
      (w.warnings 2).commits = true)
    (by decide +kernel)
  refine ⟨w, hTwo, hFive, hSeven, hFlags, warned_once _ _ _ _ ?_ run⟩
  intro auctionId userId
  exact List.countP_le_length

end OnlineAuction.Scheduler
