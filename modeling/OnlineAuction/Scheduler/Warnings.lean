import OnlineAuction.Notifications.Dispatch
import OnlineAuction.Scheduler.Election

/-! One process with its warnings: the tasks of `_wait_and_notify_ending_soon`, and in
them `notify_auction_ending_soon`, beside the requests and the completion ticks. -/

namespace OnlineAuction.Scheduler

open Notifications

/-- What an ending-soon task is waiting for. -/
inductive Warning where
  | sleeps
  /- the lot -/
  | loads
  /- in the handler: the last bid, the bidders' ids, their rows, who has been told -/
  | readsLastBid (auction : Auction)
  | readsBidders (auction : Auction) (leader : Option UserId)
  | readsUsers (auction : Auction) (leader : Option UserId) (userIds : List UserId)
  | readsNotified (auction : Auction) (leader : Option UserId) (users : List Recipient)
  /- the commit of `notify_many` and its pushes -/
  | notifies (auction : Auction) (users : List Recipient) (payloads : List Payload)
  | pushes (auction : Auction)
  /- the commit of `ending_soon_notified` -/
  | flags (auction : Auction)
  /- the end of the database session -/
  | closes
  | ended
  deriving DecidableEq

def Warning.running : Warning → Bool
  | .sleeps | .ended => false
  | _ => true

def Warning.awaits : Warning → Bool
  | .sleeps | .pushes _ | .closes | .ended => false
  | _ => true

def Warning.commits : Warning → Bool
  | .notifies _ _ _ | .flags _ => true
  | _ => false

/-- Where the task goes on once its commit has answered. -/
def Warning.afterCommit : Warning → Warning
  | .notifies auction _ _ => .pushes auction
  | _ => .closes

def endingSoonPayload (leader : Option UserId) (user : Recipient) : Payload where
  user := user
  type := .auctionEnding
  title := "⏰ Аукцион скоро завершится"
  message := "Аукцион завершится через 5 минут! " ++
    if some user.id = leader then "Вы лидируете! 🎉" else "Сделайте ставку, чтобы выиграть!"

def warns (auctionId : LotId) (userId : UserId) (row : NewNotification) : Bool :=
  row.userId = userId && row.type = NotificationType.auctionEnding.value &&
    row.auctionId = some auctionId

/-- What a call does to `_completion_tasks`, made by no task of that store. -/
def Call.onCompletion : Call → Registry → Registry
  | .schedule auction, r => r.scheduleAuction none auction
  | .cancel auctionId, r => r.cancelAuction auctionId
  | .rearm auction, r => r.armCompletionTask none auction.id auction.endTime

/-- The process, `_ending_soon_tasks` with what each task is waiting for, the committed
notifications, and the clock. -/
structure Watch where
  process : Process
  endingSoon : Registry
  warnings : Nat → Warning
  notifications : List NewNotification
  now : Time

namespace Watch

variable (w : Watch)

def enter (task : Nat) (phase : Warning) : Watch :=
  { w with warnings := Function.update w.warnings task phase }

@[simp] theorem warnings_enter_self (task : Nat) (phase : Warning) :
    (w.enter task phase).warnings task = phase := Function.update_self ..

theorem warnings_enter_other {task other : Nat} (phase : Warning) (h : other ≠ task) :
    (w.enter task phase).warnings other = w.warnings other := Function.update_of_ne h _ _

/-- The user has a row of `AUCTION_ENDING` for the lot. -/
def notified (auctionId : LotId) (userId : UserId) : Bool :=
  w.notifications.any (warns auctionId userId)

/-- The call of a task has answered. `users` is the answer of the query for the rows of
users, in any order. -/
def answer (auctionId : LotId) (users : List Recipient) : Warning → Option Warning
  | .loads =>
      match (w.process.lots.get auctionId).filter
        fun auction => auction.isActive && !auction.endingSoonNotified with
      | none => some .closes
      | some auction => some (.readsLastBid auction)
  | .readsLastBid auction => some (.readsBidders auction (w.process.bidders auction.id).head?)
  | .readsBidders auction leader =>
      let userIds := (w.process.bidders auction.id).dedup
      if userIds = [] then some (.flags auction) else some (.readsUsers auction leader userIds)
  | .readsUsers auction leader userIds =>
      if (users.map (·.id)).Perm userIds then some (.readsNotified auction leader users) else none
  | .readsNotified auction leader users =>
      let pendingUsers := users.filter fun user => !w.notified auction.id user.id
      if pendingUsers = [] then some (.flags auction)
      else some (.notifies auction users (pendingUsers.map (endingSoonPayload leader)))
  | .pushes auction => some (.flags auction)
  | _ => none

/-- The commit that a task waits for takes effect. The `UPDATE` of the lot waits for
whoever holds the row. -/
def land : Warning → Option Watch
  | .notifies auction _ payloads =>
      some { w with
        notifications := w.notifications ++
          payloads.map (Payload.row (some auction.id) (some auction.title)) }
  | .flags auction =>
      if w.process.locks auction.id = none then
        some { w with
          process := w.process.write auction { auction with endingSoonNotified := true } }
      else none
  | _ => none

end Watch

def Event.readsAt (now : Time) : Event → Bool
  | .request _ _ t => t = now
  | .resume _ t _ => t = now
  | _ => true

/-- A scheduling choice. `call` is made by no session (the startup, a promotion),
`other` is a notification of another type, and a commit in flight when its task is
cancelled may yet `land`. -/
inductive WatchEvent where
  | act (e : Event)
  | call (call : Call)
  | pass (t : Time)
  | other (row : NewNotification)
  | wake (task : Nat)
  | answer (task : Nat) (users : List Recipient)
  | commit (task : Nat)
  | raise (task : Nat) (landed : Bool)
  | land (task : Nat)
  | finish (task : Nat)

/-- One step, `none` when it is not possible. An exception is logged and the transaction
rolled back; `finish` is the `finally` clause. -/
def Watch.step (w : Watch) : WatchEvent → Option Watch
  | .act e =>
      if e.readsAt w.now then
        (Scheduler.step w.process e).map fun p =>
          { w with
            process := p
            endingSoon := match e.call w.process with
              | none => w.endingSoon
              | some (call, t) => call.onEndingSoon t w.endingSoon }
      else none
  | .call call =>
      some { w with
        process := w.process.setRegistry (call.onCompletion w.process.registry)
        endingSoon := call.onEndingSoon w.now w.endingSoon }
  | .pass t => if w.now ≤ t then some { w with now := t } else none
  | .other row =>
      if row.type = NotificationType.auctionEnding.value then none
      else some { w with notifications := w.notifications ++ [row] }
  | .wake task => match w.endingSoon.tasks.get task with
      | none => none
      | some t =>
          if t.status = .sleeping ∧ t.expectedEnd ≤ w.now then
            some ({ w with endingSoon := w.endingSoon.wake task }.enter task .loads)
          else none
  | .answer task users => match w.endingSoon.tasks.get task with
      | none => none
      | some t =>
          if t.status = .ticking then
            (w.answer t.auctionId users (w.warnings task)).map fun phase => w.enter task phase
          else none
  | .commit task => match w.endingSoon.tasks.get task with
      | none => none
      | some t =>
          if t.status = .ticking then
            (w.land (w.warnings task)).map fun w' => w'.enter task (w.warnings task).afterCommit
          else none
  | .raise task landed => match w.endingSoon.tasks.get task with
      | none => none
      | some t =>
          if t.status = .ticking ∧ (w.warnings task).awaits then
            let w' := if landed then (w.land (w.warnings task)).getD w else w
            some (w'.enter task .closes)
          else none
  | .land task => match w.endingSoon.tasks.get task with
      | none => none
      | some t =>
          if t.status = .cancelled then
            (w.land (w.warnings task)).map fun w' => w'.enter task .closes
          else none
  | .finish task => match w.endingSoon.tasks.get task with
      | none => none
      | some t =>
          if (t.status = .ticking ∧ w.warnings task = .closes) ∨
              (t.status = .cancelled ∧ (w.warnings task).running) then
            some ({ w with endingSoon := w.endingSoon.finish task t.auctionId }.enter task .ended)
          else none

/-- The process as it starts at time `t` over a database with these rows. -/
def Watch.start (rows : List (Option Auction)) (bidders : LotId → List UserId)
    (notifications : List NewNotification) (t : Time) : Watch where
  process := .start rows bidders
  endingSoon := (activeAuctions (storedLots rows)).foldl
    (fun r auction => (Call.schedule auction).onEndingSoon t r) .empty
  warnings _ := .sleeps
  notifications := notifications
  now := t

inductive Watch.Steps (w : Watch) : WatchEvent → Watch → Prop where
  | act {e : Event} {p : Process} (hReads : e.readsAt w.now = true)
      (hProcess : Scheduler.step w.process e = some p) : Steps w (.act e)
        { w with
          process := p
          endingSoon := match e.call w.process with
            | none => w.endingSoon
            | some (call, t) => call.onEndingSoon t w.endingSoon }
  | call (call : Call) : Steps w (.call call)
      { w with
        process := w.process.setRegistry (call.onCompletion w.process.registry)
        endingSoon := call.onEndingSoon w.now w.endingSoon }
  | pass {t : Time} (hLater : w.now ≤ t) : Steps w (.pass t) { w with now := t }
  | other {row : NewNotification} (hType : row.type ≠ NotificationType.auctionEnding.value) :
      Steps w (.other row) { w with notifications := w.notifications ++ [row] }
  | wake {task : Nat} {t : CompletionTask} (hTask : w.endingSoon.tasks.get task = some t)
      (hSleeping : t.status = .sleeping) (hDue : t.expectedEnd ≤ w.now) :
      Steps w (.wake task) ({ w with endingSoon := w.endingSoon.wake task }.enter task .loads)
  | answer {task : Nat} {t : CompletionTask} {users : List Recipient} {phase : Warning}
      (hTask : w.endingSoon.tasks.get task = some t) (hTicking : t.status = .ticking)
      (hAnswer : w.answer t.auctionId users (w.warnings task) = some phase) :
      Steps w (.answer task users) (w.enter task phase)
  | commit {task : Nat} {t : CompletionTask} {w' : Watch}
      (hTask : w.endingSoon.tasks.get task = some t) (hTicking : t.status = .ticking)
      (hLand : w.land (w.warnings task) = some w') :
      Steps w (.commit task) (w'.enter task (w.warnings task).afterCommit)
  | fails {task : Nat} {t : CompletionTask} {landed : Bool}
      (hTask : w.endingSoon.tasks.get task = some t) (hTicking : t.status = .ticking) :
      Steps w (.raise task landed) (w.enter task .closes)
  | failsLate {task : Nat} {t : CompletionTask} {w' : Watch}
      (hTask : w.endingSoon.tasks.get task = some t) (hTicking : t.status = .ticking)
      (hLand : w.land (w.warnings task) = some w') :
      Steps w (.raise task true) (w'.enter task .closes)
  | land {task : Nat} {t : CompletionTask} {w' : Watch}
      (hTask : w.endingSoon.tasks.get task = some t) (hCancelled : t.status = .cancelled)
      (hLand : w.land (w.warnings task) = some w') :
      Steps w (.land task) (w'.enter task .closes)
  | finish {task : Nat} {t : CompletionTask} (hTask : w.endingSoon.tasks.get task = some t)
      (hAwake : t.status ≠ .sleeping) : Steps w (.finish task)
        ({ w with endingSoon := w.endingSoon.finish task t.auctionId }.enter task .ended)

theorem Watch.steps_of_step {w w' : Watch} {e : WatchEvent} (hStep : w.step e = some w') :
    w.Steps e w' := by
  cases e with
  | act e =>
      obtain ⟨hReads, hStep⟩ := Option.ite_none_right_eq_some.mp hStep
      obtain ⟨p, hProcess, rfl⟩ := Option.map_eq_some_iff.mp hStep
      exact .act hReads hProcess
  | call call =>
      cases hStep
      exact .call call
  | pass t =>
      obtain ⟨hLater, hStep⟩ := Option.ite_none_right_eq_some.mp hStep
      cases hStep
      exact .pass hLater
  | other row =>
      obtain ⟨hType, hStep⟩ := Option.ite_none_left_eq_some.mp hStep
      cases hStep
      exact .other hType
  | wake task =>
      simp only [step] at hStep
      split at hStep
      next => cases hStep
      next t hTask =>
        obtain ⟨hDue, hStep⟩ := Option.ite_none_right_eq_some.mp hStep
        cases hStep
        exact .wake hTask hDue.1 hDue.2
  | answer task users =>
      simp only [step] at hStep
      split at hStep
      next => cases hStep
      next t hTask =>
        obtain ⟨hTicking, hStep⟩ := Option.ite_none_right_eq_some.mp hStep
        obtain ⟨phase, hAnswer, rfl⟩ := Option.map_eq_some_iff.mp hStep
        exact .answer hTask hTicking hAnswer
  | commit task =>
      simp only [step] at hStep
      split at hStep
      next => cases hStep
      next t hTask =>
        obtain ⟨hTicking, hStep⟩ := Option.ite_none_right_eq_some.mp hStep
        obtain ⟨middle, hLand, rfl⟩ := Option.map_eq_some_iff.mp hStep
        exact .commit hTask hTicking hLand
  | raise task landed =>
      simp only [step] at hStep
      split at hStep
      next => cases hStep
      next t hTask =>
        obtain ⟨hAwaits, hStep⟩ := Option.ite_none_right_eq_some.mp hStep
        cases hStep
        cases landed with
        | false => exact .fails hTask hAwaits.1
        | true =>
            rw [if_pos rfl]
            cases hLand : w.land (w.warnings task) with
            | none => exact .fails hTask hAwaits.1
            | some middle => exact .failsLate hTask hAwaits.1 hLand
  | land task =>
      simp only [step] at hStep
      split at hStep
      next => cases hStep
      next t hTask =>
        obtain ⟨hCancelled, hStep⟩ := Option.ite_none_right_eq_some.mp hStep
        obtain ⟨middle, hLand, rfl⟩ := Option.map_eq_some_iff.mp hStep
        exact .land hTask hCancelled hLand
  | finish task =>
      simp only [step] at hStep
      split at hStep
      next => cases hStep
      next t hTask =>
        obtain ⟨hEnds, hStep⟩ := Option.ite_none_right_eq_some.mp hStep
        cases hStep
        apply Steps.finish hTask
        rcases hEnds with ⟨hIs, -⟩ | ⟨hIs, -⟩ <;> simp [hIs]

section

variable {sid : Nat} {p p' : Process} {phase : Phase}

/-- Only a commit changes a table. -/
theorem tables_resume {t : Time} {passes : Bool} (hStep : resume p sid t passes phase = some p') :
    p'.lots = p.lots ∧ p'.bidders = p.bidders := by
  cases phase
  case bidWaits | updateWaits | buyWaits | deleteWaits | tickWaits =>
    simp only [resume, Process.lockLot] at hStep
    split_ifs at hStep
    obtain rfl := Option.some.inj hStep
    split <;> exact ⟨rfl, rfl⟩
  all_goals
    rw [resume] at hStep
    repeat' split at hStep
    all_goals cases hStep <;> exact ⟨rfl, rfl⟩

/-- A row to be inserted is given its number. -/
theorem resume_createCommits {t : Time} {passes : Bool} {row : LotId → Auction}
    (hStep : resume p sid t passes phase = some p') (hIs : p'.sessions sid = .createCommits row) :
    ∀ id, (row id).id = id := by
  cases phase
  case bidWaits | updateWaits | buyWaits | deleteWaits | tickWaits =>
    simp only [resume, Process.lockLot] at hStep
    split_ifs at hStep
    obtain rfl := Option.some.inj hStep
    split at hIs
    · simp at hIs
    · rename_i next hNext
      obtain ⟨found, -, hNext⟩ := Option.bind_eq_some_iff.mp hNext
      rw [Process.sessions_enter] at hIs
      subst hIs
      simp [bidPhase, updatePhase, buyPhase, deletePhase] at hNext
  case updateChecks edited data =>
    rw [resume] at hStep
    repeat' split at hStep
    all_goals cases hStep
    all_goals simp at hIs
    rename_i hNext
    subst hIs
    simp [updateCommitPhase] at hNext
  all_goals
    rw [resume] at hStep
    repeat' split at hStep
    all_goals cases hStep
    all_goals simp at hIs
    try (subst hIs; exact fun _ => rfl)

/-- Every row has its number, also one that is to be inserted. -/
structure RowIds (p : Process) : Prop where
  stored : ∀ id row, p.lots.get id = some row → row.id = id
  inserted : ∀ sid row, p.sessions sid = .createCommits row → ∀ id, (row id).id = id

theorem RowIds.stored_write (h : RowIds p) (row changed : Auction) {id : LotId} {found : Auction}
    (hFound : (p.write row changed).lots.get id = some found) : found.id = id := by
  by_cases hId : id = row.id
  · subst hId
    rw [Process.write, Table.get_modify_self] at hFound
    obtain ⟨stored, hStored, rfl⟩ := Option.map_eq_some_iff.mp hFound
    exact h.stored _ stored hStored
  · rw [Process.write, Table.get_modify_other _ _ hId] at hFound
    exact h.stored id found hFound

/-- A commit keeps the numbers of the rows, and the bidders of a lot only grow. -/
theorem RowIds.commit (h : RowIds p) {middle : Process}
    (hCommit : (p.sessions sid).commit p = some middle) :
    (∀ id row, middle.lots.get id = some row → row.id = id) ∧
      ∀ id, p.bidders id <:+ middle.bidders id := by
  have hSame (id : LotId) : p.bidders id <:+ p.bidders id := List.suffix_refl _
  cases hWas : p.sessions sid <;> rw [hWas] at hCommit
  case createCommits row =>
    obtain rfl := Option.some.inj hCommit
    refine ⟨fun id found hFound => ?_, hSame⟩
    rcases Table.of_get_add hFound with ⟨_, rfl⟩ | hFound
    · exact h.inserted sid row hWas id
    · exact h.stored id found hFound
  case bidCommits userId row changed extended =>
    obtain rfl := Option.some.inj hCommit
    refine ⟨fun _ _ => h.stored_write row changed, fun id => ?_⟩
    by_cases hId : id = row.id
    · subst hId
      simp
    · show p.bidders id <:+ Function.update p.bidders row.id (userId :: p.bidders row.id) id
      rw [Function.update_of_ne hId]
  case updateCommits row changed extended =>
    obtain rfl := Option.some.inj hCommit
    exact ⟨fun _ _ => h.stored_write row changed, hSame⟩
  case buyCommits row changed =>
    obtain rfl := Option.some.inj hCommit
    exact ⟨fun _ _ => h.stored_write row changed, hSame⟩
  case deleteCommits auctionId =>
    obtain rfl := Option.some.inj hCommit
    refine ⟨fun id found hFound => ?_, hSame⟩
    simp only [Table.get_erase] at hFound
    split_ifs at hFound
    exact h.stored id found hFound
  case tickCommits task auction =>
    obtain rfl := Option.some.inj hCommit
    exact ⟨fun _ _ => h.stored_write auction _, hSame⟩
  all_goals cases hCommit

theorem Phase.afterCommit_ne (p : Process) (phase : Phase) (row : LotId → Auction) :
    phase.afterCommit p ≠ .createCommits row := by
  cases phase
  case bidCommits userId stored changed extended => cases extended <;> simp [Phase.afterCommit]
  all_goals simp [Phase.afterCommit]

theorem Phase.onRaise_ne (phase : Phase) (row : LotId → Auction) :
    phase.onRaise ≠ .createCommits row := by
  cases phase <;> simp [Phase.onRaise]

/-- The rows keep their numbers, and bids are only added. -/
theorem RowIds.step (h : RowIds p) {e : Event} (hStep : Scheduler.step p e = some p') :
    RowIds p' ∧ ∀ id, p.bidders id <:+ p'.bidders id := by
  have hSessions {row : LotId → Auction}
      (hSelf : p'.sessions e.session = .createCommits row → ∀ id, (row id).id = id) (sid : Nat)
      (hIs : p'.sessions sid = .createCommits row) : ∀ id, (row id).id = id := by
    by_cases hSid : sid = e.session
    · subst hSid
      exact hSelf hIs
    · rw [sessions_step hStep hSid] at hIs
      exact h.inserted sid row hIs
  have hSame (id : LotId) : p.bidders id <:+ p.bidders id := List.suffix_refl _
  cases Process.steps_of_step hStep with
  | @request sid request =>
      refine ⟨⟨h.stored, fun s row hIs => hSessions (fun hSelf => ?_) s hIs⟩, hSame⟩
      simp only [Event.session, Process.sessions_enter] at hSelf
      cases request <;> cases hSelf
  | wake =>
      refine ⟨⟨h.stored, fun s row hIs => hSessions (fun hSelf => ?_) s hIs⟩, hSame⟩
      simp [Event.session] at hSelf
  | resume hResume =>
      obtain ⟨hLots, hBidders⟩ := tables_resume hResume
      rw [hBidders]
      refine ⟨⟨by rw [hLots]; exact h.stored, fun s row hIs => ?_⟩, hSame⟩
      exact hSessions (resume_createCommits hResume) s hIs
  | commit hCommit =>
      obtain ⟨hStored, hBids⟩ := h.commit hCommit
      refine ⟨⟨hStored, fun s row hIs => hSessions (fun hSelf => ?_) s hIs⟩, hBids⟩
      simp only [Event.session, Process.sessions_enter] at hSelf
      exact absurd hSelf (Phase.afterCommit_ne _ _ _)
  | fails =>
      refine ⟨⟨h.stored, fun s row hIs => hSessions (fun hSelf => ?_) s hIs⟩, hSame⟩
      simp only [Event.session, Process.sessions_enter] at hSelf
      exact absurd hSelf (Phase.onRaise_ne _ _)
  | failsLate _ hCommit =>
      obtain ⟨hStored, hBids⟩ := h.commit hCommit
      refine ⟨⟨hStored, fun s row hIs => hSessions (fun hSelf => ?_) s hIs⟩, hBids⟩
      simp only [Event.session, Process.sessions_enter] at hSelf
      exact absurd hSelf (Phase.onRaise_ne _ _)

end

end OnlineAuction.Scheduler
