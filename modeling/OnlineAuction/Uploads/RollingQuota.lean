import OnlineAuction.Library.Journals
import OnlineAuction.Library.RollingWindows
import OnlineAuction.Transactions.UploadQuota

/-! The upload quota over an interval that may lie anywhere. The counter of an
account knows only the uploads since its window was begun: where a window is
begun anew while the uploads of the last one are not a day old, the two together
may exceed the quota. -/

namespace OnlineAuction.Uploads

open RowLocks RollingWindows

structure Upload where
  userId : UserId
  size : Nat
  deriving DecidableEq

def handleUpload (request : Upload) : Prog uploads Unit := upload request.userId request.size

/-- An upload locks the row, reads the clock, and charges the account unless it
is over its quota. -/
inductive Charging where
  | begun (request : Upload)
  | locked (request : Upload) (row : UploadWindow)
  | accepted (request : Upload) (row : UploadWindow) (now : Time)
  | ended

namespace Charging

def after : Charging → Answer uploads → Charging
  | .begun request, .locked key d => match (d key).filter fun _ => key = request.userId with
      | some row => .locked request row
      | none => .ended
  | .locked request row, .clock now =>
      if uploadQuotaBytes < (row.current now).uploadBytesWindow + request.size then .ended
      else .accepted request row now
  | _, .committed _ _ => .ended
  | _, .failed _ => .ended
  | stage, _ => stage

def charged (request : Upload) (row : UploadWindow) (now : Time) : UploadWindow :=
  { row.current now with
    uploadBytesWindow := (row.current now).uploadBytesWindow + request.size }

def typestate : Typestate uploads Charging where
  update _ _ _ := False
  commit stage _ write := match stage with
    | .accepted request row now =>
        write = fun d => Function.update d request.userId (some (charged request row now))
    | _ => False
  after := after

theorem follows_selectUserForUpdate {request : Upload}
    {post : Option UploadWindow → Charging → Prop} (hNone : ∀ stage, post none stage)
    (hLocked : ∀ row, post (some row) (.locked request row)) :
    typestate.Follows (selectUserForUpdate request.userId) post (.begun request) := by
  refine ⟨trivial, fun d => ?_⟩
  have hSame : ((d request.userId).filter fun _ => request.userId = request.userId) =
      d request.userId := by
    cases d request.userId <;> simp [Option.filter]
  show post (d request.userId)
    (match (d request.userId).filter fun _ => request.userId = request.userId with
      | some row => .locked request row
      | none => .ended)
  rw [hSame]
  cases d request.userId with
  | none => exact hNone _
  | some row => exact hLocked row

theorem follows_utcnow {request : Upload} {row : UploadWindow} {post : Time → Charging → Prop} :
    typestate.Follows utcnow post (.locked request row) ↔ ∀ now, post now
      (if uploadQuotaBytes < (row.current now).uploadBytesWindow + request.size then .ended
        else .accepted request row now) := Iff.rfl

/-- An upload is charged to the row that it has locked. -/
theorem handleUpload_follows (request : Upload) :
    typestate.Follows (handleUpload request) (fun _ _ => True) (.begun request) := by
  show typestate.Follows (upload request.userId request.size) _ _
  unfold upload getCurrentUser checkUploadQuota
  rw [Typestate.follows_bind]
  intro d
  rw [Typestate.follows_orRaise]
  intro _ _
  show typestate.Follows _ _ (.begun request)
  rw [Typestate.follows_bind, Typestate.follows_bind]
  apply follows_selectUserForUpdate
  · intro stage
    rw [Typestate.follows_bind, Typestate.follows_orRaise]
    intro row hNone
    cases hNone
  · intro found
    rw [Typestate.follows_bind, Typestate.follows_orRaise]
    intro row hFound
    obtain rfl := Option.some.inj hFound
    rw [Typestate.follows_bind, follows_utcnow]
    intro now
    rw [Typestate.follows_bind, Typestate.follows_raiseIf]
    intro hWithin
    rw [if_neg hWithin]
    exact ⟨rfl, fun _ => trivial, trivial⟩

def copy : Charging → Option (UserId × UploadWindow)
  | .locked request row => some (request.userId, row)
  | .accepted request row _ => some (request.userId, row)
  | _ => none

/-- The session has the row locked, and its copy is the stored row. -/
def Knowledge (stage : Charging) (held : Held uploads) (d : UserId → Option UploadWindow) : Prop :=
  ∀ userId row, stage.copy = some (userId, row) → held userId = true ∧ d userId = some row

/-- The upload that an answer accepts, and the account it is charged to. -/
def entry : Charging → Answer uploads → Option (UserId × Entry Time)
  | .accepted request _ now, .committed _ _ => some (request.userId, ⟨now, request.size⟩)
  | _, _ => none

/-- An answer charges the account of an accepted upload, or no account. -/
inductive Changed (stage : Charging) (answer : Answer uploads)
    (d d' : UserId → Option UploadWindow) : Prop where
  | same (hDb : d' = d) (hNone : stage.entry answer = none)
  | charged (request : Upload) (row : UploadWindow) (now : Time)
      (hStage : stage = .accepted request row now)
      (hEntry : stage.entry answer = some (request.userId, ⟨now, request.size⟩))
      (hDb : d' = Function.update d request.userId (some (charged request row now)))

section Knowledge

variable {c c' : Config uploads} {sid other : Nat} {stage : Charging} {answer : Answer uploads}

/-- A step changes the windows as its answer says. -/
theorem Changed.of_told (hTold : typestate.Told c c' sid stage answer) :
    Changed stage answer c.db c'.db := by
  cases hTold with
  | read _ hDb => exact .same hDb (by cases stage <;> rfl)
  | locked _ _ hDb => exact .same hDb (by cases stage <;> rfl)
  | refused _ hDb => exact .same hDb (by cases stage <;> rfl)
  | clock _ _ hDb => exact .same hDb (by cases stage <;> rfl)
  | failed _ hDb => exact .same hDb (by cases stage <;> rfl)
  | updated _ _ hMay => exact absurd hMay id
  | committed note write hMay hDb =>
      cases stage with
      | accepted request row now =>
          obtain rfl := hMay
          exact .charged request row now rfl rfl hDb
      | begun => exact absurd hMay id
      | locked => exact absurd hMay id
      | ended => exact absurd hMay id

/-- What another session holds is as it was. -/
theorem Changed.others {d d' : UserId → Option UploadWindow} {held held' : Held uploads}
    (h : Changed stage answer d d') (hKnown : Knowledge stage held d)
    (hDisjoint : ∀ key, held' key = true → held key = false) {stage' : Charging}
    (hOther : Knowledge stage' held' d) : Knowledge stage' held' d' := by
  intro userId row hCopy
  obtain ⟨hHeld, hRow⟩ := hOther userId row hCopy
  refine ⟨hHeld, ?_⟩
  cases h with
  | same hDb => exact hDb ▸ hRow
  | charged request mine now hStage _ hDb =>
      have hId : userId ≠ request.userId := by
        rintro rfl
        have hFree := hDisjoint request.userId hHeld
        rw [(hKnown request.userId mine (by rw [hStage]; rfl)).1] at hFree
        cases hFree
      rw [hDb, Function.update_of_ne hId]
      exact hRow

/-- The lock and the copy of a session after an answer to it. -/
theorem Knowledge.told (hTold : typestate.Told c c' sid stage answer)
    (hKnown : Knowledge stage (c.held sid) c.db) :
    Knowledge (stage.after answer) (c'.held sid) c'.db := by
  intro userId row hCopy
  cases hTold with
  | read _ hDb hLocks =>
      rw [Config.held_of_same hLocks, hDb]
      cases stage <;> exact hKnown userId row hCopy
  | refused _ hDb hLocks =>
      rw [Config.held_of_same hLocks, hDb]
      cases stage <;> exact hKnown userId row hCopy
  | updated _ _ hMay => exact absurd hMay id
  | committed => cases stage <;> cases hCopy
  | failed => cases stage <;> cases hCopy
  | clock now _ hDb hLocks =>
      rw [Config.held_of_same hLocks, hDb]
      cases stage with
      | locked request old =>
          simp only [after] at hCopy
          split_ifs at hCopy
          · cases hCopy
          · exact hKnown userId row hCopy
      | accepted => exact hKnown userId row hCopy
      | begun => cases hCopy
      | ended => cases hCopy
  | locked key hFree hDb hLocks =>
      rw [Config.held_of_grant hLocks, hDb]
      have hKept (h : stage.copy = some (userId, row)) :
          (c.held sid).grant c.db key userId = true ∧ c.db userId = some row :=
        ⟨Held.grant_sub _ _ _ (hKnown userId row h).1, (hKnown userId row h).2⟩
      cases stage with
      | locked => exact hKept hCopy
      | accepted => exact hKept hCopy
      | ended => cases hCopy
      | begun request =>
          simp only [after] at hCopy
          cases hRow : (c.db key).filter fun _ => key = request.userId with
          | none =>
              rw [hRow] at hCopy
              cases hCopy
          | some found =>
              rw [hRow] at hCopy
              cases hCopy
              obtain ⟨hStored, hKey⟩ := Option.filter_eq_some_iff.mp hRow
              obtain rfl := of_decide_eq_true hKey
              have hExists : uploads.hasRow c.db request.userId = true := by
                show (c.db request.userId).isSome = true
                rw [hStored]
                rfl
              exact ⟨Held.grant_self _ hExists, hStored⟩

/-- An upload is accepted at a reading that leaves it within the quota. -/
theorem accepted_of_after {request : Upload} {row : UploadWindow} {now : Time}
    (h : stage.after answer = .accepted request row now) :
    stage.entry answer = none ∧ (stage = .accepted request row now ∨
      stage = .locked request row ∧ answer = .clock now ∧
        (row.current now).uploadBytesWindow + request.size ≤ uploadQuotaBytes) := by
  cases stage with
  | locked request' row' =>
      cases answer with
      | clock t =>
          simp only [after] at h
          split_ifs at h with hOver
          cases h
          exact ⟨rfl, .inr ⟨rfl, rfl, not_lt.mp hOver⟩⟩
      | _ => cases h
  | accepted request' row' now' =>
      cases answer with
      | committed => cases h
      | failed => cases h
      | _ => exact ⟨rfl, .inl h⟩
  | begun request' =>
      cases answer with
      | locked key d =>
          simp only [after] at h
          split at h <;> cases h
      | _ => cases h
  | ended => cases answer <;> cases h

end Knowledge

end Charging

/-- No closed interval of the length of the window has seen more accepted. -/
def WithinQuota (accepted : List (Entry Time)) : Prop :=
  Bounded uploadQuotaWindow uploadQuotaBytes accepted

/-- `start is None or now - start >= _UPLOAD_QUOTA_WINDOW`. -/
def UploadWindow.isOver (row : UploadWindow) (now : Time) : Bool :=
  match row.uploadWindowStart with
  | some start => uploadQuotaWindow ≤ now - start
  | none => true

/-- The window goes on, or begins anew when it is over. -/
theorem UploadWindow.current_eq (row : UploadWindow) (now : Time) :
    row.current now = if row.isOver now then ⟨0, some now⟩ else row := by
  unfold UploadWindow.current UploadWindow.isOver
  cases row.uploadWindowStart with
  | none => rfl
  | some start => simp

/-- The clock does not go back, and a window is begun anew only once every
upload accepted so far is more than the length of a window old. -/
def unforgotten : Charging → Answer uploads → (UserId → List (Entry Time)) → Bool
  | .locked request row, .clock now, accepted =>
      (accepted request.userId).all fun upload => upload.time ≤ now ∧
        (row.isOver now → upload.time + uploadQuotaWindow < now)
  | _, _, _ => true

/-- The counter of a row covers the uploads of its window. All others are more
than the length of a window older than one of these. -/
def Covers (row : UploadWindow) (accepted : List (Entry Time)) : Prop :=
  ∃ before within, accepted = before ++ within ∧ total within ≤ row.uploadBytesWindow ∧
    ∀ upload ∈ before, ∃ later ∈ within, upload.time + uploadQuotaWindow < later.time

structure Metered (d : UserId → Option UploadWindow) (accepted : UserId → List (Entry Time)) :
    Prop where
  withinQuota : ∀ userId, WithinQuota (accepted userId)
  covers : ∀ userId row, d userId = some row → Covers row (accepted userId)

/-- What an accepted upload knows: it fits into the window, comes after all
others, and begins no window too soon. -/
structure Fits (stage : Charging) (held : Held uploads) (d : UserId → Option UploadWindow)
    (accepted : UserId → List (Entry Time)) : Prop where
  known : stage.Knowledge held d
  fits : ∀ request row now, stage = .accepted request row now →
    (row.current now).uploadBytesWindow + request.size ≤ uploadQuotaBytes
  later : ∀ request row now, stage = .accepted request row now →
    ∀ upload ∈ accepted request.userId, upload.time ≤ now ∧
      (row.isOver now = true → upload.time + uploadQuotaWindow < now)

/-- The uploads of the last day fit into the window of the row. -/
theorem Covers.recent_le {row : UploadWindow} {accepted : List (Entry Time)} {now : Time}
    (h : Covers row accepted) (hLater : ∀ upload ∈ accepted, upload.time ≤ now ∧
      (row.isOver now = true → upload.time + uploadQuotaWindow < now)) :
    recent uploadQuotaWindow accepted now ≤ (row.current now).uploadBytesWindow := by
  rw [UploadWindow.current_eq]
  split_ifs with hOver
  · unfold recent
    rw [total_filter_none]
    intro upload hUpload hRecent
    have hOld := (hLater upload hUpload).2 hOver
    have hRecent := of_decide_eq_true hRecent
    linarith
  · obtain ⟨before, within, rfl, hTotal, hBefore⟩ := h
    unfold recent
    rw [List.filter_append, total_append, total_filter_none, Nat.zero_add]
    · exact (total_filter_le _ within).trans hTotal
    · intro upload hUpload hRecent
      obtain ⟨later, hMem, hOld⟩ := hBefore upload hUpload
      have hNow := (hLater later (List.mem_append_right _ hMem)).1
      have hRecent := of_decide_eq_true hRecent
      linarith

/-- The row charged with one more upload covers it, too. -/
theorem Covers.charged {request : Upload} {row : UploadWindow} {accepted : List (Entry Time)}
    {now : Time} (h : Covers row accepted) (hLater : ∀ upload ∈ accepted, upload.time ≤ now ∧
      (row.isOver now = true → upload.time + uploadQuotaWindow < now)) :
    Covers (Charging.charged request row now) (accepted ++ [⟨now, request.size⟩]) := by
  unfold Charging.charged
  rw [UploadWindow.current_eq]
  split_ifs with hOver
  · refine ⟨accepted, [⟨now, request.size⟩], rfl, by simp, fun upload hUpload => ?_⟩
    exact ⟨_, List.mem_singleton_self _, (hLater upload hUpload).2 hOver⟩
  · obtain ⟨before, within, rfl, hTotal, hBefore⟩ := h
    refine ⟨before, within ++ [⟨now, request.size⟩], List.append_assoc .., ?_, fun upload hUpload => ?_⟩
    · rw [total_append, total_singleton]
      exact Nat.add_le_add_right hTotal _
    · obtain ⟨later, hMem, hOld⟩ := hBefore upload hUpload
      exact ⟨later, List.mem_append_left _ hMem, hOld⟩

/-- An upload that is charged to the row as it is stored. -/
theorem Metered.charged {d : UserId → Option UploadWindow} {accepted : UserId → List (Entry Time)}
    (hMetered : Metered d accepted) {request : Upload} {row : UploadWindow} {now : Time}
    (hRow : d request.userId = some row)
    (hFits : (row.current now).uploadBytesWindow + request.size ≤ uploadQuotaBytes)
    (hLater : ∀ upload ∈ accepted request.userId, upload.time ≤ now ∧
      (row.isOver now = true → upload.time + uploadQuotaWindow < now)) :
    Metered (Function.update d request.userId (some (Charging.charged request row now)))
      (Journal.push accepted (some (request.userId, ⟨now, request.size⟩))) := by
  have hCovers := hMetered.covers request.userId row hRow
  constructor
  · intro userId
    rw [Journal.push_some]
    split_ifs with hId
    · subst hId
      apply (bounded_snoc (by decide) fun upload hUpload => (hLater upload hUpload).1).mpr
      constructor
      · exact hMetered.withinQuota request.userId
      · exact (Nat.add_le_add_right (hCovers.recent_le hLater) _).trans hFits
    · exact hMetered.withinQuota userId
  · intro userId stored hStored
    rw [Journal.push_some]
    split_ifs with hId
    · subst hId
      rw [Function.update_self, Option.some.injEq] at hStored
      exact hStored ▸ hCovers.charged hLater
    · rw [Function.update_of_ne hId] at hStored
      exact hMetered.covers userId stored hStored

theorem metered_outline : Journal.Outline Charging.typestate .begun Charging.entry unforgotten
    Metered Fits where
  started request d accepted := by
    constructor
    · intro userId row hCopy
      cases hCopy
    · intro request row now hStage
      cases hStage
    · intro request row now hStage
      cases hStage
  keeps {c c' sid stage answer accepted} hMetered hTold _ hFits := by
    cases Charging.Changed.of_told hTold with
    | same hDb hNone =>
        rw [hNone, hDb]
        exact hMetered
    | charged request row now hStage hEntry hDb =>
        rw [hEntry, hDb]
        apply hMetered.charged
        · exact (hFits.known request.userId row (by rw [hStage]; rfl)).2
        · exact hFits.fits request row now hStage
        · exact hFits.later request row now hStage
  told {c c' sid stage answer accepted} hMetered hTold hAllowed hFits := by
    refine ⟨hFits.known.told hTold, ?_, ?_⟩
    · intro request row now hStage
      obtain ⟨_, hBefore | ⟨_, _, hFit⟩⟩ := Charging.accepted_of_after hStage
      · exact hFits.fits request row now hBefore
      · exact hFit
    · intro request row now hStage
      obtain ⟨hNone, hBefore⟩ := Charging.accepted_of_after hStage
      rw [hNone]
      rcases hBefore with hBefore | ⟨rfl, rfl, _⟩
      · exact hFits.later request row now hBefore
      · intro upload hUpload
        exact of_decide_eq_true (List.all_eq_true.mp hAllowed upload hUpload)
  others {c c' sid other stage stage' answer accepted} hMetered hOther hTold _ hFits hOthers := by
    have hChanged := Charging.Changed.of_told hTold
    have hDisjoint := fun key hKey => c.held_disjoint hOther key hKey
    refine ⟨hChanged.others hFits.known hDisjoint hOthers.known, hOthers.fits, ?_⟩
    intro request row now hStage
    have hHeld := (hOthers.known request.userId row (by rw [hStage]; rfl)).1
    cases hChanged with
    | same _ hNone =>
        rw [hNone]
        exact hOthers.later request row now hStage
    | charged mine old _ hMine hEntry =>
        have hId : request.userId ≠ mine.userId := by
          intro hSame
          have hFree := hDisjoint request.userId hHeld
          rw [hSame, (hFits.known mine.userId old (by rw [hMine]; rfl)).1] at hFree
          cases hFree
        rw [hEntry, Journal.push_some, if_neg hId]
        exact hOthers.later request row now hStage

abbrev Uploading := Config uploads × Journal Charging UserId (Entry Time)

def uploadStep : Uploading → Action uploads Upload → Option Uploading :=
  Runs.recording (advance handleUpload) (Journal.record Charging.typestate .begun Charging.entry)

theorem metered_initial (d : UserId → Option UploadWindow) : Metered d fun _ => [] where
  withinQuota _ _ := Nat.zero_le _
  covers _ row _ := ⟨[], [], rfl, Nat.zero_le _, fun _ hUpload => by cases hUpload⟩

/-- Over any number of sessions and accounts: as long as no upload begins a
window anew while one accepted before is not more than a day old, no interval of
a day sees more than the quota accepted for an account. -/
theorem uploads_within_quota {d : UserId → Option UploadWindow} {s : Uploading}
    (run : Runs.Reaches uploadStep (fun s a => Journal.meets unforgotten s a = true)
      (.initial d, .empty) s) (userId : UserId) : WithinQuota (s.2.entries userId) :=
  (Journal.Holds.run metered_outline Charging.handleUpload_follows (.initial (metered_initial d))
    run).inv.withinQuota userId

/-- An upload of the greatest size a request may have. -/
def uploaded (now : Time) (sid : Nat) : List (Action uploads Upload) :=
  [.start sid ⟨1, 8 * 1024 * 1024⟩, .step sid, .step sid, .clock sid now, .step sid]

def newAccount : UserId → Option UploadWindow := fun userId =>
  if userId = 1 then some ⟨0, none⟩ else none

/-- Six uploads all but fill the quota. A day and a second later a window is
begun anew. -/
theorem uploads_within_quota_account : ∃ s : Uploading,
    total (s.2.entries 1) = 7 * (8 * 1024 * 1024) ∧ WithinQuota (s.2.entries 1) := by
  obtain ⟨s, run, hTotal⟩ := Runs.exists_reaches uploadStep
    (fun s a => Journal.meets unforgotten s a = true) (.initial newAccount, .empty)
    ((List.range 6).flatMap (uploaded 0) ++ uploaded (hours 24 + seconds 1) 6)
    (fun s => total (s.2.entries 1) = 7 * (8 * 1024 * 1024)) (by decide +kernel)
  exact ⟨s, hTotal, uploads_within_quota run 1⟩

/-- One upload begins a window, five more follow an hour before it is over, and
two as it is. -/
theorem uploads_exceed_quota : ¬∀ s : Uploading,
    Runs.Reaches uploadStep (fun _ _ => True) (.initial newAccount, .empty) s →
      WithinQuota (s.2.entries 1) := by
  intro hAll
  obtain ⟨s, run, hLoad⟩ := Runs.exists_reaches uploadStep (fun _ _ => True)
    (.initial newAccount, .empty)
    (uploaded 0 0 ++ ([1, 2, 3, 4, 5].flatMap (uploaded (hours 23))) ++
      [6, 7].flatMap (uploaded (hours 24)))
    (fun s => load uploadQuotaWindow (s.2.entries 1) (hours 23) = 7 * (8 * 1024 * 1024))
    (by decide +kernel)
  have hBound := hAll s run (hours 23)
  rw [hLoad] at hBound
  exact absurd hBound (by decide)

end OnlineAuction.Uploads
