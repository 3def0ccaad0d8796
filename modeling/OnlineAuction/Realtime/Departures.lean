import OnlineAuction.Realtime.Endpoints

/-! What a handler leaves in the registry. Its socket is disconnected in two of the
`except` clauses, and neither a `break` nor a cancellation passes through them. -/

namespace OnlineAuction.Realtime

variable {Message : Type}

namespace Endpoints

/-- Of a handler that has ended nothing is left in the registry. -/
def LeavesNothing (s : Endpoints Message) : Prop :=
  ∀ id endpoint, s.handlers.get id = some ⟨endpoint, .ended⟩ →
    ∀ key, id ∉ s.server.manager.bucket key

def goesOn (s : Endpoints Message) : EndpointEvent Message → Option (Nat × Endpoint × Next)
  | .returned id now found => do
      let h ← s.handlers.get id
      return (id, h.endpoint, ← h.returned now found)
  | .raised id failure => do
      let h ← s.handlers.get id
      return (id, h.endpoint, ← h.raised failure)
  | _ => none

/-- A handler leaves its loop by a `break` or a cancellation while its socket is
registered. -/
def leavesBehind (s : Endpoints Message) (e : EndpointEvent Message) : Bool :=
  match s.goesOn e with
  | some (id, endpoint, .exit raised) =>
      !disconnects raised && decide (id ∈ s.server.manager.bucket endpoint.key)
  | _ => false

def CleansUp (s : Endpoints Message) (e : EndpointEvent Message) : Prop := s.leavesBehind e = false

instance (s : Endpoints Message) (e : EndpointEvent Message) : Decidable (CleansUp s e) :=
  inferInstanceAs (Decidable (s.leavesBehind e = false))

/-- Every registered socket is that of a handler in its loop, and is registered
once, under the key of that handler. -/
structure Registered (s : Endpoints Message) : Prop where
  placed : Placed s.server
  once : ∀ key, (s.server.manager.bucket key).Nodup
  owned : ∀ key id, id ∈ s.server.manager.bucket key →
    ∃ h, s.handlers.get id = some h ∧ h.endpoint.key = key ∧ h.phase.inLoop = true

variable {s s' : Endpoints Message}

/-- A handler that leaves without disconnecting has already left its bucket. -/
theorem CleansUp.exit {e : EndpointEvent Message} {id : Nat} {endpoint : Endpoint}
    {raised : Option Failure} (h : CleansUp s e)
    (hExit : s.goesOn e = some (id, endpoint, .exit raised)) (hNot : disconnects raised = false) :
    id ∉ s.server.manager.bucket endpoint.key := by
  simpa [CleansUp, leavesBehind, hExit, hNot] using h

/-- A step cleans up when every handler that leaves in it does. -/
theorem cleansUp_of_exits {e : EndpointEvent Message}
    (h : ∀ id endpoint raised, s.goesOn e = some (id, endpoint, .exit raised) →
      disconnects raised = false → id ∉ s.server.manager.bucket endpoint.key) : CleansUp s e := by
  unfold CleansUp leavesBehind
  split
  next id endpoint raised hExit =>
    cases hNot : disconnects raised with
    | true => rfl
    | false => simpa using h id endpoint raised hExit hNot
  next => rfl

theorem initial_registered : Registered (initial : Endpoints Message) where
  placed := initial_placed
  once _ := List.nodup_nil
  owned _ _ hIn := by cases hIn

/-- While only running handlers are registered nothing is left behind. -/
theorem Registered.leavesNothing (h : Registered s) : LeavesNothing s := by
  intro id endpoint hEnded key hIn
  obtain ⟨handler, hGet, _, hLoop⟩ := h.owned key id hIn
  rw [hEnded] at hGet
  obtain rfl := Option.some.inj hGet
  cases hLoop

/-- Outside its loop a handler has nothing registered. -/
theorem Registered.absent (h : Registered s) {id : Nat} {handler : Handler}
    (hGet : s.handlers.get id = some handler) (hNot : handler.phase.inLoop = false)
    (key : Channel) : id ∉ s.server.manager.bucket key := by
  intro hIn
  obtain ⟨found, hFound, _, hLoop⟩ := h.owned key id hIn
  obtain rfl := Option.some.inj (hGet.symm.trans hFound)
  rw [hNot] at hLoop
  cases hLoop

/-- A handler moves on, and its socket is registered only where it may be. -/
theorem Registered.moveTo (h : Registered s) {id : Nat} {handler : Handler}
    (hGet : s.handlers.get id = some handler) {server : Server Nat Message} (hPlaced : Placed server)
    (hOnce : ∀ key, (server.manager.bucket key).Nodup)
    (hOthers : ∀ key other, other ≠ id → other ∈ server.manager.bucket key →
      other ∈ s.server.manager.bucket key) {phase : Phase}
    (hOwn : ∀ key, id ∈ server.manager.bucket key →
      handler.endpoint.key = key ∧ phase.inLoop = true)
    (slots : String → Option Nat) :
    Registered (Endpoints.moveTo ⟨server, slots, s.handlers⟩ id phase) where
  placed := hPlaced
  once := hOnce
  owned key other hIn := by
    by_cases hSame : other = id
    · subst hSame
      obtain ⟨hKey, hLoop⟩ := hOwn key hIn
      exact ⟨_, (Table.get_modify_self _ _ _).trans (congrArg _ hGet), hKey, hLoop⟩
    · obtain ⟨found, hFound, hKey, hLoop⟩ := h.owned key other (hOthers key other hSame hIn)
      exact ⟨found, (Table.get_modify_other _ _ hSame).trans hFound, hKey, hLoop⟩

/-- A new handler keeps the registry to running handlers. -/
theorem Registered.start (h : Registered s) (endpoint : Endpoint) (phase : Phase)
    (slots : String → Option Nat) :
    Registered (Endpoints.start ⟨s.server, slots, s.handlers⟩ endpoint phase) where
  placed := h.placed
  once := h.once
  owned key id hIn := by
    obtain ⟨found, hFound, hKey, hLoop⟩ := h.owned key id hIn
    exact ⟨found, Table.get_add_old hFound _, hKey, hLoop⟩

/-- So does a handler whose socket is accepted, in its own bucket. -/
theorem Registered.accept (h : Registered s) {id : Nat} {handler : Handler}
    (hGet : s.handlers.get id = some handler) (hNot : handler.phase.inLoop = false) {phase : Phase}
    (hLoop : phase.inLoop = true) (slots : String → Option Nat) :
    Registered (Endpoints.moveTo ⟨s.server.connect id handler.endpoint.key, slots, s.handlers⟩ id
      phase) := by
  have hNone := h.absent hGet hNot
  have hBucket (key : Channel) :
      (s.server.connect id handler.endpoint.key).manager.bucket key =
        if key = handler.endpoint.key then s.server.manager.bucket handler.endpoint.key ++ [id]
        else s.server.manager.bucket key :=
    h.placed.sound.bucket_append id handler.endpoint.key key
  refine h.moveTo hGet (h.placed.connect id handler.endpoint.key) (fun key => ?_)
    (fun key other hOther hIn => ?_) (fun key hIn => ?_) slots
  · rw [hBucket]
    split_ifs
    · rw [List.nodup_append]
      exact ⟨h.once _, List.nodup_singleton _, fun a ha b hb hab =>
        hNone _ (List.mem_singleton.mp hb ▸ hab ▸ ha)⟩
    · exact h.once key
  · rw [hBucket] at hIn
    split_ifs at hIn with hKey
    · rcases List.mem_append.mp hIn with hOld | hNew
      · exact hKey ▸ hOld
      · exact absurd (List.mem_singleton.mp hNew) hOther
    · exact hIn
  · rw [hBucket] at hIn
    split_ifs at hIn with hKey
    · exact ⟨hKey.symm, hLoop⟩
    · exact absurd hIn (hNone key)

/-- The bucket that a registered socket is in is that of its own handler. -/
theorem Registered.key_eq (h : Registered s) {id : Nat} {handler : Handler}
    (hGet : s.handlers.get id = some handler) {key : Channel}
    (hIn : id ∈ s.server.manager.bucket key) : handler.endpoint.key = key := by
  obtain ⟨found, hFound, hKey, _⟩ := h.owned key id hIn
  rwa [Option.some.inj (hGet.symm.trans hFound)]

/-- A handler that disconnects leaves nothing in any bucket. -/
theorem Registered.depart (h : Registered s) {id : Nat} {handler : Handler}
    (hGet : s.handlers.get id = some handler) (phase : Phase) (slots : String → Option Nat) :
    Registered (Endpoints.moveTo ⟨s.server.disconnect id handler.endpoint.key, slots, s.handlers⟩ id
      phase) := by
  have hBucket (key : Channel) :
      (s.server.disconnect id handler.endpoint.key).manager.bucket key =
        if key = handler.endpoint.key then
          (s.server.manager.bucket handler.endpoint.key).erase id
        else s.server.manager.bucket key :=
    h.placed.sound.bucket_remove id handler.endpoint.key key
  refine h.moveTo hGet (h.placed.disconnect id handler.endpoint.key) (fun key => ?_)
    (fun key other hOther hIn => ?_) (fun key hIn => ?_) slots
  · rw [hBucket]
    split_ifs
    · exact (h.once _).erase id
    · exact h.once key
  · rw [hBucket] at hIn
    split_ifs at hIn with hKey
    · exact hKey ▸ List.mem_of_mem_erase hIn
    · exact hIn
  · rw [hBucket] at hIn
    split_ifs at hIn with hKey
    · exact absurd hIn (h.once _).not_mem_erase
    · exact absurd (h.key_eq hGet hIn).symm hKey

/-- A handler that goes on, or leaves and has cleaned up, keeps the registry to
running handlers. -/
theorem Registered.next (h : Registered s) {id : Nat} {handler : Handler}
    (hGet : s.handlers.get id = some handler) {next : Next} (hMoves : handler.Moves next)
    (hClean : ∀ raised, next = .exit raised → disconnects raised = false →
      id ∉ s.server.manager.bucket handler.endpoint.key) :
    Registered (s.next id handler.endpoint next) := by
  have hStay {phase : Phase} (slots : String → Option Nat)
      (hOwn : ∀ key, id ∈ s.server.manager.bucket key →
        handler.endpoint.key = key ∧ phase.inLoop = true) :
      Registered (Endpoints.moveTo ⟨s.server, slots, s.handlers⟩ id phase) :=
    h.moveTo hGet h.placed h.once (fun _ _ _ hIn => hIn) hOwn slots
  have hAbsent (hNot : handler.phase.inLoop = false) {phase : Phase} (key : Channel)
      (hIn : id ∈ s.server.manager.bucket key) :
      handler.endpoint.key = key ∧ phase.inLoop = true :=
    absurd hIn (h.absent hGet hNot key)
  cases hMoves with
  | authorized userId _ hPhase => exact hStay _ (hAbsent (by rw [hPhase]; rfl))
  | loops hLoop phase hNext => exact hStay _ fun key hIn => ⟨h.key_eq hGet hIn, hNext⟩
  | denied hPhase =>
      apply hStay
      apply hAbsent
      rcases hPhase with hPhase | hPhase <;> rw [hPhase] <;> rfl
  | failed hPhase => exact hStay _ (hAbsent (by rw [hPhase]; rfl))
  | accepted hPhase => exact h.accept hGet (by rw [hPhase]; rfl) rfl s.auctionWsPerIp
  | exits hLoop raised =>
      simp only [Endpoints.next]
      split_ifs with hDisconnects
      · rw [release_eq]
        exact h.depart hGet _ _
      · rw [release_eq]
        have hGone := hClean raised rfl (Bool.eq_false_iff.mpr hDisconnects)
        exact hStay _ fun key hIn => absurd (h.key_eq hGet hIn ▸ hIn) hGone

/-- Every step that cleans up keeps the registry to running handlers. -/
theorem Registered.step (h : Registered s) {e : EndpointEvent Message}
    (hStep : Endpoints.step s e = some s') (hClean : CleansUp s e) : Registered s' := by
  cases e with
  | websocketEndpoint client auctionId =>
      simp only [Endpoints.step] at hStep
      split_ifs at hStep
      · obtain rfl := Option.some.inj hStep
        exact h.start _ _ s.auctionWsPerIp
      · obtain rfl := Option.some.inj hStep
        exact h.start _ _ _
  | notificationsWebsocket userId tokenMatches =>
      obtain rfl := Option.some.inj hStep
      exact h.start _ _ s.auctionWsPerIp
  | returned id now found =>
      obtain ⟨handler, next, hGet, hNext, rfl⟩ := step_returned hStep
      apply h.next hGet (handler.returned_moves hNext)
      rintro raised rfl
      exact hClean.exit (by simp [goesOn, hGet, hNext])
  | raised id failure =>
      obtain ⟨handler, next, hGet, hNext, rfl⟩ := step_raised hStep
      apply h.next hGet (handler.raised_moves hNext)
      rintro raised rfl
      exact hClean.exit (by simp [goesOn, hGet, hNext])
  | other e =>
      obtain ⟨hOld, server, hServer, rfl⟩ := step_other hStep
      obtain ⟨hPlaced, hSublist⟩ := h.placed.step hServer hOld
      exact ⟨hPlaced, fun key => (h.once key).sublist (hSublist key),
        fun key id hIn => h.owned key id ((hSublist key).subset hIn)⟩

/-- A handler that leaves its loop without a disconnect leaves its socket where it is. -/
theorem left_behind {id : Nat} {handler : Handler} {raised : Option Failure}
    (hGet : s.handlers.get id = some handler) (hNot : disconnects raised = false)
    (hIn : id ∈ s.server.manager.bucket handler.endpoint.key) :
    ¬LeavesNothing (s.next id handler.endpoint (.exit raised)) := by
  intro hNothing
  have hNext : s.next id handler.endpoint (.exit raised) =
      (s.release handler.endpoint).moveTo id .ended := by
    simp [Endpoints.next, hNot]
  rw [hNext, release_eq] at hNothing
  exact hNothing id handler.endpoint ((Table.get_modify_self _ _ _).trans (congrArg _ hGet)) _ hIn

/-- The condition on the exits of the loop is the least that keeps the registry. -/
theorem leavesNothing_iff (h : Registered s) {e : EndpointEvent Message}
    (hStep : Endpoints.step s e = some s') : LeavesNothing s' ↔ CleansUp s e := by
  constructor
  · intro hNothing
    apply cleansUp_of_exits
    intro id endpoint raised hExit hNot hIn
    cases e with
    | returned id' now found =>
        obtain ⟨handler, next, hGet, hNext, rfl⟩ := step_returned hStep
        obtain ⟨rfl, rfl, rfl⟩ : id' = id ∧ handler.endpoint = endpoint ∧ next = .exit raised := by
          simpa [goesOn, hGet, hNext] using hExit
        exact left_behind hGet hNot hIn hNothing
    | raised id' failure =>
        obtain ⟨handler, next, hGet, hNext, rfl⟩ := step_raised hStep
        obtain ⟨rfl, rfl, rfl⟩ : id' = id ∧ handler.endpoint = endpoint ∧ next = .exit raised := by
          simpa [goesOn, hGet, hNext] using hExit
        exact left_behind hGet hNot hIn hNothing
    | _ => cases hExit
  · exact fun hClean => (h.step hStep hClean).leavesNothing

end Endpoints

open Endpoints

/-- In every run in which no handler leaves its loop by a `break` or a cancellation
with its socket registered, whoever has ended has left nothing. The first step that
is otherwise leaves a socket behind. -/
theorem departures_left_nothing {s : Endpoints Message}
    (run : Runs.Reaches Endpoints.step CleansUp Endpoints.initial s) :
    LeavesNothing s ∧ ∀ e s', Endpoints.step s e = some s' → (LeavesNothing s' ↔ CleansUp s e) := by
  have hRegistered : Registered s :=
    run.invariant initial_registered fun e h hStep hClean => h.step hStep hClean
  exact ⟨hRegistered.leavesNothing, fun e s' hStep => leavesNothing_iff hRegistered hStep⟩

/-- A tab that answers a ping and is closed then. -/
theorem departures_left_nothing_tab : ∃ s : Endpoints Unit,
    s.handlers.get 0 = some ⟨.notifications 7, .ended⟩ ∧ LeavesNothing s := by
  obtain ⟨s, run, hEnded⟩ := Runs.exists_reaches Endpoints.step CleansUp
    (Endpoints.initial : Endpoints Unit)
    [.notificationsWebsocket 7 true, .returned 0 0 true, .returned 0 0 true,
      .raised 0 .timeoutError, .returned 0 0 true, .raised 0 .webSocketDisconnect]
    (fun s => s.handlers.get 0 = some ⟨.notifications 7, .ended⟩) (by decide +kernel)
  exact ⟨s, hEnded, (departures_left_nothing run).1⟩

/-- A tab that is silent for thirty seconds, and cannot be pinged. -/
theorem failed_ping_left_behind : ∃ s : Endpoints Unit,
    Runs.Reaches Endpoints.step (fun _ _ => True) Endpoints.initial s ∧ ¬LeavesNothing s := by
  obtain ⟨s, run, hEnded, hIn⟩ := Runs.exists_reaches Endpoints.step (fun _ _ => True)
    (Endpoints.initial : Endpoints Unit)
    [.notificationsWebsocket 7 true, .returned 0 0 true, .returned 0 0 true,
      .raised 0 .timeoutError, .raised 0 .exception]
    (fun s => s.handlers.get 0 = some ⟨.notifications 7, .ended⟩ ∧
      0 ∈ s.server.manager.bucket (.user 7)) (by decide +kernel)
  exact ⟨s, run, fun hNothing => hNothing 0 _ hEnded (.user 7) hIn⟩

end OnlineAuction.Realtime
