import OnlineAuction.Realtime.Endpoints

/-! The slots of `_auction_ws_per_ip`. One is lost whenever `accept` raises, since
the slot has been taken and the `try` not been entered. -/

namespace OnlineAuction.Realtime

variable {Message : Type}

def Phase.taken (phase : Phase) : Bool := phase = .accepting || phase.inLoop

/-- The handler has taken a slot of this address and has not ended. -/
def Handler.holdsSlot (ip : String) (h : Handler) : Bool :=
  match h.endpoint with
  | .auction address _ => address = ip && h.phase.taken
  | .notifications _ => false

def Handler.slots (ip : String) (h : Handler) : ℤ := if h.holdsSlot ip then 1 else 0

/-- The handler counts for the address, or not, as it did at its last await. -/
def Handler.SameSlot (h : Handler) (phase : Phase) : Prop :=
  ∀ ip, Handler.holdsSlot ip ⟨h.endpoint, phase⟩ = h.holdsSlot ip

namespace Endpoints

def holders (s : Endpoints Message) (ip : String) : ℤ := s.handlers.total (Handler.slots ip)

structure SlotsExact (s : Endpoints Message) (ip : String) : Prop where
  counted : (s.held ip : ℤ) = s.holders ip
  within : s.held ip ≤ maxAuctionWsPerIp
  absent : s.holders ip = 0 → s.auctionWsPerIp ip = none

/-- The address whose handshake fails in this step, after its slot was taken. -/
def lostSlot (s : Endpoints Message) : EndpointEvent Message → Option String
  | .raised id _ => match s.handlers.get id with
      | some ⟨.auction ip _, .accepting⟩ => some ip
      | _ => none
  | _ => none

/-- How many handshakes of each address have failed so. -/
def countLost (lost : String → Nat) (s : Endpoints Message) (e : EndpointEvent Message) :
    String → Nat := fun ip => lost ip + if s.lostSlot e = some ip then 1 else 0

end Endpoints

theorem Handler.SameSlot.of_taken {h : Handler} {phase : Phase}
    (hTaken : phase.taken = h.phase.taken) : h.SameSlot phase := by
  intro ip
  simp only [Handler.holdsSlot, hTaken]

/-- Handlers of notifications take no slot. -/
theorem Handler.SameSlot.of_notifications {h : Handler} {userId : UserId}
    (hEndpoint : h.endpoint = .notifications userId) (phase : Phase) : h.SameSlot phase := by
  intro ip
  simp only [Handler.holdsSlot, hEndpoint]

/-- A handler in its loop has taken its slot. -/
theorem Phase.taken_of_inLoop {phase : Phase} (h : phase.inLoop = true) : phase.taken = true := by
  simp [Phase.taken, h]

namespace Endpoints

/-- Every slot is held by a handler in progress or has been lost. -/
structure SlotsCounted (s : Endpoints Message) (lost : String → Nat) : Prop where
  counted : ∀ ip, (s.held ip : ℤ) = s.holders ip + lost ip
  within : ∀ ip, s.held ip ≤ maxAuctionWsPerIp
  absent : ∀ ip, s.held ip = 0 → s.auctionWsPerIp ip = none

theorem initial_counted : SlotsCounted (initial : Endpoints Message) fun _ => 0 where
  counted _ := rfl
  within _ := Nat.zero_le _
  absent _ _ := rfl

variable {s s' : Endpoints Message} {lost : String → Nat}

theorem slots_nonneg (ip : String) (h : Handler) : 0 ≤ h.slots ip := by
  unfold Handler.slots
  split_ifs <;> decide

/-- A handler at its next await. -/
theorem holders_moveTo {id : Nat} {h : Handler} (hGet : s.handlers.get id = some h) (phase : Phase)
    (ip : String) : (s.moveTo id phase).holders ip =
      s.holders ip + (Handler.slots ip ⟨h.endpoint, phase⟩ - h.slots ip) :=
  Table.total_modify hGet _ _

/-- The end of a handler that has a slot. -/
theorem holders_ended {id : Nat} {ip : String} {auctionId : LotId} {phase : Phase}
    (hGet : s.handlers.get id = some ⟨.auction ip auctionId, phase⟩) (hTaken : phase.taken = true)
    (address : String) : (s.moveTo id .ended).holders address =
      if address = ip then s.holders ip - 1 else s.holders address := by
  rw [holders_moveTo hGet]
  by_cases hSame : address = ip
  · subst hSame
    have hEnded : Handler.slots address ⟨.auction address auctionId, .ended⟩ = 0 := by
      simp [Handler.slots, Handler.holdsSlot, Phase.taken, Phase.inLoop]
    have hBefore : Handler.slots address ⟨.auction address auctionId, phase⟩ = 1 := by
      simp [Handler.slots, Handler.holdsSlot, hTaken]
    rw [hEnded, hBefore, if_pos rfl, zero_sub, sub_eq_add_neg]
  · simp [Handler.slots, Handler.holdsSlot, hSame, Ne.symm hSame]

/-- An address with a handler in its loop holds a slot. -/
theorem holders_pos {id : Nat} {ip : String} {auctionId : LotId} {phase : Phase}
    (hGet : s.handlers.get id = some ⟨.auction ip auctionId, phase⟩) (hTaken : phase.taken = true) :
    1 ≤ s.holders ip := by
  have hOne : Handler.slots ip ⟨.auction ip auctionId, phase⟩ = 1 := by
    simp [Handler.slots, Handler.holdsSlot, hTaken]
  exact hOne ▸ Table.le_total hGet (slots_nonneg ip)

/-- A step that changes neither the slots nor their holders keeps the count. -/
theorem SlotsCounted.of_same (h : SlotsCounted s lost)
    (hSlots : s'.auctionWsPerIp = s.auctionWsPerIp) (hHolders : ∀ ip, s'.holders ip = s.holders ip) :
    SlotsCounted s' lost := by
  have hHeld (ip : String) : s'.held ip = s.held ip := by simp only [held, hSlots]
  refine ⟨fun ip => ?_, fun ip => ?_, fun ip hZero => ?_⟩
  · rw [hHeld, hHolders, h.counted]
  · rw [hHeld]
    exact h.within ip
  · rw [hSlots]
    exact h.absent ip (hHeld ip ▸ hZero)

/-- A handler that has its slot at its next await exactly if it had it before. -/
theorem SlotsCounted.moveTo (h : SlotsCounted s lost) {id : Nat} {handler : Handler}
    (hGet : s.handlers.get id = some handler) {phase : Phase} (hSame : handler.SameSlot phase) :
    SlotsCounted (s.moveTo id phase) lost := by
  have hHolders (ip : String) : (s.moveTo id phase).holders ip = s.holders ip := by
    rw [holders_moveTo hGet, Handler.slots, Handler.slots, hSame ip, sub_self, add_zero]
  exact h.of_same rfl hHolders

theorem getD_of_pos (n : Nat) : (if 0 < n then some n else none).getD 0 = n := by
  cases n with
  | zero => rfl
  | succ n => simp

/-- What the `finally` clause leaves of the count. -/
theorem held_release (s : Endpoints Message) (ip : String) (auctionId : LotId) (address : String) :
    (s.release (.auction ip auctionId)).held address =
      if address = ip then s.held ip - 1 else s.held address := by
  by_cases hSame : address = ip
  · subst hSame
    rw [if_pos rfl]
    have hLeft : (s.release (.auction address auctionId)).auctionWsPerIp address =
        if 0 < s.held address - 1 then some (s.held address - 1) else none :=
      Function.update_self ..
    rw [held, hLeft]
    exact getD_of_pos _
  · simp [release, held, hSame]

/-- The key goes with the last slot. -/
theorem absent_release (h : ∀ ip, s.held ip = 0 → s.auctionWsPerIp ip = none) (ip : String)
    (auctionId : LotId) {address : String}
    (hZero : (s.release (.auction ip auctionId)).held address = 0) :
    (s.release (.auction ip auctionId)).auctionWsPerIp address = none := by
  rw [held_release] at hZero
  by_cases hSame : address = ip
  · subst hSame
    rw [if_pos rfl] at hZero
    simp [release, hZero]
  · rw [if_neg hSame] at hZero
    simp [release, hSame, h address hZero]

/-- The `finally` clause gives back the slot that the handler has. -/
theorem SlotsCounted.release (h : SlotsCounted s lost) {id : Nat} {handler : Handler}
    (hGet : s.handlers.get id = some handler) (hTaken : handler.phase.taken = true) :
    SlotsCounted ((s.release handler.endpoint).moveTo id .ended) lost := by
  obtain ⟨endpoint, phase⟩ := handler
  cases endpoint with
  | notifications userId => exact h.moveTo hGet (.of_notifications rfl _)
  | auction ip auctionId =>
      have hOne := holders_pos hGet hTaken
      have hHeld := h.counted ip
      have hRelease : (s.release (.auction ip auctionId)).handlers.get id = _ := hGet
      refine ⟨fun address => ?_, fun address => ?_, fun address hZero =>
        absent_release h.absent ip auctionId hZero⟩
      · rw [holders_ended hRelease hTaken]
        show (((s.release (.auction ip auctionId)).held address : ℕ) : ℤ) = _
        rw [held_release]
        by_cases hSame : address = ip
        · subst hSame
          simp only [if_true]
          show _ = s.holders address - 1 + _
          omega
        · simp only [hSame, if_false]
          exact h.counted address
      · show (s.release (.auction ip auctionId)).held address ≤ _
        rw [held_release]
        split_ifs
        · exact (Nat.sub_le _ _).trans (h.within ip)
        · exact h.within address

/-- A slot is taken below the cap only. -/
theorem SlotsCounted.take (h : SlotsCounted s lost) (ip : String) (auctionId : LotId)
    (hFree : s.held ip < maxAuctionWsPerIp) :
    SlotsCounted (Endpoints.start { s with
      auctionWsPerIp := Function.update s.auctionWsPerIp ip (some (s.held ip + 1)) }
        (.auction ip auctionId) .accepting) lost := by
  have hHeld (address : String) : Endpoints.held { s with
      auctionWsPerIp := Function.update s.auctionWsPerIp ip (some (s.held ip + 1)) } address =
      if address = ip then s.held ip + 1 else s.held address := by
    by_cases hSame : address = ip
    · subst hSame
      simp [held]
    · simp [held, hSame]
  have hHolders (address : String) : (s.start (.auction ip auctionId) .accepting).holders address =
      s.holders address + if address = ip then 1 else 0 := by
    refine (Table.total_add _ _ _).trans (congrArg (s.holders address + ·) ?_)
    simp [Handler.slots, Handler.holdsSlot, Phase.taken, eq_comm]
  refine ⟨fun address => ?_, fun address => ?_, fun address hZero => ?_⟩
  · refine (congrArg Nat.cast (hHeld address)).trans ?_
    show _ = (s.start (.auction ip auctionId) .accepting).holders address + _
    rw [hHolders]
    by_cases hSame : address = ip
    · subst hSame
      simp only [if_true]
      have := h.counted address
      push_cast
      omega
    · simp only [hSame, if_false, add_zero]
      exact h.counted address
  · refine (hHeld address).trans_le ?_
    split_ifs
    · exact hFree
    · exact h.within address
  · have hZero := (hHeld address).symm.trans hZero
    split_ifs at hZero with hSame
    exact (Function.update_of_ne hSame _ _).trans (h.absent address hZero)

/-- A handler that takes none. -/
theorem SlotsCounted.start (h : SlotsCounted s lost) {endpoint : Endpoint} {phase : Phase}
    (hNone : ∀ ip, Handler.holdsSlot ip ⟨endpoint, phase⟩ = false) :
    SlotsCounted (s.start endpoint phase) lost := by
  have hHolders (ip : String) : (s.start endpoint phase).holders ip = s.holders ip := by
    refine (Table.total_add _ _ _).trans ?_
    rw [Handler.slots, hNone, if_neg Bool.false_ne_true, add_zero]
    rfl
  exact h.of_same rfl hHolders

/-- A handshake that fails. -/
theorem SlotsCounted.lose (h : SlotsCounted s lost) {id : Nat} {handler : Handler}
    (hGet : s.handlers.get id = some handler) (hPhase : handler.phase = .accepting)
    (failure : Failure) :
    SlotsCounted (s.moveTo id .ended) (countLost lost s (.raised id failure)) := by
  obtain ⟨endpoint, phase⟩ := handler
  obtain rfl : phase = .accepting := hPhase
  cases endpoint with
  | notifications userId =>
      have hLost : countLost lost s (.raised id failure) = lost := by
        funext ip
        simp [countLost, lostSlot, hGet]
      rw [hLost]
      exact h.moveTo hGet (.of_notifications rfl _)
  | auction ip auctionId =>
      refine ⟨fun address => ?_, h.within, h.absent⟩
      rw [holders_ended hGet rfl]
      refine (h.counted address).trans ?_
      by_cases hSame : address = ip
      · subst hSame
        simp [countLost, lostSlot, hGet]
      · simp [countLost, lostSlot, hGet, hSame, Ne.symm hSame]

/-- Any other move of a handler. -/
theorem SlotsCounted.next (h : SlotsCounted s lost) {id : Nat} {handler : Handler}
    (hGet : s.handlers.get id = some handler) {next : Next} (hMoves : handler.Moves next)
    (hKept : handler.phase = .accepting → next ≠ .leave) :
    SlotsCounted (s.next id handler.endpoint next) lost := by
  cases hMoves with
  | authorized userId hEndpoint => exact h.moveTo hGet (.of_notifications hEndpoint _)
  | loops hLoop phase hNext =>
      apply h.moveTo hGet (.of_taken _)
      rw [Phase.taken_of_inLoop hLoop, Phase.taken_of_inLoop hNext]
  | accepted hPhase =>
      have hConnected : SlotsCounted
          { s with server := s.server.connect id handler.endpoint.key } lost :=
        h.of_same rfl fun _ => rfl
      refine hConnected.moveTo hGet (.of_taken ?_)
      rw [hPhase]
      rfl
  | denied hPhase =>
      apply h.moveTo hGet (.of_taken _)
      rcases hPhase with hPhase | hPhase <;> rw [hPhase] <;> rfl
  | failed hPhase => exact absurd rfl (hKept hPhase)
  | exits hLoop raised =>
      have hTaken := Phase.taken_of_inLoop hLoop
      simp only [Endpoints.next]
      split_ifs
      · have hDisconnected : SlotsCounted
            { s with server := s.server.disconnect id handler.endpoint.key } lost :=
          h.of_same rfl fun _ => rfl
        exact hDisconnected.release hGet hTaken
      · exact h.release hGet hTaken

/-- Every step keeps the count, slots lost included. -/
theorem SlotsCounted.step (h : SlotsCounted s lost) {e : EndpointEvent Message}
    (hStep : Endpoints.step s e = some s') : SlotsCounted s' (countLost lost s e) := by
  have hKept (hNone : s.lostSlot e = none) : countLost lost s e = lost := by
    funext ip
    simp [countLost, hNone]
  cases e with
  | websocketEndpoint client auctionId =>
      rw [hKept rfl]
      simp only [Endpoints.step] at hStep
      split_ifs at hStep with hFull
      · obtain rfl := Option.some.inj hStep
        exact h.start fun ip => by simp [Handler.holdsSlot, Phase.taken, Phase.inLoop]
      · obtain rfl := Option.some.inj hStep
        exact h.take _ auctionId (not_le.mp hFull)
  | notificationsWebsocket userId tokenMatches =>
      rw [hKept rfl]
      obtain rfl := Option.some.inj hStep
      exact h.start fun ip => rfl
  | returned id now found =>
      rw [hKept rfl]
      obtain ⟨handler, next, hGet, hNext, rfl⟩ := step_returned hStep
      apply h.next hGet (handler.returned_moves hNext)
      rintro hPhase rfl
      simp [Handler.returned, hPhase] at hNext
  | raised id failure =>
      obtain ⟨handler, next, hGet, hNext, rfl⟩ := step_raised hStep
      by_cases hPhase : handler.phase = .accepting
      · obtain rfl : next = .leave := by
          simpa [Handler.raised, hPhase] using hNext.symm
        exact h.lose hGet hPhase failure
      · rw [hKept _]
        · exact h.next hGet (handler.raised_moves hNext) fun h => absurd h hPhase
        · obtain ⟨endpoint, phase⟩ := handler
          simp only [lostSlot, hGet]
          split
          next hAccepting =>
            cases hAccepting
            exact absurd rfl hPhase
          next => rfl
  | other e =>
      rw [hKept rfl]
      obtain ⟨_, server, _, rfl⟩ := step_other hStep
      exact h.of_same rfl fun _ => rfl

/-- The handlers with the number of handshakes that have failed at each address. -/
abbrev Counting (Message : Type) := Endpoints Message × (String → Nat)

def counting : Counting Message → EndpointEvent Message → Option (Counting Message) :=
  Runs.recording Endpoints.step fun lost s e _ => countLost lost s e

end Endpoints

open Endpoints

/-- In every run, the slots of an address are exactly those of its handlers in
progress unless a handshake of the address has failed once its slot was taken. -/
theorem slots_exact_iff {s : Endpoints Message} {lost : String → Nat}
    (run : Runs.Reaches counting (fun _ _ => True) (Endpoints.initial, fun _ => 0) (s, lost))
    (ip : String) : SlotsExact s ip ↔ lost ip = 0 := by
  have hCounted : SlotsCounted s lost := by
    apply run.invariant (I := fun s : Counting Message => SlotsCounted s.1 s.2) initial_counted
    intro s s' e h hStep _
    obtain ⟨s'', hMoves, rfl⟩ := Option.map_eq_some_iff.mp hStep
    exact h.step hMoves
  constructor
  · intro hExact
    have hSum := hCounted.counted ip
    rw [hExact.counted] at hSum
    omega
  · intro hNone
    have hSum := hCounted.counted ip
    rw [hNone, Nat.cast_zero, add_zero] at hSum
    refine ⟨hSum, hCounted.within ip, fun hEnded => hCounted.absent ip ?_⟩
    rw [hEnded] at hSum
    exact_mod_cast hSum

/-- A viewer leaves after a message; the handshake of another is cancelled. -/
theorem slots_exact_viewers : ∃ s : Endpoints Unit,
    s.holders "2.2.2.2" = 0 ∧ SlotsExact s "2.2.2.2" := by
  obtain ⟨⟨s, lost⟩, run, hHolders, hLost⟩ := Runs.exists_reaches counting (fun _ _ => True)
    ((Endpoints.initial : Endpoints Unit), fun _ => 0)
    [.websocketEndpoint (some "2.2.2.2") 1, .returned 0 0 true, .returned 0 0 true,
      .returned 0 0 true, .websocketEndpoint (some "3.3.3.3") 1, .raised 1 .cancelledError,
      .returned 0 0 true, .returned 0 0 true, .raised 0 .webSocketDisconnect]
    (fun s => s.1.holders "2.2.2.2" = 0 ∧ s.2 "2.2.2.2" = 0) (by decide +kernel)
  exact ⟨s, hHolders, (slots_exact_iff run "2.2.2.2").mpr hLost⟩

/-- The client goes away during the handshake, and its slot stays taken. -/
theorem accept_raises_slot_lost : ∃ s : Endpoints Unit, ∃ lost : String → Nat,
    Runs.Reaches counting (fun _ _ => True) (Endpoints.initial, fun _ => 0) (s, lost) ∧
      s.holders "2.2.2.2" = 0 ∧ s.held "2.2.2.2" = 1 ∧ ¬SlotsExact s "2.2.2.2" := by
  obtain ⟨⟨s, lost⟩, run, hHolders, hHeld⟩ := Runs.exists_reaches counting (fun _ _ => True)
    ((Endpoints.initial : Endpoints Unit), fun _ => 0)
    [.websocketEndpoint (some "2.2.2.2") 1, .raised 0 .exception]
    (fun s => s.1.holders "2.2.2.2" = 0 ∧ s.1.held "2.2.2.2" = 1) (by decide +kernel)
  refine ⟨s, lost, run, hHolders, hHeld, fun hExact => ?_⟩
  have hCounted := hExact.counted
  rw [hHolders, hHeld] at hCounted
  cases hCounted

end OnlineAuction.Realtime
