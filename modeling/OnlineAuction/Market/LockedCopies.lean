import OnlineAuction.Market.Served

/-! The copies of lots that sessions go by. A row that a session has read under
its lock is the stored row until the session commits or rolls back. -/

namespace OnlineAuction

open RowLocks

variable {percent : CommissionPercent} {A : Assumptions} {τ : Type} {T : Typestate market τ}
  {start : Request → τ} {copy : τ → LotId → Option Auction}

/-- The copies that a typestate keeps come from row locks, and none outlasts the
transaction or is overwritten within it. -/
structure KeepsCopies (T : Typestate market τ) (start : Request → τ)
    (copy : τ → LotId → Option Auction) : Prop where
  start : ∀ request id, copy (start request) id = none
  read : ∀ state note d id row, copy (T.after state (.read note d)) id = some row →
    copy state id = some row
  locked : ∀ state key d id row, copy (T.after state (.locked key d)) id = some row →
    copy state id = some row ∨ key = .lot id ∧ d.auctions.get id = some row
  refused : ∀ state key id row, copy (T.after state (.refused key)) id = some row →
    copy state id = some row
  clock : ∀ state t id row, copy (T.after state (.clock t)) id = some row →
    copy state id = some row
  update : ∀ state note write id row, T.update state note write →
    copy (T.after state (.updated note)) id ≠ some row
  committed : ∀ state note d id, copy (T.after state (.committed note d)) id = none
  failed : ∀ state note id, copy (T.after state (.failed note)) id = none

/-- The session in progress has the lot locked, and its copy is the stored row. -/
def Copied (copy : τ → LotId → Option Auction) (states : Nat → Option τ) (c : Config market) :
    Prop :=
  ∀ sid p state id row, c.sessions sid = some p → states sid = some state →
    copy state id = some row → c.held sid (.lot id) = true ∧ c.db.auctions.get id = some row

theorem copied_initial (db : Db) (states : Nat → Option τ) :
    Copied copy states (.initial db) := by
  intro sid p state id row hSession
  cases hSession

/-- One action of any session. -/
theorem Copied.advance {states : Nat → Option τ} {c c' : Config market}
    {a : Action market Request} (h : Copied copy states c) (hKeeps : KeepsCopies T start copy)
    (hWell : WellFormed A c.db) (hTurn : T.Turn states c c' a)
    {requests : Nat → Option Request}
    (hOutcome : (rules percent A).Outcome (promise percent A) requests c c' a) :
    Copied copy (T.track start states c a) c' := by
  intro sid p state id row hSession hState hCopy
  by_cases hActor : sid = a.session
  · cases hTurn with
    | started other request =>
        obtain rfl : sid = other := hActor
        rw [Typestate.track, Function.update_self, Option.some.injEq] at hState
        rw [← hState, hKeeps.start] at hCopy
        cases hCopy
    | closed other _ _ hSessions =>
        obtain rfl : sid = other := hActor
        rw [hSessions, Function.update_self] at hSession
        cases hSession
    | told other before answer q next hAnswer hBefore hWas _ hTold =>
        obtain rfl : sid = other := hActor.trans (session_of_answered hAnswer)
        rw [Typestate.track_told _ _ hAnswer, Function.update_self, hWas, Option.map_some,
          Option.some.injEq] at hState
        subst hState
        have hKept := h sid q before id row hBefore hWas
        cases hTold with
        | read note hDb hLocks =>
            rw [Config.held_congr hLocks, hDb]
            exact hKept (hKeeps.read _ _ _ _ _ hCopy)
        | refused key hDb hLocks =>
            rw [Config.held_congr hLocks, hDb]
            exact hKept (hKeeps.refused _ _ _ _ hCopy)
        | clock time _ hDb hLocks =>
            rw [Config.held_congr hLocks, hDb]
            exact hKept (hKeeps.clock _ _ _ _ hCopy)
        | updated note write hMay => exact absurd hCopy (hKeeps.update _ _ _ _ _ hMay)
        | committed note write hMay hDb hLocks =>
            rw [hKeeps.committed] at hCopy
            cases hCopy
        | failed note hDb hLocks =>
            rw [hKeeps.failed] at hCopy
            cases hCopy
        | locked key hFree hDb hLocks =>
            have hGranted : c'.held sid = (c.held sid).grant c.db key :=
              (Config.held_congr (c := Config.mk c.db (c.grant sid key) c.sessions) hLocks
                sid).trans (c.held_grant_self sid key _)
            rw [hGranted, hDb]
            rcases hKeeps.locked _ _ _ _ _ hCopy with hOld | ⟨hKey, hRow⟩
            · exact ⟨Held.grant_sub _ _ _ (hKept hOld).1, (hKept hOld).2⟩
            · subst hKey
              refine ⟨Held.grant_self _ ?_, hRow⟩
              show (c.db.auctions.get id).isSome = true
              rw [hRow]
              rfl
  · obtain ⟨hSessions, hHeld, hStates⟩ := hTurn.others hActor
    rw [hSessions] at hSession
    rw [hStates] at hState
    obtain ⟨hLocked, hRow⟩ := h sid p state id row hSession hState hCopy
    rw [hHeld]
    have hKept : Kept A (c.held sid) c.db c'.db :=
      @Kept.of_rely percent A .register _ _ _ (hOutcome.rely hWell hActor)
    exact ⟨hLocked, hKept.lot id row hLocked hRow⟩

/-- What holds between any two actions of sessions that are followed through a
typestate. -/
structure Tracked (percent : CommissionPercent) (T : Typestate market τ) (request : τ → Request)
    (copy : τ → LotId → Option Auction) (s : Config market × (Nat → Option τ)) : Prop where
  valid : (rules percent .none).Valid (promise percent .none) (fun sid => (s.2 sid).map request) s.1
  within : T.Within s.2 s.1
  copies : Copied copy s.2 s.1

theorem tracked_initial (percent : CommissionPercent) (T : Typestate market τ)
    (request : τ → Request) (copy : τ → LotId → Option Auction) (categories : List Nat) :
    Tracked percent T request copy (.initial (Db.initial categories), fun _ => none) where
  valid := .initial (.of_initial .none categories)
  within := Typestate.within_initial _
  copies := copied_initial _ _

/-- One action of any session. -/
theorem Tracked.advance {request : τ → Request} {s : Config market × (Nat → Option τ)}
    {c' : Config market} {a : Action market Request} (h : Tracked percent T request copy s)
    (hKeeps : KeepsCopies T start copy)
    (hProgram : ∀ r, T.Follows (handle percent r) (fun _ _ => True) (start r))
    (hStart : ∀ r, request (start r) = r)
    (hAfter : ∀ state answer, request (T.after state answer) = request state)
    (hMoves : RowLocks.advance (handle percent) s.1 a = some c') :
    Tracked percent T request copy (c', T.track start s.2 s.1 a) ∧
      (rules percent .none).Outcome (promise percent .none) (fun sid => (s.2 sid).map request)
        s.1 c' a := by
  obtain ⟨hValid, hOutcome⟩ := h.valid.advance (fun request _ _ => handle_safe request) hMoves
    fun sid e _ => Assumptions.none_ok _ _ e
  obtain ⟨hTurn, hWithin⟩ := h.within.turn hProgram hMoves
  refine ⟨⟨?_, hWithin, h.copies.advance hKeeps h.valid.inv hTurn hOutcome⟩, hOutcome⟩
  rw [← Typestate.track_serving hStart hAfter s.2 s.1 a] at hValid
  exact hValid

end OnlineAuction
