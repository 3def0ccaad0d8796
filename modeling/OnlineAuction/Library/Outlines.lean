import OnlineAuction.Library.Contracts
import OnlineAuction.Library.Typestate

/-! Proof outlines of sessions. In each of its states a session knows something
about its locks and the store. What its own steps establish and no step of
another session destroys, every session knows throughout every run, in which
every step keeps the invariant of the store. -/

namespace RowLocks

variable {S : Store} {τ Req : Type}

section

variable {c c' : Config S} {sid other : Nat}

/-- While the locks stay, every session holds what it held. -/
theorem Config.held_of_same (h : c'.locks = c.locks) (sid : Nat) : c'.held sid = c.held sid := by
  unfold Config.held
  rw [h]

/-- A session that gives back its rows holds none. -/
theorem Config.held_of_release (h : c'.locks = c.release sid) : c'.held sid = Held.none :=
  (held_of_same (c := ⟨c.db, c.release sid, c.sessions⟩) h sid).trans (c.held_release_self sid _ _)

/-- What one session gives back the others did not hold. -/
theorem Config.held_of_release_other (h : c'.locks = c.release sid) (hOther : other ≠ sid) :
    c'.held other = c.held other :=
  (held_of_same (c := ⟨c.db, c.release sid, c.sessions⟩) h other).trans
    (c.held_release_other hOther _ _)

/-- A grant adds one row to those of the session. -/
theorem Config.held_of_grant {key : S.Key} (h : c'.locks = c.grant sid key) :
    c'.held sid = (c.held sid).grant c.db key :=
  (held_of_same (c := ⟨c.db, c.grant sid key, c.sessions⟩) h sid).trans (c.held_grant_self sid key _)

/-- A grant to one session leaves the rows of the others alone. -/
theorem Config.held_of_grant_other {key : S.Key} (h : c'.locks = c.grant sid key)
    (hFree : c.free sid key = true) (hOther : other ≠ sid) : c'.held other = c.held other :=
  (held_of_same (c := ⟨c.db, c.grant sid key, c.sessions⟩) h other).trans
    (c.held_grant_other hOther hFree _)

end

namespace Typestate

variable (T : Typestate S τ) (start : Req → τ)

/-- A session knows `I` when it starts, after each of its own steps, and still
after a step of another session, which holds other locks and knows `I` itself. -/
structure Outline (inv : S.State → Prop) (I : τ → Held S → S.State → Prop) : Prop where
  keeps : ∀ {c c' : Config S} {sid state answer}, inv c.db → T.Told c c' sid state answer →
    I state (c.held sid) c.db → inv c'.db
  started : ∀ request d, I (start request) Held.none d
  told : ∀ {c c' : Config S} {sid state answer}, inv c.db → T.Told c c' sid state answer →
    I state (c.held sid) c.db → I (T.after state answer) (c'.held sid) c'.db
  others : ∀ {c c' : Config S} {sid other : Nat} {state state' : τ} {answer}, inv c.db →
    other ≠ sid → T.Told c c' sid state answer → I state (c.held sid) c.db →
      I state' (c.held other) c.db → I state' (c.held other) c'.db

/-- Every session in progress stays within its typestate and knows `I`. -/
structure Knows (inv : S.State → Prop) (I : τ → Held S → S.State → Prop)
    (states : Nat → Option τ) (c : Config S) : Prop where
  inv : inv c.db
  within : T.Within states c
  holds : ∀ sid p state, c.sessions sid = some p → states sid = some state →
    I state (c.held sid) c.db
  idle : ∀ sid, c.sessions sid = none → c.held sid = Held.none

variable {T start} {inv : S.State → Prop} {I : τ → Held S → S.State → Prop} {states : Nat → Option τ}
  {program : Req → Prog S Unit} {c c' : Config S}

/-- What one session is told changes nothing that another holds. -/
theorem Told.held_other {sid : Nat} {state : τ} {answer : Answer S}
    (h : T.Told c c' sid state answer) {other : Nat} (hOther : other ≠ sid) :
    c'.held other = c.held other := by
  cases h with
  | read _ _ hLocks => exact Config.held_of_same hLocks other
  | locked key hFree _ hLocks => exact Config.held_of_grant_other hLocks hFree hOther
  | refused _ _ hLocks => exact Config.held_of_same hLocks other
  | clock _ _ _ hLocks => exact Config.held_of_same hLocks other
  | updated _ _ _ _ hLocks => exact Config.held_of_same hLocks other
  | committed _ _ _ _ hLocks => exact Config.held_of_release_other hLocks hOther
  | failed _ _ hLocks => exact Config.held_of_release_other hLocks hOther

namespace Knows

theorem initial {db : S.State} (hInv : inv db) : T.Knows inv I states (.initial db) where
  inv := hInv
  within := within_initial db
  holds _ _ _ hSession := by cases hSession
  idle _ _ := by
    funext key
    simp [Config.initial, Config.held, Held.none]

/-- One action of any session. -/
theorem turn (h : T.Knows inv I states c) (hOutline : T.Outline start inv I)
    (hProgram : ∀ request, T.Follows (program request) (fun _ _ => True) (start request))
    {a : Action S Req} (moves : advance program c a = some c') :
    T.Turn states c c' a ∧ T.Knows inv I (T.track start states c a) c' := by
  obtain ⟨hTurn, hWithin⟩ := h.within.turn hProgram moves
  refine ⟨hTurn, ?_, hWithin, ?_, ?_⟩
  · cases hTurn with
    | started sid request hIdle hDb => exact hDb ▸ h.inv
    | told sid known answer p next hAnswer hSession hState _ hTold =>
        exact hOutline.keeps h.inv hTold (h.holds sid p known hSession hState)
    | closed sid hDb => exact hDb ▸ h.inv
  · intro other q state hSession hState
    cases hTurn with
    | started sid request hIdle hDb hLocks hSessions =>
        rw [Config.held_of_same hLocks, hDb]
        by_cases hOther : other = sid
        · subst hOther
          obtain rfl : start request = state := by simpa [track] using hState
          rw [h.idle other hIdle]
          exact hOutline.started request c.db
        · apply h.holds other q state
          · simpa [hSessions, Config.resume, hOther] using hSession
          · simpa [track, hOther] using hState
    | told sid known answer p next hAnswer hKnown hStates hSessions hTold =>
        have hHolds := h.holds sid p known hKnown hStates
        rw [track_of_answered hAnswer hStates] at hState
        by_cases hOther : other = sid
        · subst hOther
          obtain rfl : T.after known answer = state := by simpa using hState
          exact hOutline.told h.inv hTold hHolds
        · rw [hTold.held_other hOther]
          apply hOutline.others h.inv hOther hTold hHolds
          apply h.holds other q state
          · simpa [hSessions, Config.resume, hOther] using hSession
          · simpa [hOther] using hState
    | closed sid hDb hLocks hSessions =>
        have hOther : other ≠ sid := by
          rintro rfl
          simp [hSessions] at hSession
        rw [Config.held_of_release_other hLocks hOther, hDb]
        apply h.holds other q state
        · simpa [hSessions, hOther] using hSession
        · exact hState
  · intro other hNone
    cases hTurn with
    | started sid request hIdle hDb hLocks hSessions =>
        have hOther : other ≠ sid := by
          rintro rfl
          simp [hSessions, Config.resume] at hNone
        rw [Config.held_of_same hLocks]
        apply h.idle other
        simpa [hSessions, Config.resume, hOther] using hNone
    | told sid known answer p next hAnswer hKnown hStates hSessions hTold =>
        have hOther : other ≠ sid := by
          rintro rfl
          simp [hSessions, Config.resume] at hNone
        rw [hTold.held_other hOther]
        apply h.idle other
        simpa [hSessions, Config.resume, hOther] using hNone
    | closed sid hDb hLocks hSessions =>
        by_cases hOther : other = sid
        · subst hOther
          exact Config.held_of_release hLocks
        · rw [Config.held_of_release_other hLocks hOther]
          apply h.idle other
          simpa [hSessions, hOther] using hNone

/-- A run with its history: what every turn keeps is kept throughout. -/
theorem run {η : Type} {record : η → Config S → Action S Req → Config S → η}
    {V : η → Nat → Option τ}
    (hStates : ∀ h c a c', V (record h c a c') = T.track start (V h) c a)
    (hOutline : T.Outline start inv I)
    (hProgram : ∀ request, T.Follows (program request) (fun _ _ => True) (start request))
    {ok : Config S × η → Action S Req → Prop} {J : Config S × η → Prop}
    (hStep : ∀ {c c' h a}, T.Knows inv I (V h) c → J (c, h) → T.Turn (V h) c c' a →
      ok (c, h) a → J (c', record h c a c'))
    {s s' : Config S × η} (hStart : T.Knows inv I (V s.2) s.1) (hInit : J s)
    (run : Runs.Reaches (Runs.recording (advance program) record) ok s s') :
    T.Knows inv I (V s'.2) s'.1 ∧ J s' := by
  apply run.invariant (I := fun s => T.Knows inv I (V s.2) s.1 ∧ J s) ⟨hStart, hInit⟩
  intro s s' a hBoth hRecorded meets
  obtain ⟨c', moves, rfl⟩ := Option.map_eq_some_iff.mp hRecorded
  obtain ⟨hTurn, hKnows⟩ := hBoth.1.turn hOutline hProgram moves
  exact ⟨hStates s.2 s.1 a c' ▸ hKnows, hStep hBoth.1 hBoth.2 hTurn meets⟩

end Knows

end Typestate

end RowLocks
