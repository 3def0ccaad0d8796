import OnlineAuction.Library.Outlines

/-! Journals of runs. Some answers to a session conclude an entry under a key;
the journal keeps the entries of every key in the order of the run. An outline
with a journal says what holds of the store together with the entries, and what
a session knows of both in each of its states. -/

namespace RowLocks

variable {S : Store} {τ κ ε Req : Type} [DecidableEq κ]

structure Journal (τ κ ε : Type) where
  states : Nat → Option τ
  entries : κ → List ε

namespace Journal

def empty : Journal τ κ ε := ⟨fun _ => none, fun _ => []⟩

def push (entries : κ → List ε) : Option (κ × ε) → κ → List ε
  | some (key, new) => Function.update entries key (entries key ++ [new])
  | none => entries

/-- An entry is added at the end of its own journal and of no other. -/
theorem push_some (entries : κ → List ε) (key : κ) (new : ε) (k : κ) :
    push entries (some (key, new)) k = if k = key then entries k ++ [new] else entries k := by
  simp only [push, Function.update_apply]
  split_ifs with hKey
  · rw [hKey]
  · rfl

variable (T : Typestate S τ) (start : Req → τ) (entry : τ → Answer S → Option (κ × ε))

def concluded (h : Journal τ κ ε) (c : Config S) (a : Action S Req) : Option (κ × ε) := do
  let (sid, answer) ← answered c a
  let state ← h.states sid
  entry state answer

def record (h : Journal τ κ ε) (c : Config S) (a : Action S Req) (_ : Config S) :
    Journal τ κ ε where
  states := T.track start h.states c a
  entries := push h.entries (h.concluded entry c a)

/-- The answer of an action is allowed to a session in its state, with the
entries there are. -/
def meets (allowed : τ → Answer S → (κ → List ε) → Bool) (s : Config S × Journal τ κ ε)
    (a : Action S Req) : Bool :=
  match answered s.1 a with
  | some (sid, answer) => (s.2.states sid).all fun state => allowed state answer s.2.entries
  | none => true

/-- What is so of the store and the entries throughout, and what a session knows
of them: when it starts, after each answer to it, and after each answer to
another session, which holds other locks. -/
structure Outline (allowed : τ → Answer S → (κ → List ε) → Bool)
    (inv : S.State → (κ → List ε) → Prop)
    (I : τ → Held S → S.State → (κ → List ε) → Prop) : Prop where
  started : ∀ request d entries, I (start request) Held.none d entries
  keeps : ∀ {c c' : Config S} {sid state answer entries}, inv c.db entries →
    T.Told c c' sid state answer → allowed state answer entries = true →
      I state (c.held sid) c.db entries → inv c'.db (push entries (entry state answer))
  told : ∀ {c c' : Config S} {sid state answer entries}, inv c.db entries →
    T.Told c c' sid state answer → allowed state answer entries = true →
      I state (c.held sid) c.db entries →
        I (T.after state answer) (c'.held sid) c'.db (push entries (entry state answer))
  others : ∀ {c c' : Config S} {sid other : Nat} {state state' : τ} {answer entries},
    inv c.db entries → other ≠ sid → T.Told c c' sid state answer →
      allowed state answer entries = true → I state (c.held sid) c.db entries →
        I state' (c.held other) c.db entries →
          I state' (c.held other) c'.db (push entries (entry state answer))

/-- Every session in progress stays within its typestate and knows `I`. -/
structure Holds (inv : S.State → (κ → List ε) → Prop)
    (I : τ → Held S → S.State → (κ → List ε) → Prop) (s : Config S × Journal τ κ ε) : Prop where
  inv : inv s.1.db s.2.entries
  within : T.Within s.2.states s.1
  holds : ∀ sid p state, s.1.sessions sid = some p → s.2.states sid = some state →
    I state (s.1.held sid) s.1.db s.2.entries
  idle : ∀ sid, s.1.sessions sid = none → s.1.held sid = Held.none

variable {T start entry} {allowed : τ → Answer S → (κ → List ε) → Bool}
  {inv : S.State → (κ → List ε) → Prop} {I : τ → Held S → S.State → (κ → List ε) → Prop}
  {program : Req → Prog S Unit} {c c' : Config S} {h : Journal τ κ ε} {a : Action S Req}

omit [DecidableEq κ] in
/-- The answer of a session that runs is entered as its state says. -/
theorem concluded_of_told {sid : Nat} {state : τ} {answer : Answer S}
    (hAnswer : answered c a = some (sid, answer)) (hState : h.states sid = some state) :
    h.concluded entry c a = entry state answer := by
  simp only [concluded, hAnswer, hState, Option.bind_eq_bind, Option.bind_some]

omit [DecidableEq κ] in
/-- A condition on the run is one on each answer, at the state of the session
that got it. -/
theorem allowed_of_meets {sid : Nat} {state : τ} {answer : Answer S}
    (hMeets : meets allowed (c, h) a = true) (hAnswer : answered c a = some (sid, answer))
    (hState : h.states sid = some state) : allowed state answer h.entries = true := by
  simpa [meets, hAnswer, hState] using hMeets

omit [DecidableEq κ] in
/-- With no session yet, every invariant of the start holds. -/
theorem Holds.initial {db : S.State} (hInv : inv db fun _ => []) :
    Holds T inv I (.initial db, (empty : Journal τ κ ε)) where
  inv := hInv
  within := Typestate.within_initial db
  holds _ _ _ hSession := by cases hSession
  idle _ _ := by
    funext key
    simp [Config.initial, Config.held, Held.none]

/-- One action of any session. -/
theorem Holds.turn (hHolds : Holds T inv I (c, h)) (hOutline : Outline T start entry allowed inv I)
    (hTurn : T.Turn h.states c c' a) (hWithin : T.Within (T.track start h.states c a) c')
    (hMeets : meets allowed (c, h) a = true) :
    Holds T inv I (c', h.record T start entry c a c') := by
  refine ⟨?_, hWithin, ?_, ?_⟩
  · cases hTurn with
    | started sid request _ hDb => exact hDb ▸ hHolds.inv
    | closed sid hDb => exact hDb ▸ hHolds.inv
    | told sid state answer p next hAnswer hSession hState _ hTold =>
        show inv c'.db (push h.entries (h.concluded entry c a))
        rw [concluded_of_told hAnswer hState]
        exact hOutline.keeps hHolds.inv hTold (allowed_of_meets hMeets hAnswer hState)
          (hHolds.holds sid p state hSession hState)
  · intro sid q state hSession hState
    by_cases hActor : sid = a.session
    · cases hTurn with
      | started other request hIdle hDb hLocks =>
          obtain rfl : sid = other := hActor
          obtain rfl : start request = state := by simpa [record, Typestate.track] using hState
          show I _ (c'.held sid) c'.db _
          rw [Config.held_of_same hLocks, hHolds.idle sid hIdle]
          exact hOutline.started request c'.db _
      | closed other _ _ hSessions =>
          obtain rfl : sid = other := hActor
          simp [hSessions] at hSession
      | told other before answer p next hAnswer hBefore hWas _ hTold =>
          obtain rfl : sid = other := hActor.trans (session_of_answered hAnswer)
          have hAfter : T.after before answer = state := by
            simpa [record, Typestate.track_of_answered hAnswer hWas] using hState
          show I state (c'.held sid) c'.db (push h.entries (h.concluded entry c a))
          rw [concluded_of_told hAnswer hWas, ← hAfter]
          exact hOutline.told hHolds.inv hTold (allowed_of_meets hMeets hAnswer hWas)
            (hHolds.holds sid p before hBefore hWas)
    · obtain ⟨hSessions, hHeld, hStates⟩ := hTurn.others hActor
      have hKnown := hHolds.holds sid q state (hSessions ▸ hSession) (hStates.symm.trans hState)
      show I state (c'.held sid) c'.db (push h.entries (h.concluded entry c a))
      rw [hHeld]
      cases hTurn with
      | started other request _ hDb => exact hDb ▸ hKnown
      | closed other hDb => exact hDb ▸ hKnown
      | told other before answer p next hAnswer hBefore hWas _ hTold =>
          have hOther : sid ≠ other := fun hSame => hActor (hSame.trans (session_of_answered hAnswer).symm)
          rw [concluded_of_told hAnswer hWas]
          exact hOutline.others hHolds.inv hOther hTold (allowed_of_meets hMeets hAnswer hWas)
            (hHolds.holds other p before hBefore hWas) hKnown
  · intro sid hNone
    by_cases hActor : sid = a.session
    · cases hTurn with
      | started other request _ _ _ hSessions =>
          obtain rfl : sid = other := hActor
          simp [hSessions, Config.resume] at hNone
      | closed other _ hLocks =>
          obtain rfl : sid = other := hActor
          exact Config.held_of_release hLocks
      | told other before answer p next hAnswer _ _ hSessions =>
          obtain rfl : sid = other := hActor.trans (session_of_answered hAnswer)
          simp [hSessions, Config.resume] at hNone
    · obtain ⟨hSessions, hHeld, _⟩ : c'.sessions sid = c.sessions sid ∧ c'.held sid = c.held sid ∧
          T.track start h.states c a sid = h.states sid := hTurn.others hActor
      exact hHeld.trans (hHolds.idle sid (hSessions.symm.trans hNone))

/-- Throughout every run whose answers are all allowed. -/
theorem Holds.run (hOutline : Outline T start entry allowed inv I)
    (hProgram : ∀ request, T.Follows (program request) (fun _ _ => True) (start request))
    {s s' : Config S × Journal τ κ ε} (hStart : Holds T inv I s)
    (run : Runs.Reaches (Runs.recording (advance program) (record T start entry))
      (fun s a => meets allowed s a = true) s s') : Holds T inv I s' := by
  apply run.invariant hStart
  intro s s' a hHolds hRecorded hMeets
  obtain ⟨c', moves, rfl⟩ := Option.map_eq_some_iff.mp hRecorded
  obtain ⟨hTurn, hWithin⟩ := hHolds.within.turn hProgram moves
  exact hHolds.turn hOutline hTurn hWithin hMeets

end Journal

end RowLocks
