import OnlineAuction.Library.Contracts

/-! Noninterference between sessions. A group of sessions that looks at the store through
a view, and that the other sessions leave no trace in, runs as if it were alone: every
run is left possible, and the same to the group, by dropping what the others do. -/

namespace RowLocks

variable {S : Store} {Req V : Type}

def purge (visible : Req → Bool) : (Nat → Option Req) → List (Action S Req) → List (Action S Req)
  | _, [] => []
  | requests, a :: rest =>
      if (serving requests a a.session).any visible then
        a :: purge visible (serving requests a) rest
      else purge visible (serving requests a) rest

def runs (program : Req → Prog S Unit) : Config S → List (Action S Req) → Option (Config S)
  | c, [] => some c
  | c, a :: rest => (advance program c a).bind fun c' => runs program c' rest

/-- A step says nothing about the request of another session. -/
theorem serving_other {requests : Nat → Option Req} {a : Action S Req} {sid : Nat}
    (h : sid ≠ a.session) : serving requests a sid = requests sid := by
  cases a with
  | start => exact Function.update_of_ne h _ _
  | _ => rfl

/-- An action leaves the other sessions where they are. -/
theorem sessions_of_advance {program : Req → Prog S Unit} {c c' : Config S} {a : Action S Req}
    (moves : advance program c a = some c') {sid : Nat} (h : sid ≠ a.session) :
    c'.sessions sid = c.sessions sid := by
  have hOther (p : Option (Prog S Unit)) : Function.update c.sessions a.session p sid = c.sessions sid :=
    Function.update_of_ne h _ _
  cases a with
  | start other request =>
      simp only [advance, Option.ite_none_right_eq_some, Option.some.injEq] at moves
      obtain ⟨_, rfl⟩ := moves
      exact hOther _
  | step other =>
      cases hs : c.sessions other with
      | none => simp [advance, hs] at moves
      | some p =>
          cases p with
          | pure => simp [advance, hs] at moves
          | fail => simp [advance, hs] at moves
          | clock => simp [advance, hs] at moves
          | read =>
              simp only [advance, hs, Option.some.injEq] at moves
              exact moves ▸ hOther _
          | lock =>
              simp only [advance, hs, Option.ite_none_right_eq_some, Option.some.injEq] at moves
              exact moves.2 ▸ hOther _
          | tryLock =>
              simp only [advance, hs] at moves
              split_ifs at moves <;> exact Option.some.inj moves ▸ hOther _
          | update =>
              simp only [advance, hs, Option.some.injEq] at moves
              exact moves ▸ hOther _
          | commit =>
              simp only [advance, hs] at moves
              split_ifs at moves <;> exact Option.some.inj moves ▸ hOther _
  | clock other time =>
      cases hs : c.sessions other with
      | none => simp [advance, hs] at moves
      | some p =>
          cases p with
          | clock =>
              simp only [advance, hs, Option.ite_none_right_eq_some, Option.some.injEq] at moves
              exact moves.2 ▸ hOther _
          | _ => simp [advance, hs] at moves
  | reject other =>
      cases hs : c.sessions other with
      | none => simp [advance, hs] at moves
      | some p =>
          cases p with
          | commit =>
              simp only [advance, hs, Option.some.injEq] at moves
              exact moves ▸ hOther _
          | _ => simp [advance, hs] at moves
  | close other =>
      simp only [advance, Option.some.injEq] at moves
      exact moves ▸ hOther _

/-- The program goes on in the same way whichever of two stores that look the same it
finds, and leaves stores that look the same. It takes no lock. -/
def SeesOnly (view : S.State → V) : Prog S Unit → Prop
  | .pure _ => True
  | .fail _ => True
  | .read _ next => ∀ d d', view d = view d' → next d = next d' ∧ SeesOnly view (next d)
  | .lock .. => False
  | .tryLock .. => False
  | .clock _ next => ∀ t, SeesOnly view (next t)
  | .update _ write next =>
      (∀ d d', view d = view d' → view (write d) = view (write d')) ∧ SeesOnly view next
  | .commit _ write next =>
      (∀ d d', view d = view d' → view (write d) = view (write d') ∧
        S.admits (write d) = S.admits (write d') ∧
        next (some (write d)) = next (some (write d')) ∧ SeesOnly view (next (some (write d)))) ∧
      SeesOnly view (next none)

/-- A guard over what is in view may stand before a program that sees only the
view. -/
theorem SeesOnly.raiseIf {view : S.State → V} {condition : Prop} [Decidable condition]
    {error : S.Error} {rest : Unit → Prog S Unit} (h : ¬condition → SeesOnly view (rest ())) :
    SeesOnly view (Prog.raiseIf condition error >>= rest) := by
  unfold Prog.raiseIf
  split_ifs with hCondition
  · trivial
  · exact h hCondition

/-- A lookup of what is in view may stand before a program that sees only the
view. -/
theorem SeesOnly.orRaise {view : S.State → V} {α : Type} {value : Option α} {error : S.Error}
    {rest : α → Prog S Unit} (h : ∀ a, value = some a → SeesOnly view (rest a)) :
    SeesOnly view (Prog.orRaise value error >>= rest) := by
  cases value with
  | none => trivial
  | some a => exact h a rfl

namespace Discipline

variable (P : Discipline S) (view : S.State → V)

/-- The visible sessions see only the view, and the others leave no trace in it. -/
structure Separates (promise : Req → P.Promise) (program : Req → Prog S Unit) (visible : Req → Bool) :
    Prop where
  ok : ∀ d held e, P.ok d held e
  safe : ∀ request d, P.inv d →
    (P.promising (promise request)).Safe (program request) Held.none d
  sees : ∀ request, visible request = true → SeesOnly view (program request)
  hidden : ∀ request, visible request = false → ∀ e held d d', P.inv d →
    (promise request).does e held d d' → view d' = view d
  observe : ∀ held t d, view (S.observe held t d) = view d
  readable : ∀ d t, S.readable d t = true

/-- The run with the others, and the run without them. -/
structure Simulates (visible : Req → Bool) (requests : Nat → Option Req) (c c₁ : Config S) : Prop where
  same : view c.db = view c₁.db
  shown : ∀ sid, (requests sid).any visible = true →
    c₁.sessions sid = c.sessions sid ∧ ∀ p, c.sessions sid = some p → SeesOnly view p
  hidden : ∀ sid, (requests sid).any visible = false → c₁.sessions sid = none

variable {P view} {promise : Req → P.Promise} {program : Req → Prog S Unit} {visible : Req → Bool}
  {requests : Nat → Option Req} {c c' c₁ c₁' : Config S} {a : Action S Req}

/-- What the others do is not seen. -/
theorem Outcome.unseen (h : P.Outcome promise requests c c' a) (hInv : P.inv c.db)
    (hSeparates : P.Separates view promise program visible)
    (hHidden : (serving requests a a.session).any visible = false) : view c'.db = view c.db := by
  have hDoes {sid : Nat} {request : Req} {e : Event S} (hHidden : (requests sid).any visible = false)
      (hRequest : requests sid = some request)
      (hDoes : (promise request).does e (c.held sid) c.db c'.db) : view c'.db = view c.db := by
    rw [hRequest] at hHidden
    exact hSeparates.hidden request hHidden e _ _ _ hInv hDoes
  cases h with
  | quiet hSame => rw [hSame]
  | observed _ hDb => rw [hDb, hSeparates.observe]
  | updated _ hRequest hWrite => exact hDoes hHidden hRequest hWrite
  | committed _ hRequest hWrite => exact hDoes hHidden hRequest hWrite

/-- One session acts, in one of the runs or in both, and the others go on as before. -/
theorem Simulates.after (h : Simulates view visible requests c c₁) {sid : Nat}
    {requests' : Nat → Option Req} (hSame : view c'.db = view c₁'.db)
    (hOthers : ∀ other, other ≠ sid → requests' other = requests other ∧
      c'.sessions other = c.sessions other ∧ c₁'.sessions other = c₁.sessions other)
    (hShown : (requests' sid).any visible = true → c₁'.sessions sid = c'.sessions sid ∧
      ∀ p, c'.sessions sid = some p → SeesOnly view p)
    (hHidden : (requests' sid).any visible = false → c₁'.sessions sid = none) :
    Simulates view visible requests' c' c₁' := by
  refine ⟨hSame, fun other hVisible => ?_, fun other hInvisible => ?_⟩
  · by_cases hOther : other = sid
    · subst hOther
      exact hShown hVisible
    · obtain ⟨hRequests, hSessions, hSessions₁⟩ := hOthers other hOther
      rw [hRequests] at hVisible
      rw [hSessions, hSessions₁]
      exact h.shown other hVisible
  · by_cases hOther : other = sid
    · subst hOther
      exact hHidden hInvisible
    · obtain ⟨hRequests, _, hSessions₁⟩ := hOthers other hOther
      rw [hSessions₁]
      exact h.hidden other (hRequests ▸ hInvisible)

/-- Where the one run has no session, the other has none. -/
theorem Simulates.idle (h : Simulates view visible requests c c₁) {sid : Nat}
    (hIdle : c.sessions sid = none) : c₁.sessions sid = none := by
  cases hVisible : (requests sid).any visible with
  | true => rw [(h.shown sid hVisible).1, hIdle]
  | false => exact h.hidden sid hVisible

/-- A hidden session acts, and the run without it stands still. -/
theorem Simulates.skip (h : Simulates view visible requests c c₁)
    (hSeparates : P.Separates view promise program visible) (hInv : P.inv c.db)
    (moves : RowLocks.advance program c a = some c')
    (hOutcome : P.Outcome promise requests c c' a)
    (hHidden : (serving requests a a.session).any visible = false) :
    Simulates view visible (serving requests a) c' c₁ := by
  apply h.after
  · rw [hOutcome.unseen hInv hSeparates hHidden, h.same]
  · exact fun other hOther => ⟨serving_other hOther, sessions_of_advance moves hOther, rfl⟩
  · exact fun hVisible => absurd (hHidden.symm.trans hVisible) Bool.false_ne_true
  · intro _
    cases a with
    | start sid request =>
        simp only [RowLocks.advance, Option.ite_none_right_eq_some] at moves
        exact h.idle (Option.isNone_iff_eq_none.mp moves.1)
    | step sid => exact h.hidden sid hHidden
    | clock sid => exact h.hidden sid hHidden
    | reject sid => exact h.hidden sid hHidden
    | close sid => exact h.hidden sid hHidden

/-- The next effect of a visible session is the same in both runs. -/
theorem Simulates.step (h : Simulates view visible requests c c₁) {sid : Nat}
    (hVisible : (requests sid).any visible = true)
    (moves : RowLocks.advance program c (.step sid) = some c') :
    ∃ c₁', RowLocks.advance program c₁ (.step sid) = some c₁' ∧ view c'.db = view c₁'.db ∧
      c₁'.sessions sid = c'.sessions sid ∧ ∀ p, c'.sessions sid = some p → SeesOnly view p := by
  obtain ⟨hEqual, hSeeing⟩ := h.shown sid hVisible
  cases hs : c.sessions sid with
  | none => simp [RowLocks.advance, hs] at moves
  | some p =>
      have hs₁ : c₁.sessions sid = some p := hEqual.trans hs
      have hSees := hSeeing p hs
      have hResumed {next next₁ : Prog S Unit} (hNext : next = next₁) (hSees : SeesOnly view next) :
          c₁.resume sid next₁ sid = c.resume sid next sid ∧
            ∀ p, c.resume sid next sid = some p → SeesOnly view p := by
        simp only [Config.resume, Function.update_self, Option.some.injEq]
        exact ⟨hNext.symm, fun p hp => hp ▸ hSees⟩
      cases p with
      | pure => simp [RowLocks.advance, hs] at moves
      | fail => simp [RowLocks.advance, hs] at moves
      | clock => simp [RowLocks.advance, hs] at moves
      | lock => exact hSees.elim
      | tryLock => exact hSees.elim
      | read note next =>
          simp only [RowLocks.advance, hs, Option.some.injEq] at moves
          subst moves
          obtain ⟨hNext, hSees⟩ := hSees c.db c₁.db h.same
          refine ⟨{ c₁ with sessions := c₁.resume sid (next c₁.db) },
            by simp only [RowLocks.advance, hs₁], h.same, hResumed hNext hSees⟩
      | update note write next =>
          simp only [RowLocks.advance, hs, Option.some.injEq] at moves
          subst moves
          obtain ⟨hWrite, hSees⟩ := hSees
          refine ⟨{ c₁ with db := write c₁.db, sessions := c₁.resume sid next },
            by simp only [RowLocks.advance, hs₁], hWrite _ _ h.same, hResumed rfl hSees⟩
      | commit note write next =>
          obtain ⟨hDone, hFailed⟩ := hSees
          obtain ⟨hWrite, hAdmits, hNext, hSees⟩ := hDone c.db c₁.db h.same
          simp only [RowLocks.advance, hs] at moves
          split_ifs at moves with hAdmitted <;> obtain rfl := Option.some.inj moves
          · rw [hAdmits] at hAdmitted
            refine ⟨{ db := write c₁.db, locks := c₁.release sid,
                      sessions := c₁.resume sid (next (some (write c₁.db))) },
              by simp only [RowLocks.advance, hs₁, hAdmitted, if_true], hWrite,
              hResumed hNext hSees⟩
          · rw [hAdmits] at hAdmitted
            refine ⟨{ c₁ with locks := c₁.release sid, sessions := c₁.resume sid (next none) },
              by simp only [RowLocks.advance, hs₁, if_neg hAdmitted], h.same,
              hResumed rfl hFailed⟩

/-- What a visible session does in the one run, it does in the other. -/
theorem Simulates.advance (h : Simulates view visible requests c c₁)
    (hSeparates : P.Separates view promise program visible)
    (hVisible : (serving requests a a.session).any visible = true)
    (moves : RowLocks.advance program c a = some c') :
    ∃ c₁', RowLocks.advance program c₁ a = some c₁' ∧ view c'.db = view c₁'.db ∧
      c₁'.sessions a.session = c'.sessions a.session ∧
      ∀ p, c'.sessions a.session = some p → SeesOnly view p := by
  cases a with
  | start sid request =>
      simp only [RowLocks.advance, Option.ite_none_right_eq_some, Option.some.injEq] at moves
      obtain ⟨hIdle, rfl⟩ := moves
      have hIdle₁ : (c₁.sessions sid).isNone := by
        rw [h.idle (Option.isNone_iff_eq_none.mp hIdle)]
        rfl
      have hRequest : visible request = true := by
        simpa only [serving, Action.session, Function.update_self, Option.any_some] using hVisible
      refine ⟨{ c₁ with sessions := c₁.resume sid (program request) },
        by simp only [RowLocks.advance, hIdle₁, if_true], h.same, ?_⟩
      simp only [Config.resume, Action.session, Function.update_self, Option.some.injEq]
      exact ⟨trivial, fun p hp => hp ▸ hSeparates.sees request hRequest⟩
  | step sid => exact h.step hVisible moves
  | clock sid time =>
      obtain ⟨hEqual, hSeeing⟩ := h.shown sid hVisible
      cases hs : c.sessions sid with
      | none => simp [RowLocks.advance, hs] at moves
      | some p =>
          cases p with
          | clock note next =>
              simp only [RowLocks.advance, hs, hSeparates.readable, if_true,
                Option.some.injEq] at moves
              subst moves
              refine ⟨{ c₁ with
                  db := S.observe (c₁.held sid) time c₁.db
                  sessions := c₁.resume sid (next time) },
                by simp only [RowLocks.advance, hEqual, hs, hSeparates.readable, if_true], ?_, ?_⟩
              · rw [hSeparates.observe, hSeparates.observe, h.same]
              · simp only [Config.resume, Action.session, Function.update_self, Option.some.injEq]
                exact ⟨trivial, fun p hp => hp ▸ hSeeing _ hs time⟩
          | _ => simp [RowLocks.advance, hs] at moves
  | reject sid =>
      obtain ⟨hEqual, hSeeing⟩ := h.shown sid hVisible
      cases hs : c.sessions sid with
      | none => simp [RowLocks.advance, hs] at moves
      | some p =>
          cases p with
          | commit note write next =>
              simp only [RowLocks.advance, hs, Option.some.injEq] at moves
              subst moves
              refine ⟨{ c₁ with locks := c₁.release sid, sessions := c₁.resume sid (next none) },
                by simp only [RowLocks.advance, hEqual, hs], h.same, ?_⟩
              simp only [Config.resume, Action.session, Function.update_self, Option.some.injEq]
              exact ⟨trivial, fun p hp => hp ▸ (hSeeing _ hs).2⟩
          | _ => simp [RowLocks.advance, hs] at moves
  | close sid =>
      simp only [RowLocks.advance, Option.some.injEq] at moves
      subst moves
      refine ⟨{ c₁ with locks := c₁.release sid, sessions := Function.update c₁.sessions sid none },
        rfl, h.same, ?_⟩
      simp [Action.session]

/-- An action in the run with the others is the same action without them, or none. -/
theorem Simulates.advance_or_skip (h : Simulates view visible requests c c₁)
    (hValid : P.Valid promise requests c)
    (hSeparates : P.Separates view promise program visible)
    (moves : RowLocks.advance program c a = some c') :
    P.Valid promise (serving requests a) c' ∧
    if (serving requests a a.session).any visible then
      ∃ c₁', RowLocks.advance program c₁ a = some c₁' ∧
        Simulates view visible (serving requests a) c' c₁'
    else Simulates view visible (serving requests a) c' c₁ := by
  obtain ⟨hValid', hOutcome⟩ :=
    hValid.advance hSeparates.safe moves fun _ _ _ => hSeparates.ok _ _ _
  refine ⟨hValid', ?_⟩
  split_ifs with hVisible
  · obtain ⟨c₁', moves₁, hSame, hSession⟩ := h.advance hSeparates hVisible moves
    refine ⟨c₁', moves₁, h.after hSame ?_ (fun _ => hSession) fun hHidden => ?_⟩
    · exact fun other hOther => ⟨serving_other hOther, sessions_of_advance moves hOther,
        sessions_of_advance moves₁ hOther⟩
    · exact absurd (hHidden.symm.trans hVisible) Bool.false_ne_true
  · exact h.skip hSeparates hValid.inv moves hOutcome (Bool.eq_false_iff.mpr hVisible)

/-- The run without the hidden sessions simulates the whole run. -/
theorem Simulates.runs {actions : List (Action S Req)}
    (h : Simulates view visible requests c c₁) (hValid : P.Valid promise requests c)
    (hSeparates : P.Separates view promise program visible)
    (run : RowLocks.runs program c actions = some c') :
    ∃ c₁', RowLocks.runs program c₁ (purge visible requests actions) = some c₁' ∧
      Simulates view visible (actions.foldl serving requests) c' c₁' := by
  induction actions generalizing c c₁ requests with
  | nil =>
      obtain rfl := Option.some.inj run
      exact ⟨c₁, rfl, h⟩
  | cons a rest ih =>
      obtain ⟨middle, moves, run⟩ := Option.bind_eq_some_iff.mp run
      obtain ⟨hValid', hNext⟩ := h.advance_or_skip hValid hSeparates moves
      unfold purge
      split_ifs at hNext ⊢ with hVisible
      · obtain ⟨middle₁, moves₁, hSimulates⟩ := hNext
        obtain ⟨c₁', run₁, hEnd⟩ := ih hSimulates hValid' run
        refine ⟨c₁', ?_, hEnd⟩
        simp only [RowLocks.runs, moves₁, Option.bind_some, run₁]
      · exact ih hNext hValid' run

/-- Every run is left possible, and the same to the visible sessions, by dropping what
the others do. -/
theorem Separates.purged (hSeparates : P.Separates view promise program visible)
    {start : S.State} (hStart : P.inv start) {actions : List (Action S Req)}
    (run : RowLocks.runs program (.initial start) actions = some c) :
    ∃ c₁, RowLocks.runs program (.initial start) (purge visible (fun _ => none) actions) = some c₁ ∧
      view c.db = view c₁.db ∧
      ∀ sid, (actions.foldl serving (fun _ => none) sid).any visible = true →
        c₁.sessions sid = c.sessions sid := by
  have hInitial : Simulates view visible (fun _ => none) (.initial start) (.initial start) :=
    ⟨rfl, fun _ h => absurd h Bool.false_ne_true, fun _ _ => rfl⟩
  obtain ⟨c₁, run₁, hEnd⟩ := hInitial.runs (.initial hStart) hSeparates run
  exact ⟨c₁, run₁, hEnd.same, fun sid hSid => (hEnd.shown sid hSid).1⟩

end Discipline

end RowLocks
