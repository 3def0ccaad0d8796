import Mathlib.Order.Basic
import Mathlib.Tactic.SplitIfs
import OnlineAuction.Library.RowLocks

/-! Sessions that lock nothing, over a store that grows through given stages. A
session notes what it has last seen; its commit goes through where the store is
still as noted, and makes the session fail where it is not. -/

namespace RowLocks

variable {S : Store} {α β γ ι Req : Type}

namespace Prog

theorem bind_assoc (p : Prog S α) (f : α → Prog S β) (g : β → Prog S γ) :
    (p.bind f).bind g = p.bind fun value => (f value).bind g := by
  induction p with
  | pure => rfl
  | fail => rfl
  | read note next ih => simp only [bind, ih]
  | lock key note next ih => simp only [bind, ih]
  | tryLock key note next ih => simp only [bind, ih]
  | clock note next ih => simp only [bind, ih]
  | update note write next ih => simp only [bind, ih]
  | commit note write next ih => simp only [bind, ih]

def failed : Prog S α → Bool
  | .fail _ => true
  | _ => false

def returned : Prog S α → Bool
  | .pure _ => true
  | _ => false

end Prog

/-- Whether a call has failed, whether one has returned, and whether a commit
has found the store other than its session had noted. -/
structure Chronicle where
  raised : Bool
  returned : Bool
  disturbed : Bool
  deriving DecidableEq

namespace Chronicle

def empty : Chronicle := ⟨false, false, false⟩

/-- A commit of a session that finds the store other than noted. -/
def disturbs (seen : S.State → S.Note → Bool) (c : Config S) : Action S Req → Bool
  | .step sid => match c.sessions sid with
      | some (.commit note _ _) => !seen c.db note
      | _ => false
  | _ => false

/-- The step makes a session fail. A commit that the store rejects of its own
accord does not count. -/
def raises (c' : Config S) : Action S Req → Bool
  | .reject _ => false
  | a => (c'.sessions a.session).any Prog.failed

def record (seen : S.State → S.Note → Bool) (h : Chronicle) (c : Config S) (a : Action S Req)
    (c' : Config S) : Chronicle where
  raised := h.raised || raises c' a
  returned := h.returned || (c'.sessions a.session).any Prog.returned
  disturbed := h.disturbed || disturbs seen c a

end Chronicle

abbrev chronicled (program : Req → Prog S Unit) (seen : S.State → S.Note → Bool) :
    Config S × Chronicle → Action S Req → Option (Config S × Chronicle) :=
  Runs.recording (advance program) (Chronicle.record seen)

section Steady

variable [Preorder ι] (table : ι → S.State) (seen : S.State → S.Note → Bool) (done : ι → Prop)

/-- From a stage on, whatever later stage each effect finds, the program returns
only at a stage that is done, and each commit goes through, to a later stage,
exactly where the store is as noted. -/
def Steady : ι → Prog S Unit → Prop
  | i, .pure _ => done i
  | i, .read _ next => ∀ j, i ≤ j → Steady j (next (table j))
  | i, .commit note write next => (next none).failed = true ∧ ∀ j, i ≤ j →
      (S.admits (write (table j)) = seen (table j) note) ∧
      (seen (table j) note = true →
        ∃ k, j ≤ k ∧ write (table j) = table k ∧ Steady k (next (some (table k))))
  | _, _ => False

variable {table seen done} {i j : ι} {p : Prog S Unit}

/-- A program that is steady now stays so as the stages go on. -/
theorem Steady.mono (hDone : ∀ {i j}, i ≤ j → done i → done j) (hLater : i ≤ j)
    (h : Steady table seen done i p) : Steady table seen done j p := by
  cases p with
  | pure => exact hDone hLater h
  | read note next => exact fun k hK => h k (hLater.trans hK)
  | commit note write next => exact ⟨h.1, fun k hK => h.2 k (hLater.trans hK)⟩
  | _ => exact h

theorem Steady.not_failed (h : Steady table seen done i p) : p.failed = false := by
  cases p with
  | fail => exact absurd h id
  | _ => rfl

variable (table seen done) in
/-- The store is at the stage, and every session that has not failed is steady
from there. -/
structure At (i : ι) (c : Config S) : Prop where
  db : c.db = table i
  sessions : ∀ sid p, c.sessions sid = some p → p.failed = true ∨ Steady table seen done i p

variable {c c' : Config S}

theorem At.initial (i : ι) : At table seen done i (.initial (table i)) where
  db := rfl
  sessions _ _ hSession := by cases hSession

/-- A step on one session keeps the stage when that session fails or stays
steady. -/
theorem At.update (hDone : ∀ {i j}, i ≤ j → done i → done j) (h : At table seen done i c)
    (hLater : i ≤ j) (hDb : c'.db = table j) {sid : Nat} {session : Option (Prog S Unit)}
    (hSessions : c'.sessions = Function.update c.sessions sid session)
    (hSession : ∀ p, session = some p → p.failed = true ∨ Steady table seen done j p) :
    At table seen done j c' where
  db := hDb
  sessions := by
    intro other p hOther
    rw [hSessions] at hOther
    by_cases hSame : other = sid
    · subst hSame
      rw [Function.update_self] at hOther
      exact hSession p hOther
    · rw [Function.update_of_ne hSame] at hOther
      exact (h.sessions other p hOther).imp id fun hSteady => hSteady.mono hDone hLater

/-- A session that moves on keeps the stage when what is left of it fails or
stays steady. -/
theorem At.resume (hDone : ∀ {i j}, i ≤ j → done i → done j) (h : At table seen done i c)
    (hLater : i ≤ j) (hDb : c'.db = table j) {sid : Nat} {next : Prog S Unit}
    (hSessions : c'.sessions = c.resume sid next)
    (hNext : next.failed = true ∨ Steady table seen done j next) : At table seen done j c' :=
  h.update hDone hLater hDb hSessions fun p hp => by
    cases hp
    exact hNext

/-- A session's effect. -/
theorem At.step (hDone : ∀ {i j}, i ≤ j → done i → done j) {program : Req → Prog S Unit}
    (h : At table seen done i c) {sid : Nat} (moves : advance program c (.step sid) = some c') :
    ∃ j, i ≤ j ∧ At table seen done j c' ∧
      Chronicle.raises c' (.step sid : Action S Req) = Chronicle.disturbs seen c (.step sid : Action S Req) := by
  cases hSession : c.sessions sid with
  | none => simp [RowLocks.advance, hSession] at moves
  | some p =>
      have hSteady := h.sessions sid p hSession
      cases p with
      | pure => simp [RowLocks.advance, hSession] at moves
      | fail => simp [RowLocks.advance, hSession] at moves
      | read note next =>
          simp only [RowLocks.advance, hSession, Option.some.injEq] at moves
          subst moves
          have hNext : Steady table seen done i (next c.db) := by
            rw [h.db]
            exact hSteady.resolve_left Bool.false_ne_true i le_rfl
          refine ⟨i, le_rfl, h.resume hDone le_rfl h.db rfl (.inr hNext), ?_⟩
          simpa [Chronicle.raises, Chronicle.disturbs, Action.session, Config.resume, hSession]
            using hNext.not_failed
      | commit note write next =>
          obtain ⟨hRefused, hCommit⟩ := hSteady.resolve_left Bool.false_ne_true
          obtain ⟨hAdmits, hSeen⟩ := hCommit i le_rfl
          rw [← h.db] at hAdmits hSeen
          simp only [RowLocks.advance, hSession] at moves
          split_ifs at moves with hAdmitted
          · cases moves
            have hNoted : seen c.db note = true := hAdmits ▸ hAdmitted
            obtain ⟨j, hLater, hWritten, hNext⟩ := hSeen hNoted
            rw [← hWritten] at hNext
            refine ⟨j, hLater, h.resume hDone hLater hWritten rfl (.inr hNext), ?_⟩
            simpa [Chronicle.raises, Chronicle.disturbs, Action.session, Config.resume, hSession,
              hNoted] using hNext.not_failed
          · cases moves
            have hNoted : seen c.db note = false := by simpa [hAdmits] using hAdmitted
            refine ⟨i, le_rfl, h.resume hDone le_rfl h.db rfl (.inl hRefused), ?_⟩
            simpa [Chronicle.raises, Chronicle.disturbs, Action.session, Config.resume, hSession,
              hNoted] using hRefused
      | _ => exact absurd (hSteady.resolve_left Bool.false_ne_true) id

/-- One action: a session fails exactly where its commit finds the store other
than noted. -/
theorem At.advance (hDone : ∀ {i j}, i ≤ j → done i → done j) {program : Req → Prog S Unit}
    (hProgram : ∀ request, Steady table seen done i (program request))
    (h : At table seen done i c) {a : Action S Req} (moves : advance program c a = some c') :
    ∃ j, i ≤ j ∧ At table seen done j c' ∧
      Chronicle.raises c' a = Chronicle.disturbs seen c a := by
  cases a with
  | start sid request =>
      simp only [RowLocks.advance, Option.ite_none_right_eq_some, Option.some.injEq] at moves
      obtain ⟨_, rfl⟩ := moves
      refine ⟨i, le_rfl, h.resume hDone le_rfl h.db rfl (.inr (hProgram request)), ?_⟩
      simpa [Chronicle.raises, Chronicle.disturbs, Action.session, Config.resume]
        using (hProgram request).not_failed
  | step sid => exact h.step hDone moves
  | clock sid time =>
      cases hSession : c.sessions sid with
      | none => simp [RowLocks.advance, hSession] at moves
      | some p =>
          have hSteady := h.sessions sid p hSession
          cases p with
          | clock => exact absurd (hSteady.resolve_left Bool.false_ne_true) id
          | _ => simp [RowLocks.advance, hSession] at moves
  | reject sid =>
      cases hSession : c.sessions sid with
      | none => simp [RowLocks.advance, hSession] at moves
      | some p =>
          have hSteady := h.sessions sid p hSession
          cases p with
          | commit note write next =>
              simp only [RowLocks.advance, hSession, Option.some.injEq] at moves
              subst moves
              have hRefused := (hSteady.resolve_left Bool.false_ne_true).1
              exact ⟨i, le_rfl, h.resume hDone le_rfl h.db rfl (.inl hRefused), rfl⟩
          | _ => simp [RowLocks.advance, hSession] at moves
  | close sid =>
      simp only [RowLocks.advance, Option.some.injEq] at moves
      subst moves
      have hAt : At table seen done i { c with
          locks := c.release sid, sessions := Function.update c.sessions sid none } :=
        h.update hDone le_rfl h.db rfl fun p hp => by cases hp
      refine ⟨i, le_rfl, hAt, ?_⟩
      simp [Chronicle.raises, Chronicle.disturbs, Action.session]

/-- In every run, a call has failed exactly where a commit has found the store
other than noted, and once a call has returned the store is at a stage that is done. -/
theorem chronicle_of_run (hDone : ∀ {i j}, i ≤ j → done i → done j) {program : Req → Prog S Unit}
    (hProgram : ∀ i request, Steady table seen done i (program request))
    {ok : Config S × Chronicle → Action S Req → Prop} {s : Config S × Chronicle}
    (run : Runs.Reaches (chronicled program seen) ok (.initial (table i), .empty) s) :
    ∃ j, At table seen done j s.1 ∧ (s.2.returned = true → done j) ∧
      s.2.raised = s.2.disturbed := by
  induction run with
  | init => exact ⟨i, .initial i, fun hReturned => (by cases hReturned), rfl⟩
  | @next s s' _ a moves _ ih =>
      obtain ⟨j, hAt, hReturned, hRaised⟩ := ih
      obtain ⟨c', hMoves, rfl⟩ := Option.map_eq_some_iff.mp moves
      obtain ⟨k, hLater, hAt', hRaises⟩ := hAt.advance hDone (hProgram j) hMoves
      refine ⟨k, hAt', ?_, by simp only [Chronicle.record, hRaised, hRaises]⟩
      intro hNow
      cases Bool.or_eq_true _ _ ▸ hNow with
      | inl hBefore => exact hDone hLater (hReturned hBefore)
      | inr hNow =>
          obtain ⟨p, hSession, hPure⟩ := (Option.any_eq_true _ _).mp hNow
          cases p with
          | pure => exact (hAt'.sessions _ _ hSession).resolve_left Bool.false_ne_true
          | _ => cases hPure

/-- Every store reached is a stage. -/
theorem stage_of_reaches (hDone : ∀ {i j}, i ≤ j → done i → done j) {program : Req → Prog S Unit}
    (hProgram : ∀ i request, Steady table seen done i (program request))
    {ok : Config S → Action S Req → Prop}
    (run : Runs.Reaches (advance program) ok (.initial (table i)) c) : ∃ j, c.db = table j := by
  have hAt : ∃ j, At table seen done j c := by
    induction run with
    | init => exact ⟨i, .initial i⟩
    | next _ a moves _ ih =>
        obtain ⟨j, hAt⟩ := ih
        obtain ⟨k, _, hAt', _⟩ := hAt.advance hDone (hProgram j) moves
        exact ⟨k, hAt'⟩
  obtain ⟨j, hAt⟩ := hAt
  exact ⟨j, hAt.db⟩

end Steady

end RowLocks
