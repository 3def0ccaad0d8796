import OnlineAuction.Library.Contracts

/-! Sessions that run alone. Where no other session holds a lock or takes a step, what
a program does is a function of the store, and the run in which it does so exists. -/

namespace RowLocks

variable {S : Store} {α β Req : Type}

/-- The value, the locks and the store that a program ends with when it runs alone and
the clock shows one time throughout; nothing when it fails or the clock cannot show that
time. -/
def Prog.alone (time : S.Time) : Prog S α → Held S → S.State → Option (α × Held S × S.State)
  | .pure value, held, d => some (value, held, d)
  | .fail _, _, _ => none
  | .read _ next, held, d => (next d).alone time held d
  | .lock key _ next, held, d => (next d).alone time (held.grant d key) d
  | .tryLock key _ next, held, d => (next (some d)).alone time (held.grant d key) d
  | .clock _ next, held, d =>
      if S.readable d time then (next time).alone time held (S.observe held time d) else none
  | .update _ write next, held, d => next.alone time held (write d)
  | .commit _ write next, _, d =>
      if S.admits (write d) then (next (some (write d))).alone time Held.none (write d)
      else (next none).alone time Held.none d

/-- Running two programs in a row alone is running the second on what the first
returned, with the locks and the state it left. -/
theorem Prog.alone_bind (time : S.Time) (p : Prog S α) (f : α → Prog S β) (held : Held S)
    (d : S.State) : (p >>= f).alone time held d =
      (p.alone time held d).bind fun (value, held', d') => (f value).alone time held' d' := by
  show (p.bind f).alone time held d = _
  induction p generalizing held d with
  | pure => rfl
  | fail => rfl
  | read note next ih => exact ih d held d
  | lock key note next ih => exact ih d _ d
  | tryLock key note next ih => exact ih (some d) _ d
  | clock note next ih =>
      simp only [bind, alone]
      split_ifs
      · exact ih time held _
      · rfl
  | update note write next ih => exact ih held (write d)
  | commit note write next ih =>
      simp only [bind, alone]
      split_ifs
      · exact ih (some (write d)) Held.none (write d)
      · exact ih none Held.none d

/-- A row is free for a session when nobody holds it or the session itself
does. -/
theorem Config.free_iff {c : Config S} {sid : Nat} {key : S.Key} :
    c.free sid key = true ↔ c.locks key = none ∨ c.locks key = some sid := by
  simp [Config.free]

/-- Taking another row keeps a row free for the session that takes it. -/
theorem Config.free_grant {c : Config S} {sid : Nat} {key granted : S.Key}
    (h : c.free sid key = true) (db : S.State) (sessions : Nat → Option (Prog S Unit)) :
    (Config.mk db (c.grant sid granted) sessions).free sid key = true := by
  rw [Config.free_iff] at h ⊢
  simp only [Config.grant]
  split_ifs
  · exact .inr rfl
  · exact h

/-- Giving back its own rows keeps a row free for the session. -/
theorem Config.free_release {c : Config S} {sid : Nat} {key : S.Key} (h : c.free sid key = true)
    (db : S.State) (sessions : Nat → Option (Prog S Unit)) :
    (Config.mk db (c.release sid) sessions).free sid key = true := by
  rw [Config.free_iff] at h ⊢
  simp only [Config.release]
  split_ifs
  · exact .inl rfl
  · exact h

section Runs

variable {program : Req → Prog S Unit} {time : S.Time} {sid : Nat} {c : Config S} {d' : S.State}

/-- Runs that go on from a configuration, whatever happens in them. -/
abbrev Continues (program : Req → Prog S Unit) : Config S → Config S → Prop :=
  Runs.Reaches (advance program) fun _ _ => True

/-- The run goes on to the end of the session's program, which leaves this store. -/
def RunsToEnd (program : Req → Prog S Unit) (sid : Nat) (c : Config S) (d' : S.State) : Prop :=
  ∃ c', Continues program c c' ∧ c'.db = d' ∧ c'.sessions = c.resume sid (.pure ()) ∧
    ∀ key, c'.free sid key = true

/-- A step that only moves the session on to `next` may be put before a run of
`next` to its end. -/
theorem RunsToEnd.next {c₁ : Config S} {next : Prog S Unit} (h : RunsToEnd program sid c₁ d')
    (a : Action S Req) (hMoves : advance program c a = some c₁)
    (hSessions : c₁.sessions = c.resume sid next) : RunsToEnd program sid c d' := by
  obtain ⟨c', run, hDb, hEnd, hFree⟩ := h
  refine ⟨c', (Runs.Reaches.init.next a hMoves trivial).trans run, hDb, ?_, hFree⟩
  rw [hEnd, Config.resume, hSessions, Config.resume, Function.update_idem, Config.resume]

/-- A session that finds every row free runs to the end of its program. -/
theorem ends_alone {p : Prog S Unit} {held' : Held S} (hSession : c.sessions sid = some p)
    (hFree : ∀ key, c.free sid key = true)
    (hEnds : p.alone time (c.held sid) c.db = some ((), held', d')) : RunsToEnd program sid c d' := by
  induction p generalizing c with
  | pure =>
      cases hEnds
      refine ⟨c, .init, rfl, ?_, hFree⟩
      rw [Config.resume, ← hSession, Function.update_eq_self]
  | fail => cases hEnds
  | read note next ih =>
      have hMoves : advance program c (.step sid) =
          some { c with sessions := c.resume sid (next c.db) } := by
        simp [advance, hSession]
      apply RunsToEnd.next _ (.step sid) hMoves rfl
      exact ih c.db (Function.update_self ..) hFree hEnds
  | lock key note next ih =>
      have hMoves : advance program c (.step sid) = some { c with
          locks := c.grant sid key, sessions := c.resume sid (next c.db) } := by
        simp [advance, hSession, hFree]
      apply RunsToEnd.next _ (.step sid) hMoves rfl
      apply ih c.db (Function.update_self ..) fun other => Config.free_grant (hFree other) ..
      rwa [c.held_grant_self]
  | tryLock key note next ih =>
      have hMoves : advance program c (.step sid) = some { c with
          locks := c.grant sid key, sessions := c.resume sid (next (some c.db)) } := by
        simp [advance, hSession, hFree]
      apply RunsToEnd.next _ (.step sid) hMoves rfl
      apply ih (some c.db) (Function.update_self ..) fun other => Config.free_grant (hFree other) ..
      rwa [c.held_grant_self]
  | clock note next ih =>
      simp only [Prog.alone, Option.ite_none_right_eq_some] at hEnds
      have hMoves : advance program c (.clock sid time) = some { c with
          db := S.observe (c.held sid) time c.db, sessions := c.resume sid (next time) } := by
        simp [advance, hSession, hEnds.1]
      apply RunsToEnd.next _ (.clock sid time) hMoves rfl
      exact ih time (Function.update_self ..) hFree hEnds.2
  | update note write next ih =>
      have hMoves : advance program c (.step sid) = some { c with
          db := write c.db, sessions := c.resume sid next } := by
        simp [advance, hSession]
      apply RunsToEnd.next _ (.step sid) hMoves rfl
      exact ih (Function.update_self ..) hFree hEnds
  | commit note write next ih =>
      simp only [Prog.alone] at hEnds
      split_ifs at hEnds with hAdmits
      · have hMoves : advance program c (.step sid) = some ⟨write c.db, c.release sid,
            c.resume sid (next (some (write c.db)))⟩ := by
          simp [advance, hSession, hAdmits]
        apply RunsToEnd.next _ (.step sid) hMoves rfl
        apply ih (some (write c.db)) (Function.update_self ..)
          fun other => Config.free_release (hFree other) ..
        rwa [c.held_release_self]
      · have hMoves : advance program c (.step sid) = some { c with
            locks := c.release sid, sessions := c.resume sid (next none) } := by
          simp [advance, hSession, hAdmits]
        apply RunsToEnd.next _ (.step sid) hMoves rfl
        apply ih none (Function.update_self ..) fun other => Config.free_release (hFree other) ..
        rwa [c.held_release_self]

/-- Where nobody holds a lock, a request is served alone, and nobody holds one then. -/
theorem serves_alone {request : Req} {held' : Held S} (hIdle : c.sessions sid = none)
    (hUnlocked : ∀ key, c.locks key = none)
    (hEnds : (program request).alone time Held.none c.db = some ((), held', d')) :
    ∃ c', Continues program c c' ∧ c'.db = d' ∧ c'.sessions = c.sessions ∧
      ∀ key, c'.locks key = none := by
  have hStarts : advance program c (.start sid request) =
      some { c with sessions := c.resume sid (program request) } := by
    simp [advance, hIdle]
  have hHeld : c.held sid = Held.none := by
    funext key
    simp [Config.held, hUnlocked, Held.none]
  obtain ⟨c₁, run, hDb, hSessions, hFree⟩ : RunsToEnd program sid c d' := by
    apply RunsToEnd.next _ (.start sid request) hStarts rfl
    apply ends_alone (Function.update_self ..) (fun key => by simp [Config.free, hUnlocked])
    exact hHeld ▸ hEnds
  refine ⟨⟨c₁.db, c₁.release sid, Function.update c₁.sessions sid none⟩,
    run.next (.close sid) rfl trivial, hDb, ?_, fun key => ?_⟩
  · rw [hSessions, Config.resume, Function.update_idem, ← hIdle, Function.update_eq_self]
  · rcases Config.free_iff.mp (hFree key) with hNone | hOwn <;> simp [Config.release, *]

end Runs

end RowLocks
