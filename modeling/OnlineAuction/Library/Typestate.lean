import OnlineAuction.Library.Contracts

/-! Typestates of sessions. What a session may ask for next depends on what it
has done so far, whatever the store has answered. Each program is checked once
against its typestate; in every run each session then stays within it. -/

namespace RowLocks

variable {S : Store} {α β τ Req : Type}

/-- What a session is told once an effect of its has been performed. -/
inductive Answer (S : Store) where
  | read (note : S.Note) (d : S.State)
  | locked (key : S.Key) (d : S.State)
  | refused (key : S.Key)
  | clock (time : S.Time)
  | updated (note : S.Note)
  | committed (note : S.Note) (d : S.State)
  | failed (note : S.Note)

/-- Which locks a session may wait for and which writes it may make in each of
its states, and the state it is in after an answer. -/
structure Typestate (S : Store) (τ : Type) where
  lock : τ → S.Key → Prop := fun _ _ => True
  update : τ → S.Note → (S.State → S.State) → Prop := fun _ _ _ => True
  commit : τ → S.Note → (S.State → S.State) → Prop := fun _ _ _ => True
  after : τ → Answer S → τ

namespace Typestate

variable (T : Typestate S τ)

/-- From this state the program asks only for what it may, and returns only
with `post`. -/
def Follows : Prog S α → (α → τ → Prop) → τ → Prop
  | .pure value, post, state => post value state
  | .fail _, _, _ => True
  | .read note next, post, state =>
      ∀ d, Follows (next d) post (T.after state (.read note d))
  | .lock key _ next, post, state =>
      T.lock state key ∧ ∀ d, Follows (next d) post (T.after state (.locked key d))
  | .tryLock key _ next, post, state =>
      (∀ d, Follows (next (some d)) post (T.after state (.locked key d))) ∧
      Follows (next none) post (T.after state (.refused key))
  | .clock _ next, post, state => ∀ t, Follows (next t) post (T.after state (.clock t))
  | .update note write next, post, state =>
      T.update state note write ∧ Follows next post (T.after state (.updated note))
  | .commit note write next, post, state =>
      T.commit state note write ∧
      (∀ d, Follows (next (some d)) post (T.after state (.committed note d))) ∧
      Follows (next none) post (T.after state (.failed note))

/-- The rule of sequence, as an equation. -/
theorem follows_bind_eq (p : Prog S α) (f : α → Prog S β) (post : β → τ → Prop) (state : τ) :
    T.Follows (p.bind f) post state = T.Follows p (fun value => T.Follows (f value) post) state := by
  induction p generalizing state with
  | pure => rfl
  | fail => rfl
  | read note next ih => simp only [Prog.bind, Follows, ih]
  | lock key note next ih => simp only [Prog.bind, Follows, ih]
  | tryLock key note next ih => simp only [Prog.bind, Follows, ih]
  | clock note next ih => simp only [Prog.bind, Follows, ih]
  | update note write next ih => simp only [Prog.bind, Follows, ih]
  | commit note write next ih => simp only [Prog.bind, Follows, ih]

/-- The rule of sequence. -/
@[simp] theorem follows_bind (p : Prog S α) (f : α → Prog S β) (post : β → τ → Prop) (state : τ) :
    T.Follows (p >>= f) post state ↔ T.Follows p (fun value => T.Follows (f value) post) state :=
  Iff.of_eq (T.follows_bind_eq p f post state)

@[simp] theorem follows_pure (value : α) (post : α → τ → Prop) (state : τ) :
    T.Follows (pure value) post state ↔ post value state := Iff.rfl

/-- After a guard its condition is false, and the state is as before. -/
@[simp] theorem follows_raiseIf (condition : Prop) [Decidable condition] (error : S.Error)
    (post : Unit → τ → Prop) (state : τ) :
    T.Follows (Prog.raiseIf condition error) post state ↔ (¬condition → post () state) := by
  unfold Prog.raiseIf
  split_ifs with h
  · simp [h, Follows]
  · simp only [h, not_false_eq_true, forall_const]
    exact Iff.rfl

/-- After a lookup that raises on `none` the value is there. -/
@[simp] theorem follows_orRaise (value : Option α) (error : S.Error) (post : α → τ → Prop)
    (state : τ) :
    T.Follows (Prog.orRaise value error) post state ↔ ∀ a, value = some a → post a state := by
  cases value with
  | none => simp [Prog.orRaise, Follows]
  | some a =>
      simp only [Prog.orRaise, Option.some.injEq, forall_eq']
      exact Iff.rfl

/-- After a computation that may raise its value is there. -/
@[simp] theorem follows_ofExcept (value : Except S.Error α) (post : α → τ → Prop) (state : τ) :
    T.Follows (Prog.ofExcept value) post state ↔ ∀ a, value = .ok a → post a state := by
  cases value with
  | error e => simp [Prog.ofExcept, Follows]
  | ok a =>
      simp only [Prog.ofExcept, Except.ok.injEq, forall_eq']
      exact Iff.rfl

variable {T} in
/-- Less may be asked of the state a program returns in. -/
theorem Follows.weaken {post post' : α → τ → Prop} (hPost : ∀ value state, post value state →
    post' value state) {p : Prog S α} {state : τ} (h : T.Follows p post state) :
    T.Follows p post' state := by
  induction p generalizing state with
  | pure value => exact hPost value state h
  | fail => trivial
  | read note next ih => exact fun d => ih d (h d)
  | lock key note next ih => exact ⟨h.1, fun d => ih d (h.2 d)⟩
  | tryLock key note next ih => exact ⟨fun d => ih (some d) (h.1 d), ih none h.2⟩
  | clock note next ih => exact fun t => ih t (h t)
  | update note write next ih => exact ⟨h.1, ih h.2⟩
  | commit note write next ih => exact ⟨h.1, fun d => ih (some d) (h.2.1 d), ih none h.2.2⟩

/-- A set of states in which nothing is forbidden, and which no answer leaves. -/
theorem follows_of_closed {Q : τ → Prop}
    (hAfter : ∀ state answer, Q state → Q (T.after state answer))
    (hLock : ∀ state key, Q state → T.lock state key)
    (hUpdate : ∀ state note write, Q state → T.update state note write)
    (hCommit : ∀ state note write, Q state → T.commit state note write)
    (p : Prog S α) {state : τ} (h : Q state) : T.Follows p (fun _ _ => True) state := by
  induction p generalizing state with
  | pure => trivial
  | fail => trivial
  | read note next ih => exact fun d => ih d (hAfter _ _ h)
  | lock key note next ih => exact ⟨hLock _ key h, fun d => ih d (hAfter _ _ h)⟩
  | tryLock key note next ih =>
      exact ⟨fun d => ih (some d) (hAfter _ _ h), ih none (hAfter _ _ h)⟩
  | clock note next ih => exact fun t => ih t (hAfter _ _ h)
  | update note write next ih => exact ⟨hUpdate _ note write h, ih (hAfter _ _ h)⟩
  | commit note write next ih =>
      exact ⟨hCommit _ note write h, fun d => ih (some d) (hAfter _ _ h), ih none (hAfter _ _ h)⟩

end Typestate

def answered (c : Config S) : Action S Req → Option (Nat × Answer S)
  | .step sid => match c.sessions sid with
      | some (.read note _) => some (sid, .read note c.db)
      | some (.lock key _ _) => some (sid, .locked key c.db)
      | some (.tryLock key _ _) =>
          some (sid, if c.free sid key then .locked key c.db else .refused key)
      | some (.update note _ _) => some (sid, .updated note)
      | some (.commit note write _) =>
          some (sid, if S.admits (write c.db) then .committed note (write c.db) else .failed note)
      | _ => none
  | .clock sid time => match c.sessions sid with
      | some (.clock _ _) => some (sid, .clock time)
      | _ => none
  | .reject sid => match c.sessions sid with
      | some (.commit note _ _) => some (sid, .failed note)
      | _ => none
  | _ => none

/-- Only the acting session is told anything. -/
theorem session_of_answered {c : Config S} {a : Action S Req} {sid : Nat} {answer : Answer S}
    (h : answered c a = some (sid, answer)) : a.session = sid := by
  cases a with
  | start => cases h
  | close => cases h
  | step other =>
      simp only [answered] at h
      split at h <;> cases h <;> rfl
  | clock other time =>
      simp only [answered] at h
      split at h <;> cases h
      rfl
  | reject other =>
      simp only [answered] at h
      split at h <;> cases h
      rfl

/-- A session that is told of a commit has made it. -/
theorem written_of_answered {c : Config S} {a : Action S Req} {sid : Nat} {note : S.Note}
    {d : S.State} (h : answered c a = some (sid, .committed note d)) :
    written c a = some (sid, .commit note) := by
  cases a with
  | start => cases h
  | close => cases h
  | step other =>
      cases hs : c.sessions other with
      | none => simp [answered, hs] at h
      | some p =>
          cases p with
          | commit note' write next =>
              simp only [answered, hs] at h
              split_ifs at h with hAdmits
              · cases h
                simp [written, hs, hAdmits]
              · cases h
          | tryLock =>
              simp only [answered, hs] at h
              split_ifs at h <;> cases h
          | _ => simp [answered, hs] at h
  | clock other time =>
      cases hs : c.sessions other with
      | none => simp [answered, hs] at h
      | some p => cases p <;> simp [answered, hs] at h
  | reject other =>
      cases hs : c.sessions other with
      | none => simp [answered, hs] at h
      | some p => cases p <;> simp [answered, hs] at h

/-- An update that was made: what the session was about to do. -/
theorem update_of_written {c : Config S} {sid : Nat} {note : S.Note}
    (h : written c (.step sid : Action S Req) = some (sid, .update note)) :
    ∃ write next, c.sessions sid = some (.update note write next) := by
  cases hs : c.sessions sid with
  | none => simp [written, hs] at h
  | some p =>
      cases p with
      | update note' write next =>
          simp only [written, hs, Option.some.injEq, Prod.mk.injEq, true_and] at h
          cases h
          exact ⟨write, next, rfl⟩
      | commit =>
          simp only [written, hs] at h
          split_ifs at h
          cases h
      | _ => simp [written, hs] at h

/-- A commit that was made: what the session was about to do, and what it left. -/
theorem commit_of_written {program : Req → Prog S Unit} {c c' : Config S} {sid : Nat}
    {note : S.Note} (h : written c (.step sid : Action S Req) = some (sid, .commit note))
    (moves : advance program c (.step sid) = some c') :
    ∃ write next, c.sessions sid = some (.commit note write next) ∧ c'.db = write c.db ∧
      answered c (.step sid : Action S Req) = some (sid, .committed note c'.db) := by
  cases hs : c.sessions sid with
  | none => simp [written, hs] at h
  | some p =>
      cases p with
      | commit note' write next =>
          simp only [written, hs, Option.ite_none_right_eq_some, Option.some.injEq, Prod.mk.injEq,
            true_and] at h
          obtain ⟨hAdmits, hNote⟩ := h
          cases hNote
          simp only [advance, hs, if_pos hAdmits, Option.some.injEq] at moves
          subst moves
          exact ⟨write, next, rfl, rfl, by simp [answered, hs, hAdmits]⟩
      | _ => simp [written, hs] at h

/-- The constraints admit what a commit has left. -/
theorem admits_of_written {program : Req → Prog S Unit} {c c' : Config S} {sid : Nat}
    {note : S.Note} (h : written c (.step sid : Action S Req) = some (sid, .commit note))
    (moves : advance program c (.step sid) = some c') : S.admits c'.db = true := by
  obtain ⟨write, next, hs, hDb, _⟩ := commit_of_written h moves
  simp only [written, hs, Option.ite_none_right_eq_some] at h
  exact hDb ▸ h.1

namespace Typestate

variable (T : Typestate S τ) (start : Req → τ)

def hear (states : Nat → Option τ) : Option (Nat × Answer S) → Nat → Option τ
  | some (sid, answer) =>
      Function.update states sid ((states sid).map fun state => T.after state answer)
  | none => states

/-- The states of the sessions after an action. A session starts in the state
of its request. -/
def track (states : Nat → Option τ) (c : Config S) : Action S Req → Nat → Option τ
  | .start sid request => Function.update states sid (some (start request))
  | a => T.hear states (answered c a)

/-- Every session in progress stays within its typestate. -/
def Within (states : Nat → Option τ) (c : Config S) : Prop :=
  ∀ sid p, c.sessions sid = some p → ∃ state, states sid = some state ∧
    T.Follows p (fun _ _ => True) state

/-- What the answer to a session comes with: the write it has made, which it
might make in its state, and the locks it has been granted or has released. -/
inductive Told (c c' : Config S) (sid : Nat) (state : τ) : Answer S → Prop where
  | read (note : S.Note) (hDb : c'.db = c.db) (hLocks : c'.locks = c.locks) :
      Told c c' sid state (.read note c.db)
  | locked (key : S.Key) (hFree : c.free sid key = true) (hDb : c'.db = c.db)
      (hLocks : c'.locks = c.grant sid key) : Told c c' sid state (.locked key c.db)
  | refused (key : S.Key) (hDb : c'.db = c.db) (hLocks : c'.locks = c.locks) :
      Told c c' sid state (.refused key)
  | clock (time : S.Time) (hReadable : S.readable c.db time = true)
      (hDb : c'.db = S.observe (c.held sid) time c.db) (hLocks : c'.locks = c.locks) :
      Told c c' sid state (.clock time)
  | updated (note : S.Note) (write : S.State → S.State) (hMay : T.update state note write)
      (hDb : c'.db = write c.db) (hLocks : c'.locks = c.locks) :
      Told c c' sid state (.updated note)
  | committed (note : S.Note) (write : S.State → S.State) (hMay : T.commit state note write)
      (hDb : c'.db = write c.db) (hLocks : c'.locks = c.release sid) :
      Told c c' sid state (.committed note (write c.db))
  | failed (note : S.Note) (hDb : c'.db = c.db) (hLocks : c'.locks = c.release sid) :
      Told c c' sid state (.failed note)

/-- One action: a session starts, is told the answer to its next effect, or is
closed. -/
inductive Turn (states : Nat → Option τ) (c c' : Config S) : Action S Req → Prop where
  | started (sid : Nat) (request : Req) {p : Prog S Unit} (hIdle : c.sessions sid = none)
      (hDb : c'.db = c.db) (hLocks : c'.locks = c.locks) (hSessions : c'.sessions = c.resume sid p) :
      Turn states c c' (.start sid request)
  | told {a : Action S Req} (sid : Nat) (state : τ) (answer : Answer S) (p next : Prog S Unit)
      (hAnswer : answered c a = some (sid, answer)) (hSession : c.sessions sid = some p)
      (hState : states sid = some state) (hSessions : c'.sessions = c.resume sid next)
      (hTold : T.Told c c' sid state answer) : Turn states c c' a
  | closed (sid : Nat) (hDb : c'.db = c.db) (hLocks : c'.locks = c.release sid)
      (hSessions : c'.sessions = Function.update c.sessions sid none) :
      Turn states c c' (.close sid)

/-- An answer moves the state of the session that got it and of no other. -/
theorem track_told {states : Nat → Option τ} {c : Config S} {a : Action S Req} {sid : Nat}
    {answer : Answer S} (h : answered c a = some (sid, answer)) :
    T.track start states c a =
      Function.update states sid ((states sid).map fun state => T.after state answer) := by
  cases a with
  | start => cases h
  | close => cases h
  | _ => simp only [track, h, hear]

variable {T start} in
/-- The state that a tracked session has after an answer. -/
theorem track_of_answered {states : Nat → Option τ} {c : Config S} {a : Action S Req} {sid : Nat}
    {state : τ} {answer : Answer S} (hAnswer : answered c a = some (sid, answer))
    (hState : states sid = some state) :
    T.track start states c a = Function.update states sid (some (T.after state answer)) := by
  rw [track_told T start hAnswer, hState, Option.map_some]

variable {T start} in
/-- A part of the state that no answer changes is what the request started with. -/
theorem track_serving {request : τ → Req} (hStart : ∀ r, request (start r) = r)
    (hAfter : ∀ state answer, request (T.after state answer) = request state)
    (states : Nat → Option τ) (c : Config S) (a : Action S Req) :
    (fun sid => (T.track start states c a sid).map request) =
      serving (fun sid => (states sid).map request) a := by
  have hHear (answer : Option (Nat × Answer S)) :
      (fun sid => (T.hear states answer sid).map request) =
        fun sid => (states sid).map request := by
    funext other
    cases answer with
    | none => rfl
    | some told =>
        by_cases hOther : other = told.1
        · subst hOther
          cases h : states told.1 <;> simp [hear, h, hAfter]
        · simp [hear, hOther]
  cases a with
  | start sid r =>
      funext other
      by_cases hOther : other = sid
      · subst hOther
        simp [track, serving, hStart]
      · simp [track, serving, hOther]
  | step => exact hHear _
  | clock => exact hHear _
  | reject => exact hHear _
  | close => rfl

variable {T start} {states : Nat → Option τ} {program : Req → Prog S Unit} {c c' : Config S}

/-- A session that moves on with a program that follows the outline stays
within it. -/
theorem Within.resume (h : T.Within states c) {sid : Nat} {state : τ} {next : Prog S Unit}
    (hNext : T.Follows next (fun _ _ => True) state)
    (hSessions : c'.sessions = c.resume sid next) :
    T.Within (Function.update states sid (some state)) c' := by
  intro other p hp
  rw [hSessions] at hp
  by_cases hOther : other = sid
  · subst hOther
    rw [Config.resume, Function.update_self, Option.some.injEq] at hp
    exact ⟨state, Function.update_self .., hp ▸ hNext⟩
  · rw [Config.resume, Function.update_of_ne hOther] at hp
    rw [Function.update_of_ne hOther]
    exact h other p hp

theorem within_initial (db : S.State) : T.Within states (.initial db) := by
  intro sid p hp
  cases hp

/-- A session that is told of its effect goes on within its typestate. -/
theorem Within.told (h : T.Within states c) {a : Action S Req} {sid : Nat} {state : τ}
    {answer : Answer S} {p next : Prog S Unit} (hAnswer : answered c a = some (sid, answer))
    (hSession : c.sessions sid = some p) (hState : states sid = some state)
    (hSessions : c'.sessions = c.resume sid next) (hTold : T.Told c c' sid state answer)
    (hNext : T.Follows next (fun _ _ => True) (T.after state answer)) :
    T.Turn states c c' a ∧ T.Within (T.track start states c a) c' := by
  constructor
  · exact .told sid state answer p next hAnswer hSession hState hSessions hTold
  · rw [track_of_answered hAnswer hState]
    exact h.resume hNext hSessions

/-- The next effect of a session. -/
theorem Within.step (h : T.Within states c) {program : Req → Prog S Unit} {sid : Nat}
    (moves : RowLocks.advance program c (.step sid) = some c') :
    T.Turn states c c' (.step sid : Action S Req) ∧
      T.Within (T.track start states c (.step sid)) c' := by
  cases hs : c.sessions sid with
  | none => simp [RowLocks.advance, hs] at moves
  | some p =>
      obtain ⟨state, hState, hFollows⟩ := h sid p hs
      cases p with
      | pure => simp [RowLocks.advance, hs] at moves
      | fail => simp [RowLocks.advance, hs] at moves
      | clock => simp [RowLocks.advance, hs] at moves
      | read note next =>
          simp only [RowLocks.advance, hs, Option.some.injEq] at moves
          subst moves
          exact h.told (by simp [answered, hs]) hs hState rfl (.read note rfl rfl) (hFollows c.db)
      | lock key note next =>
          simp only [RowLocks.advance, hs, Option.ite_none_right_eq_some,
            Option.some.injEq] at moves
          obtain ⟨hFree, rfl⟩ := moves
          exact h.told (by simp [answered, hs]) hs hState rfl (.locked key hFree rfl rfl)
            (hFollows.2 c.db)
      | tryLock key note next =>
          simp only [RowLocks.advance, hs] at moves
          split_ifs at moves with hFree <;> obtain rfl := Option.some.inj moves
          · exact h.told (by simp [answered, hs, hFree]) hs hState rfl (.locked key hFree rfl rfl)
              (hFollows.1 c.db)
          · exact h.told (by simp [answered, hs, hFree]) hs hState rfl (.refused key rfl rfl)
              hFollows.2
      | update note write next =>
          simp only [RowLocks.advance, hs, Option.some.injEq] at moves
          subst moves
          exact h.told (by simp [answered, hs]) hs hState rfl (.updated note write hFollows.1 rfl rfl)
            hFollows.2
      | commit note write next =>
          simp only [RowLocks.advance, hs] at moves
          split_ifs at moves with hAdmits <;> obtain rfl := Option.some.inj moves
          · exact h.told (by simp [answered, hs, hAdmits]) hs hState rfl
              (.committed note write hFollows.1 rfl rfl) (hFollows.2.1 (write c.db))
          · exact h.told (by simp [answered, hs, hAdmits]) hs hState rfl (.failed note rfl rfl)
              hFollows.2.2

/-- One action of any session: what it does, and that every session stays
within its typestate. -/
theorem Within.turn (h : T.Within states c)
    (hProgram : ∀ request, T.Follows (program request) (fun _ _ => True) (start request))
    {a : Action S Req} (moves : RowLocks.advance program c a = some c') :
    T.Turn states c c' a ∧ T.Within (T.track start states c a) c' := by
  cases a with
  | start sid request =>
      simp only [RowLocks.advance, Option.ite_none_right_eq_some, Option.some.injEq] at moves
      obtain ⟨hIdle, rfl⟩ := moves
      constructor
      · exact .started sid request (by simpa using hIdle) rfl rfl rfl
      · exact h.resume (hProgram request) rfl
  | close sid =>
      simp only [RowLocks.advance, Option.some.injEq] at moves
      subst moves
      refine ⟨.closed sid rfl rfl rfl, ?_⟩
      intro other p hp
      by_cases hOther : other = sid
      · subst hOther
        simp at hp
      · exact h other p (by simpa [hOther] using hp)
  | step sid => exact h.step moves
  | clock sid time =>
      cases hs : c.sessions sid with
      | none => simp [RowLocks.advance, hs] at moves
      | some p =>
          obtain ⟨state, hState, hFollows⟩ := h sid p hs
          cases p with
          | clock note next =>
              simp only [RowLocks.advance, hs, Option.ite_none_right_eq_some,
                Option.some.injEq] at moves
              obtain ⟨hReadable, rfl⟩ := moves
              exact h.told (by simp [answered, hs]) hs hState rfl (.clock time hReadable rfl rfl)
                (hFollows time)
          | _ => simp [RowLocks.advance, hs] at moves
  | reject sid =>
      cases hs : c.sessions sid with
      | none => simp [RowLocks.advance, hs] at moves
      | some p =>
          obtain ⟨state, hState, hFollows⟩ := h sid p hs
          cases p with
          | commit note write next =>
              simp only [RowLocks.advance, hs, Option.some.injEq] at moves
              subst moves
              exact h.told (by simp [answered, hs]) hs hState rfl (.failed note rfl rfl)
                hFollows.2.2
          | _ => simp [RowLocks.advance, hs] at moves

/-- The other sessions are where they were, with the locks they held. -/
theorem Turn.others {a : Action S Req} (h : T.Turn states c c' a) {other : Nat}
    (hOther : other ≠ a.session) :
    c'.sessions other = c.sessions other ∧ c'.held other = c.held other ∧
      T.track start states c a other = states other := by
  have hHeld {locks : S.Key → Option Nat} (hLocks : c'.locks = locks)
      (hOthers : (Config.mk c.db locks c.sessions).held other = c.held other) :
      c'.held other = c.held other :=
    (Config.held_congr (c := Config.mk c.db locks c.sessions) hLocks other).trans hOthers
  cases h with
  | started sid request _ _ hLocks hSessions =>
      have hOther : other ≠ sid := hOther
      refine ⟨?_, hHeld hLocks rfl, Function.update_of_ne hOther _ _⟩
      rw [hSessions, Config.resume, Function.update_of_ne hOther]
  | closed sid _ hLocks hSessions =>
      have hOther : other ≠ sid := hOther
      refine ⟨?_, hHeld hLocks (c.held_release_other hOther _ _), rfl⟩
      rw [hSessions, Function.update_of_ne hOther]
  | told sid state answer p next hAnswer _ _ hSessions hTold =>
      rw [session_of_answered hAnswer] at hOther
      refine ⟨?_, ?_, ?_⟩
      · rw [hSessions, Config.resume, Function.update_of_ne hOther]
      · cases hTold with
        | read _ _ hLocks => exact hHeld hLocks rfl
        | refused _ _ hLocks => exact hHeld hLocks rfl
        | clock _ _ _ hLocks => exact hHeld hLocks rfl
        | updated _ _ _ _ hLocks => exact hHeld hLocks rfl
        | committed _ _ _ _ hLocks => exact hHeld hLocks (c.held_release_other hOther _ _)
        | failed _ _ hLocks => exact hHeld hLocks (c.held_release_other hOther _ _)
        | locked key hFree _ hLocks => exact hHeld hLocks (c.held_grant_other hOther hFree _)
      · rw [track_told T start hAnswer, Function.update_of_ne hOther]

theorem Within.advance (h : T.Within states c)
    (hProgram : ∀ request, T.Follows (program request) (fun _ _ => True) (start request))
    {a : Action S Req} (moves : RowLocks.advance program c a = some c') :
    T.Within (T.track start states c a) c' := (h.turn hProgram moves).2

end Typestate

/-- Sessions that write by commits only. -/
def committing (S : Store) : Typestate S Unit where
  update _ _ _ := False
  after state _ := state

/-- Where nothing is written but by commits, the constraints admit every store that is
reached. -/
theorem admits_of_reaches {program : Req → Prog S Unit} {ok : Guard S} {start : S.State}
    (hProgram : ∀ request, (committing S).Follows (program request) (fun _ _ => True) ())
    (hObserve : ∀ held t d, S.admits d = true → S.admits (S.observe held t d) = true)
    (hStart : S.admits start = true) {c : Config S} (run : Reaches program ok start c) :
    S.admits c.db = true := by
  have h : (committing S).Within (fun _ => some ()) c ∧ S.admits c.db = true := by
    induction run with
    | init => exact ⟨Typestate.within_initial _, hStart⟩
    | @next c c' prior a moves meets ih =>
        obtain ⟨hWithin, hAdmits⟩ := ih
        obtain ⟨hTurn, hNext⟩ := hWithin.turn hProgram moves
        constructor
        · intro sid p hSession
          obtain ⟨_, _, hFollows⟩ := hNext sid p hSession
          exact ⟨(), rfl, hFollows⟩
        · cases hTurn with
          | started _ _ _ hDb => rwa [hDb]
          | closed _ hDb => rwa [hDb]
          | told sid state answer p next hAnswer hSession _ _ hTold =>
              cases hTold with
              | read _ hDb => rwa [hDb]
              | locked _ _ hDb => rwa [hDb]
              | refused _ hDb => rwa [hDb]
              | failed _ hDb => rwa [hDb]
              | clock _ _ hDb =>
                  rw [hDb]
                  exact hObserve _ _ _ hAdmits
              | updated _ _ hMay => cases hMay
              | committed note write _ hDb =>
                  have hWritten := written_of_answered hAnswer
                  obtain rfl := session_of_answered hAnswer
                  cases a with
                  | step other => exact admits_of_written hWritten moves
                  | _ => cases hWritten
  exact h.2

end RowLocks
