import Mathlib.Logic.Function.Basic
import Mathlib.Logic.Relation
import Mathlib.Tactic.Common
import OnlineAuction.Library.Runs

/-! Programs over a shared store whose rows are locked by the sessions that
run them. A session is a tree of effects: what happens between two effects
runs to completion, and other sessions may interleave at every effect. Locks
are held until the session commits, rolls back or is closed. -/

namespace RowLocks

/-- What a store consists of. `hasRow` says whether a key names an existing
row: only an existing row can be locked. `admits` is the constraint check
made at commit. `observe` records a clock reading taken while holding locks,
and `readable` says which readings the store allows. -/
structure Store where
  State : Type
  Key : Type
  Time : Type
  Note : Type
  Error : Type
  keyEq : DecidableEq Key
  hasRow : State → Key → Bool
  admits : State → Bool
  readable : State → Time → Bool
  observe : (Key → Bool) → Time → State → State

instance (S : Store) : DecidableEq S.Key := S.keyEq

/-- A session's program. Every effect carries a note, which the semantics
ignores: it names what the program knows when it performs the effect, so that
a condition on runs can speak about it. A commit answers with the store it
left, or `none` when it failed. -/
inductive Prog (S : Store) (α : Type) : Type where
  | pure (value : α)
  | fail (error : S.Error)
  | read (note : S.Note) (next : S.State → Prog S α)
  | lock (key : S.Key) (note : S.Note) (next : S.State → Prog S α)
  | tryLock (key : S.Key) (note : S.Note) (next : Option S.State → Prog S α)
  | clock (note : S.Note) (next : S.Time → Prog S α)
  | update (note : S.Note) (write : S.State → S.State) (next : Prog S α)
  | commit (note : S.Note) (write : S.State → S.State) (next : Option S.State → Prog S α)

variable {S : Store} {α β : Type}

namespace Prog

def bind : Prog S α → (α → Prog S β) → Prog S β
  | .pure value, f => f value
  | .fail error, _ => .fail error
  | .read note next, f => .read note fun d => (next d).bind f
  | .lock key note next, f => .lock key note fun d => (next d).bind f
  | .tryLock key note next, f => .tryLock key note fun d => (next d).bind f
  | .clock note next, f => .clock note fun t => (next t).bind f
  | .update note write next, f => .update note write (next.bind f)
  | .commit note write next, f => .commit note write fun done => (next done).bind f

instance : Monad (Prog S) where
  pure := .pure
  bind := bind

/-- Fail with `error` when the condition holds, continue otherwise. -/
def raiseIf (condition : Prop) [Decidable condition] (error : S.Error) : Prog S Unit :=
  if condition then .fail error else .pure ()

def orRaise (value : Option α) (error : S.Error) : Prog S α :=
  match value with
  | some a => .pure a
  | none => .fail error

def ofExcept : Except S.Error α → Prog S α
  | .ok a => .pure a
  | .error e => .fail e

end Prog

abbrev Held (S : Store) := S.Key → Bool

def Held.none : Held S := fun _ => false

def Held.grant (held : Held S) (d : S.State) (key : S.Key) : Held S := fun k =>
  held k || (S.hasRow d key && decide (k = key))

/-- What a condition on runs may look at: the effect with its note, whether a
lock was free to be taken, and the reading of a clock effect. -/
inductive Event (S : Store) where
  | read (note : S.Note)
  | lock (key : S.Key) (note : S.Note)
  | tryLock (key : S.Key) (note : S.Note) (granted : Bool)
  | clock (note : S.Note) (time : S.Time)
  | update (note : S.Note)
  | commit (note : S.Note)

structure Config (S : Store) where
  db : S.State
  locks : S.Key → Option Nat
  sessions : Nat → Option (Prog S Unit)

namespace Config

def initial (db : S.State) : Config S := ⟨db, fun _ => none, fun _ => none⟩

def held (c : Config S) (sid : Nat) : Held S := fun key => decide (c.locks key = some sid)

def free (c : Config S) (sid : Nat) (key : S.Key) : Bool :=
  c.locks key = none || c.locks key = some sid

def grant (c : Config S) (sid : Nat) (key : S.Key) : S.Key → Option Nat := fun k =>
  if S.hasRow c.db key && decide (k = key) then some sid else c.locks k

def release (c : Config S) (sid : Nat) : S.Key → Option Nat := fun k =>
  if c.locks k = some sid then none else c.locks k

def resume (c : Config S) (sid : Nat) (p : Prog S Unit) : Nat → Option (Prog S Unit) :=
  Function.update c.sessions sid (some p)

end Config

/-- A scheduling choice. `step` performs the next effect of a session, `clock`
does so with the given reading, `reject` makes its pending commit fail, and
`close` ends it, rolling back whatever it has not committed. -/
inductive Action (S : Store) (Req : Type) where
  | start (sid : Nat) (request : Req)
  | step (sid : Nat)
  | clock (sid : Nat) (time : S.Time)
  | reject (sid : Nat)
  | close (sid : Nat)

variable {Req : Type}

def Action.session : Action S Req → Nat
  | .start sid _ => sid
  | .step sid => sid
  | .clock sid _ => sid
  | .reject sid => sid
  | .close sid => sid

/-- One action, `none` when it is not possible. A lock request waits until no
other session holds the key; a commit that the constraints do not admit is
rolled back and the program told so. -/
def advance (program : Req → Prog S Unit) (c : Config S) : Action S Req → Option (Config S)
  | .start sid request =>
      if (c.sessions sid).isNone then
        some { c with sessions := c.resume sid (program request) }
      else none
  | .step sid => match c.sessions sid with
      | some (.read _ next) => some { c with sessions := c.resume sid (next c.db) }
      | some (.lock key _ next) =>
          if c.free sid key then
            some { c with locks := c.grant sid key, sessions := c.resume sid (next c.db) }
          else none
      | some (.tryLock key _ next) =>
          if c.free sid key then
            some { c with locks := c.grant sid key, sessions := c.resume sid (next (some c.db)) }
          else some { c with sessions := c.resume sid (next none) }
      | some (.update _ write next) =>
          some { c with db := write c.db, sessions := c.resume sid next }
      | some (.commit _ write next) =>
          if S.admits (write c.db) then
            some { db := write c.db, locks := c.release sid,
                   sessions := c.resume sid (next (some (write c.db))) }
          else some { c with locks := c.release sid, sessions := c.resume sid (next none) }
      | _ => none
  | .clock sid time => match c.sessions sid with
      | some (.clock _ next) =>
          if S.readable c.db time then
            some { c with db := S.observe (c.held sid) time c.db, sessions := c.resume sid (next time) }
          else none
      | _ => none
  | .reject sid => match c.sessions sid with
      | some (.commit _ _ next) =>
          some { c with locks := c.release sid, sessions := c.resume sid (next none) }
      | _ => none
  | .close sid =>
      some { c with locks := c.release sid, sessions := Function.update c.sessions sid none }

def eventOf (c : Config S) : Action S Req → Option (Nat × Event S)
  | .step sid => match c.sessions sid with
      | some (.read note _) => some (sid, .read note)
      | some (.lock key note _) => some (sid, .lock key note)
      | some (.tryLock key note _) => some (sid, .tryLock key note (c.free sid key))
      | some (.update note _ _) => some (sid, .update note)
      | some (.commit note _ _) => some (sid, .commit note)
      | _ => none
  | .clock sid time => match c.sessions sid with
      | some (.clock note _) => some (sid, .clock note time)
      | _ => none
  | _ => none

/-- The write that an action makes, and the session that makes it. -/
def written (c : Config S) : Action S Req → Option (Nat × Event S)
  | .step sid => match c.sessions sid with
      | some (.update note _ _) => some (sid, .update note)
      | some (.commit note write _) =>
          if S.admits (write c.db) then some (sid, .commit note) else none
      | _ => none
  | _ => none

/-- Which request each session serves, or has served last. -/
def serving (requests : Nat → Option Req) : Action S Req → Nat → Option Req
  | .start sid request => Function.update requests sid (some request)
  | _ => requests

/-- A condition on the steps of a run: the store and the locks held by the
acting session before the step, and the step's event. -/
abbrev Guard (S : Store) := S.State → Held S → Event S → Prop

/-- The action meets the condition in the configuration it starts from. -/
def Meets (ok : Guard S) (c : Config S) (a : Action S Req) : Prop :=
  ∀ sid e, eventOf c a = some (sid, e) → ok c.db (c.held sid) e

/-- Configurations reached by runs all of whose steps meet the condition. -/
abbrev Reaches (program : Req → Prog S Unit) (ok : Guard S) (start : S.State) :
    Config S → Prop :=
  Runs.Reaches (advance program) (Meets ok) (.initial start)

/-- A weaker condition admits every run of a stronger one. -/
theorem Reaches.weaken {program : Req → Prog S Unit} {ok ok' : Guard S} {start : S.State}
    (h : ∀ d held e, ok d held e → ok' d held e) {c : Config S}
    (run : Reaches program ok start c) : Reaches program ok' start c :=
  Runs.Reaches.weaken (fun _ _ meets sid e he => h _ _ _ (meets sid e he)) run

variable {ok : Guard S}

instance [∀ d held e, Decidable (ok d held e)] (c : Config S) (a : Action S Req) :
    Decidable (Meets ok c a) :=
  match h : eventOf c a with
  | none => isTrue fun _ _ he => by simp [h] at he
  | some (sid, e) => decidable_of_iff (ok c.db (c.held sid) e)
      ⟨fun hOk sid' e' he => by
        obtain ⟨rfl, rfl⟩ : sid = sid' ∧ e = e' := by simpa [h] using he
        exact hOk, fun hMeets => hMeets sid e h⟩

/-- Perform a list of actions in order, as long as each meets the condition. -/
abbrev perform (program : Req → Prog S Unit) (ok : Guard S)
    [∀ d held e, Decidable (ok d held e)] : Config S → List (Action S Req) → Option (Config S) :=
  Runs.perform (advance program) (Meets ok)

/-- Whatever is found at the end of a schedule is reachable. -/
theorem exists_reaches (program : Req → Prog S Unit) (ok : Guard S)
    [∀ d held e, Decidable (ok d held e)] (start : S.State) (actions : List (Action S Req))
    (p : Config S → Prop) [DecidablePred p]
    (h : (perform program ok (.initial start) actions).any (fun c => decide (p c)) = true) :
    ∃ c, Reaches program ok start c ∧ p c :=
  Runs.exists_reaches (advance program) (Meets ok) (.initial start) actions p h

end RowLocks
