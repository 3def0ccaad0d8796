import Mathlib.Data.List.Infix
import Mathlib.Tactic.Common

/-! Sets that change by one element at a time, with the log of their changes. A
moment of the set is a length of the log: what the set was then is what the first so
many changes make. -/

namespace ChangeLogs

variable {α : Type} [DecidableEq α]

inductive Change (α : Type) where
  | add (element : α)
  | remove (element : α)
  deriving DecidableEq

def Change.apply (members : α → Bool) : Change α → α → Bool
  | .add element => fun a => a = element || members a
  | .remove element => fun a => a ≠ element && members a

def members (log : List (Change α)) : α → Bool :=
  log.foldl Change.apply fun _ => false

@[simp] theorem members_nil (a : α) : members ([] : List (Change α)) a = false := rfl

theorem members_concat (log : List (Change α)) (change : Change α) :
    members (log ++ [change]) = change.apply (members log) := by
  rw [members, List.foldl_append]
  rfl

/-- After an addition the element is a member, the others are as before. -/
@[simp] theorem members_add (log : List (Change α)) (element a : α) :
    members (log ++ [.add element]) a = (decide (a = element) || members log a) := by
  rw [members_concat]
  rfl

/-- After a removal the element is no member, the others are as before. -/
@[simp] theorem members_remove (log : List (Change α)) (element a : α) :
    members (log ++ [.remove element]) a = (decide (a ≠ element) && members log a) := by
  rw [members_concat]
  rfl

inductive Effective : List (Change α) → Prop where
  | nil : Effective []
  | add {log : List (Change α)} {element : α} (prior : Effective log)
      (hAbsent : members log element = false) : Effective (log ++ [.add element])
  | remove {log : List (Change α)} {element : α} (prior : Effective log)
      (hPresent : members log element = true) : Effective (log ++ [.remove element])

def membersAt (log : List (Change α)) (moment : Nat) : α → Bool := members (log.take moment)

/-- Moments of a log are moments of what it grows to. -/
theorem membersAt_extended {log log' : List (Change α)} (h : log <+: log') {moment : Nat}
    (hMoment : moment ≤ log.length) : membersAt log' moment = membersAt log moment := by
  obtain ⟨rest, rfl⟩ := h
  rw [membersAt, List.take_append_of_le_length hMoment]
  rfl

/-- The members at the end of the log are those that the log gives. -/
@[simp] theorem membersAt_length (log : List (Change α)) : membersAt log log.length = members log := by
  rw [membersAt, List.take_length]

/-- At some moment from one to another, the element was in the set or was not. -/
def Meanwhile (log : List (Change α)) (first last : Nat) (element : α) (present : Bool) : Prop :=
  ∃ moment, first ≤ moment ∧ moment ≤ last ∧ last ≤ log.length ∧ membersAt log moment element = present

variable {log log' : List (Change α)} {first first' last last' : Nat} {element : α} {present : Bool}

/-- What is true at the end of the log was true at some point of any interval
that reaches it. -/
theorem Meanwhile.of_now (hFirst : first ≤ log.length) (h : members log element = present) :
    Meanwhile log first log.length element present :=
  ⟨log.length, hFirst, le_rfl, le_rfl, by rwa [membersAt_length]⟩

/-- A longer time of a longer log. -/
theorem Meanwhile.later (h : Meanwhile log first last element present) (hPrefix : log <+: log')
    (hFirst : first' ≤ first) (hLast : last ≤ last') (hLength : last' ≤ log'.length) :
    Meanwhile log' first' last' element present := by
  obtain ⟨moment, hFrom, hTo, hLog, hAt⟩ := h
  refine ⟨moment, hFirst.trans hFrom, hTo.trans hLast, hLength, ?_⟩
  rw [membersAt_extended hPrefix (hTo.trans hLog), hAt]

end ChangeLogs
