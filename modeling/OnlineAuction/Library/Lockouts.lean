import Mathlib.Algebra.BigOperators.Intervals
import Mathlib.Algebra.Order.BigOperators.Group.Finset
import Mathlib.Algebra.Order.Group.Defs
import Mathlib.Tactic.Abel

/-! Locks that failures close for growing windows. Attempts come one after the
other; one that finds the lock closed is refused unseen, any other is judged.
However many attempts are made, the judged failures are the windows apart. -/

namespace Lockouts

inductive Verdict where
  | refused
  | failed
  | succeeded
  deriving DecidableEq

structure Attempt (τ : Type) where
  time : τ
  verdict : Verdict
  deriving DecidableEq

/-- The failures since the last success, and until when the lock is closed. -/
structure Lock (τ : Type) where
  failures : ℤ
  closedUntil : Option τ
  deriving DecidableEq

variable {τ : Type}

def failureTimes (attempts : List (Attempt τ)) : List τ :=
  (attempts.filter fun attempt => attempt.verdict = .failed).map Attempt.time

/-- The failures of two runs in a row are those of the first and those of the
second. -/
theorem failureTimes_append (attempts more : List (Attempt τ)) :
    failureTimes (attempts ++ more) = failureTimes attempts ++ failureTimes more := by
  simp [failureTimes]

section Attempts

variable [AddCommGroup τ] (window : ℤ → Option τ)

def Lock.fail (lock : Lock τ) (t : τ) : Lock τ where
  failures := lock.failures + 1
  closedUntil := match window (lock.failures + 1) with
    | some w => some (t + w)
    | none => lock.closedUntil

def Lock.after (lock : Lock τ) (attempt : Attempt τ) : Lock τ :=
  match attempt.verdict with
  | .refused => lock
  | .failed => lock.fail window attempt.time
  | .succeeded => ⟨0, none⟩

def Lock.run (lock : Lock τ) (attempts : List (Attempt τ)) : Lock τ :=
  attempts.foldl (Lock.after window) lock

def windowOf (count : ℤ) : τ := (window count).getD 0

def windows (n : Nat) : τ := ∑ i ∈ Finset.range n, windowOf window (i + 1)

variable {window} {lock : Lock τ} {attempts : List (Attempt τ)} {attempt : Attempt τ}

@[simp] theorem Lock.run_append (more : List (Attempt τ)) :
    lock.run window (attempts ++ more) = (lock.run window attempts).run window more :=
  List.foldl_append

@[simp] theorem Lock.run_singleton : lock.run window [attempt] = lock.after window attempt := rfl

/-- No number of failures is negative, if none was to begin with. -/
theorem Lock.failures_nonneg (hLock : 0 ≤ lock.failures) :
    0 ≤ (lock.run window attempts).failures := by
  induction attempts using List.reverseRecOn with
  | nil => exact hLock
  | append_singleton attempts attempt ih =>
      rw [Lock.run_append, Lock.run_singleton, Lock.after]
      split
      · exact ih
      · exact Int.add_nonneg ih (by decide)
      · exact le_rfl

end Attempts

section Refusals

variable [AddCommGroup τ] [LinearOrder τ] (window : ℤ → Option τ)

/-- The lock is open again at the very end of its window. -/
def Lock.closed (lock : Lock τ) (t : τ) : Bool := lock.closedUntil.any (t < ·)

/-- Exactly the attempts that find the lock closed are refused. -/
def Served (lock : Lock τ) : List (Attempt τ) → Prop
  | [] => True
  | attempt :: rest =>
      (attempt.verdict = .refused ↔ lock.closed attempt.time = true) ∧
        Served (lock.after window attempt) rest

/-- In every part of the history without a success, the last of `n` judged
failures comes after the first by their first `n - 1` windows. -/
def FailuresApart (attempts : List (Attempt τ)) : Prop :=
  ∀ before streak rest, attempts = before ++ streak ++ rest →
    (∀ attempt ∈ streak, attempt.verdict ≠ .succeeded) →
      ∀ first last, (failureTimes streak).head? = some first →
        (failureTimes streak).getLast? = some last →
          windows window ((failureTimes streak).length - 1) ≤ last - first

variable {window} {lock : Lock τ} {attempts : List (Attempt τ)} {attempt : Attempt τ}

/-- A run was served exactly when its parts were, the second from the lock that
the first left. -/
theorem served_append {more : List (Attempt τ)} : Served window lock (attempts ++ more) ↔
    Served window lock attempts ∧ Served window (lock.run window attempts) more := by
  induction attempts generalizing lock with
  | nil => simp [Served, Lock.run]
  | cons attempt rest ih =>
      show _ ∧ Served window (lock.after window attempt) (rest ++ more) ↔ _
      rw [ih, ← and_assoc]
      rfl

/-- The last attempt of a served run is refused exactly when the lock is closed
at its time. -/
theorem served_snoc : Served window lock (attempts ++ [attempt]) ↔
    Served window lock attempts ∧ (attempt.verdict = .refused ↔
      (lock.run window attempts).closed attempt.time = true) := by
  rw [served_append]
  simp only [Served, and_true]

/-- After a failure nothing is judged for as long as its window lasts. -/
theorem Lock.fail_opens {t t' : τ} (hOpen : ¬(lock.fail window t).closed t' = true) (hLe : t ≤ t') :
    t + windowOf window (lock.failures + 1) ≤ t' := by
  unfold windowOf
  cases hWindow : window (lock.failures + 1) with
  | none => rwa [Option.getD_none, add_zero]
  | some w => simpa [Lock.closed, Lock.fail, hWindow] using hOpen

/-- Where a streak of attempts has come to: how many were judged, how far apart
the first and the last of them are, and from when on the next one may be. -/
structure Streak (window : ℤ → Option τ) (lock : Lock τ) (times : List τ) : Prop where
  counted : (times.length : ℤ) ≤ lock.failures
  apart : ∀ first last, times.head? = some first → times.getLast? = some last →
    windows window (times.length - 1) ≤ last - first
  opens : ∀ last t, times.getLast? = some last → ¬lock.closed t = true → last ≤ t →
    last + windowOf window times.length ≤ t

variable [IsOrderedAddMonoid τ] (hMono : ∀ i j, i ≤ j → windowOf window i ≤ windowOf window j)

include hMono in
/-- One more failure is judged. -/
theorem Streak.fail {times : List τ} (h : Streak window lock times) {t : τ}
    (hOpen : ¬lock.closed t = true) (hLater : ∀ time ∈ times, time ≤ t) :
    Streak window (lock.fail window t) (times ++ [t]) where
  counted := by
    have := h.counted
    simp only [List.length_append, List.length_singleton, Lock.fail]
    omega
  apart first last hFirst hLast := by
    obtain rfl : t = last := by simpa using hLast
    cases hEnd : times.getLast? with
    | none =>
        obtain rfl : times = [] := List.getLast?_eq_none_iff.mp hEnd
        obtain rfl : t = first := by simpa using hFirst
        simp [windows]
    | some previous =>
        have hMem : previous ∈ times := List.mem_of_getLast? hEnd
        obtain ⟨n, hLength⟩ : ∃ n, times.length = n + 1 :=
          Nat.exists_eq_succ_of_ne_zero (by simp [List.ne_nil_of_mem hMem])
        have hHead : times.head? = some first := by
          rwa [List.head?_append_of_ne_nil _ (List.ne_nil_of_mem hMem)] at hFirst
        have hApart := h.apart first previous hHead hEnd
        have hWindow := h.opens previous t hEnd hOpen (hLater previous hMem)
        simp only [List.length_append, List.length_singleton, hLength,
          Nat.add_sub_cancel] at hApart hWindow ⊢
        calc windows window (n + 1) = windows window n + windowOf window ((n : ℤ) + 1) :=
              Finset.sum_range_succ _ n
          _ ≤ (previous - first) + (t - previous) :=
              add_le_add hApart (le_sub_iff_add_le'.mpr (by exact_mod_cast hWindow))
          _ = t - first := by abel
  opens last t' hLast hStill hLe := by
    obtain rfl : t = last := by simpa using hLast
    have hCount : ((times ++ [t]).length : ℤ) ≤ lock.failures + 1 := by
      have := h.counted
      simp only [List.length_append, List.length_singleton]
      omega
    exact (add_le_add_right (hMono _ _ hCount) t).trans (Lock.fail_opens hStill hLe)

include hMono in
/-- A part of the history without a success, from any lock. -/
theorem streak_of_served {streak : List (Attempt τ)} (hLock : 0 ≤ lock.failures)
    (hServed : Served window lock streak)
    (hSorted : streak.Pairwise fun first second => first.time ≤ second.time)
    (hNone : ∀ attempt ∈ streak, attempt.verdict ≠ .succeeded) :
    Streak window (lock.run window streak) (failureTimes streak) := by
  induction streak using List.reverseRecOn with
  | nil =>
      constructor
      · exact hLock
      · intro first last hFirst
        cases hFirst
      · intro last t hLast
        cases hLast
  | append_singleton streak attempt ih =>
      obtain ⟨hServed, hJudged⟩ := served_snoc.mp hServed
      obtain ⟨hSorted, -, hLater⟩ := List.pairwise_append.mp hSorted
      have ih := ih hServed hSorted fun other hOther => hNone other (List.mem_append_left _ hOther)
      rw [Lock.run_append, Lock.run_singleton, failureTimes_append, Lock.after]
      cases hVerdict : attempt.verdict with
      | refused => simpa [failureTimes, hVerdict] using ih
      | succeeded => exact absurd hVerdict (hNone attempt (by simp))
      | failed =>
          have hOpen : ¬(lock.run window streak).closed attempt.time = true := by
            rw [← hJudged, hVerdict]
            decide
          have hTimes : failureTimes [attempt] = [attempt.time] := by
            simp [failureTimes, hVerdict]
          rw [hTimes]
          apply ih.fail hMono hOpen
          intro time hTime
          obtain ⟨other, hOther, rfl⟩ := List.mem_map.mp hTime
          exact hLater other (List.mem_of_mem_filter hOther) attempt (List.mem_singleton_self _)

include hMono in
/-- The bound over a whole history, whose times do not decrease. -/
theorem failuresApart_of_served (hLock : 0 ≤ lock.failures) (hServed : Served window lock attempts)
    (hSorted : attempts.Pairwise fun first second => first.time ≤ second.time) :
    FailuresApart window attempts := by
  rintro before streak rest rfl hNone
  have hBefore := (served_append.mp hServed).1
  have hSorted := (List.pairwise_append.mp hSorted).1
  apply (streak_of_served hMono (Lock.failures_nonneg hLock) (served_append.mp hBefore).2
    (List.pairwise_append.mp hSorted).2.1 hNone).apart

end Refusals

end Lockouts
