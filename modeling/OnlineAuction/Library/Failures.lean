import OnlineAuction.Library.RowLocks

/-! The errors a program may end with when none of its commits fails. -/

namespace RowLocks

variable {S : Store} {α β : Type}

namespace Prog

/-- Unless a commit fails, the program raises only errors of this kind. -/
def Raises (allowed : S.Error → Prop) : Prog S α → Prop
  | .pure _ => True
  | .fail error => allowed error
  | .read _ next => ∀ d, (next d).Raises allowed
  | .lock _ _ next => ∀ d, (next d).Raises allowed
  | .tryLock _ _ next => ∀ answer, (next answer).Raises allowed
  | .clock _ next => ∀ t, (next t).Raises allowed
  | .update _ _ next => next.Raises allowed
  | .commit _ _ next => ∀ d, (next (some d)).Raises allowed

variable {allowed : S.Error → Prop}

theorem Raises.bind {p : Prog S α} {f : α → Prog S β} (h : p.Raises allowed)
    (hNext : ∀ value, (f value).Raises allowed) : (p >>= f).Raises allowed := by
  show (p.bind f).Raises allowed
  induction p with
  | pure value => exact hNext value
  | fail => exact h
  | read note next ih => exact fun d => ih d (h d)
  | lock key note next ih => exact fun d => ih d (h d)
  | tryLock key note next ih => exact fun answer => ih answer (h answer)
  | clock note next ih => exact fun t => ih t (h t)
  | update note write next ih => exact ih h
  | commit note write next ih => exact fun d => ih (some d) (h d)

theorem raises_raiseIf (condition : Prop) [Decidable condition] {error : S.Error}
    (h : allowed error) : (raiseIf condition error).Raises allowed := by
  unfold raiseIf
  split_ifs
  · exact h
  · trivial

/-- A lookup raises at most the error it was given. -/
theorem raises_orRaise (value : Option α) {error : S.Error} (h : allowed error) :
    (orRaise value error).Raises allowed := by
  cases value with
  | none => exact h
  | some value => trivial

end Prog

end RowLocks
