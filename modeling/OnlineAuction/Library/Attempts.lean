import Mathlib.Tactic.SplitIfs

/-! Programs over a state that may raise, and what holds where they end: one condition
on a return, another on an error. -/

namespace Attempts

/-- A program that changes a state of type `W` and raises errors of type `E`; what it
has done before it raises is done. -/
abbrev Attempt (W E : Type) : Type → Type := ExceptT E (StateM W)

variable {W E α β : Type}

/-- Where the program ends: `returned` holds of the value and the state, or `raised` of
the error and the state. -/
def Ends (p : Attempt W E α) (returned : α → W → Prop) (raised : E → W → Prop) (w : W) : Prop :=
  match p.run.run w with
  | (.ok value, w') => returned value w'
  | (.error error, w') => raised error w'

variable {returned : α → W → Prop} {raised : E → W → Prop} {w : W}

@[simp] theorem ends_pure (value : α) :
    Ends (pure value : Attempt W E α) returned raised w ↔ returned value w := Iff.rfl

@[simp] theorem ends_throw (error : E) :
    Ends (throw error : Attempt W E α) returned raised w ↔ raised error w := Iff.rfl

@[simp] theorem ends_get {returned : W → W → Prop} :
    Ends (get : Attempt W E W) returned raised w ↔ returned w w := Iff.rfl

@[simp] theorem ends_modify (f : W → W) {returned : PUnit → W → Prop} :
    Ends (modify f : Attempt W E PUnit) returned raised w ↔ returned ⟨⟩ (f w) := Iff.rfl

/-- The rule of sequence: the second attempt starts from what the first
returned, and an error of the first is the error of both. -/
@[simp] theorem ends_bind (p : Attempt W E α) (next : α → Attempt W E β)
    {returned : β → W → Prop} :
    Ends (p >>= next) returned raised w ↔
      Ends p (fun value => Ends (next value) returned raised) raised w := by
  have hRun : (p >>= next).run.run w =
      (ExceptT.bindCont next (p.run.run w).1).run (p.run.run w).2 := rfl
  unfold Ends
  rw [hRun]
  rcases p.run.run w with ⟨error | value, w'⟩ <;> rfl

@[simp] theorem ends_map (f : α → β) (p : Attempt W E α) {returned : β → W → Prop} :
    Ends (f <$> p) returned raised w ↔ Ends p (fun value => returned (f value)) raised w := by
  rw [map_eq_pure_bind, ends_bind]
  rfl

/-- An error of the program is handed to the handler, in the state in which it was raised. -/
@[simp] theorem ends_tryCatch (p : Attempt W E α) (handler : E → Attempt W E α) :
    Ends (tryCatch p handler) returned raised w ↔
      Ends p returned (fun error => Ends (handler error) returned raised) w := by
  have hRun : (tryCatch p handler).run.run w =
      (match (p.run.run w).1 with
        | .ok value => pure (.ok value)
        | .error error => (handler error).run : StateM W (Except E α)).run (p.run.run w).2 := rfl
  unfold Ends
  rw [hRun]
  rcases p.run.run w with ⟨error | value, w'⟩ <;> rfl

def raiseIf (condition : Prop) [Decidable condition] (error : E) : Attempt W E PUnit :=
  if condition then throw error else pure ⟨⟩

def orRaise (value : Option α) (error : E) : Attempt W E α :=
  match value with
  | some value => pure value
  | none => throw error

/-- A guard raises exactly when its condition holds and changes nothing. -/
@[simp] theorem ends_raiseIf (condition : Prop) [Decidable condition] (error : E)
    {returned : PUnit → W → Prop} :
    Ends (raiseIf condition error : Attempt W E PUnit) returned raised w ↔
      if condition then raised error w else returned ⟨⟩ w := by
  unfold raiseIf
  split_ifs <;> rfl

@[simp] theorem ends_orRaise_some (value : α) (error : E) :
    Ends (orRaise (some value) error : Attempt W E α) returned raised w ↔ returned value w :=
  Iff.rfl

@[simp] theorem ends_orRaise_none (error : E) :
    Ends (orRaise none error : Attempt W E α) returned raised w ↔ raised error w := Iff.rfl

/-- The rule of consequence. -/
theorem Ends.mono {p : Attempt W E α} {returned' : α → W → Prop} {raised' : E → W → Prop}
    (h : Ends p returned raised w) (hReturned : ∀ value w, returned value w → returned' value w)
    (hRaised : ∀ error w, raised error w → raised' error w) : Ends p returned' raised' w := by
  unfold Ends at h ⊢
  generalize p.run.run w = result at h ⊢
  rcases result with ⟨error | value, w'⟩
  · exact hRaised _ _ h
  · exact hReturned _ _ h

/-- A program ends in one way only. -/
theorem Ends.and {p : Attempt W E α} {returned' : α → W → Prop} {raised' : E → W → Prop}
    (h : Ends p returned raised w) (h' : Ends p returned' raised' w) :
    Ends p (fun value w => returned value w ∧ returned' value w)
      (fun error w => raised error w ∧ raised' error w) w := by
  unfold Ends at h h' ⊢
  generalize p.run.run w = result at h h' ⊢
  rcases result with ⟨error | value, w'⟩
  · exact ⟨h, h'⟩
  · exact ⟨h, h'⟩

/-- A program ends in one way at least. -/
theorem Ends.elim {p : Attempt W E α} {goal : Prop} (h : Ends p returned raised w)
    (hReturned : ∀ value w, returned value w → goal)
    (hRaised : ∀ error w, raised error w → goal) : goal := by
  unfold Ends at h
  generalize p.run.run w = result at h
  rcases result with ⟨error | value, w'⟩
  · exact hRaised _ _ h
  · exact hReturned _ _ h

def Keeps (kept : W → Prop) (p : Attempt W E α) : Prop :=
  ∀ w, kept w → Ends p (fun _ => kept) (fun _ => kept) w

variable {kept : W → Prop}

theorem keeps_pure (value : α) : Keeps kept (pure value : Attempt W E α) := fun _ h => h

theorem keeps_get : Keeps kept (get : Attempt W E W) := fun _ h => h

/-- An attempt to change the state keeps what the change keeps. -/
theorem keeps_modify {f : W → W} (h : ∀ w, kept w → kept (f w)) :
    Keeps kept (modify f : Attempt W E PUnit) := h

theorem keeps_raiseIf (condition : Prop) [Decidable condition] (error : E) :
    Keeps kept (raiseIf condition error : Attempt W E PUnit) := by
  intro w h
  rw [ends_raiseIf]
  split_ifs
  · exact h
  · exact h

theorem keeps_orRaise (value : Option α) (error : E) :
    Keeps kept (orRaise value error : Attempt W E α) := by
  cases value with
  | none => exact fun _ h => h
  | some value => exact fun _ h => h

/-- What both parts keep, the sequence keeps, whichever of them raises. -/
theorem Keeps.bind {p : Attempt W E α} {next : α → Attempt W E β} (h : Keeps kept p)
    (hNext : ∀ value, Keeps kept (next value)) : Keeps kept (p >>= next) := by
  intro w hKept
  rw [ends_bind]
  exact (h w hKept).mono (fun value w' => hNext value w') fun _ _ hKept => hKept

/-- What the attempt and its handler keep, the guarded attempt keeps. -/
theorem Keeps.tryCatch {p : Attempt W E α} {handler : E → Attempt W E α} (h : Keeps kept p)
    (hHandler : ∀ error, Keeps kept (handler error)) : Keeps kept (tryCatch p handler) := by
  intro w hKept
  rw [ends_tryCatch]
  exact (h w hKept).mono (fun _ _ hKept => hKept) fun error w' => hHandler error w'

def left (p : Attempt W E α) (w : W) : W := (p.run.run w).2

/-- Where the same holds of a return and of an error, only the state that is
left counts. -/
theorem ends_iff_left (kept : W → Prop) (p : Attempt W E α) (w : W) :
    Ends p (fun _ => kept) (fun _ => kept) w ↔ kept (left p w) := by
  unfold Ends left
  rcases p.run.run w with ⟨error | value, w'⟩ <;> rfl

variable {Req : Type}

/-- The state that the requests leave, handled in order whether they fail or not. -/
def leftBy (handle : Req → Attempt W E α) : W → List Req → W :=
  List.foldl fun w request => left (handle request) w

/-- What each request keeps under a condition alone is kept throughout a run
when, and only when, all requests of the run meet the condition. -/
theorem kept_throughout_iff (kept : W → Prop) (spares : W → Req → Prop)
    {handle : Req → Attempt W E α}
    (hStep : ∀ w request, kept w → (kept (left (handle request) w) ↔ spares w request))
    (hKept : kept w) (requests : List Req) :
    (∀ n, kept (leftBy handle w (requests.take n))) ↔
      ∀ n request, requests[n]? = some request →
        spares (leftBy handle w (requests.take n)) request := by
  induction requests generalizing w with
  | nil => simpa [leftBy] using hKept
  | cons first rest ih =>
      constructor
      · intro hAll
        have hFirst : kept (left (handle first) w) := hAll 1
        intro n request hRequest
        cases n with
        | zero =>
            obtain rfl := Option.some.inj hRequest
            exact (hStep w first hKept).mp hFirst
        | succ n => exact (ih hFirst).mp (fun n => hAll (n + 1)) n request hRequest
      · intro hSpares
        have hFirst := (hStep w first hKept).mpr (hSpares 0 first rfl)
        intro n
        cases n with
        | zero => exact hKept
        | succ n => exact (ih hFirst).mpr (fun n request => hSpares (n + 1) request) n

end Attempts
