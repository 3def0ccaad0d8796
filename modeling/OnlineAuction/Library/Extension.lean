import OnlineAuction.Library.Contracts

/-! A store with more tables. Programs over the store run over the extended one,
where they leave the added tables as they are, and keep their contracts. -/

namespace RowLocks

abbrev Store.extend (S : Store) (σ : Type) (admits : S.State → σ → Bool) : Store where
  State := S.State × σ
  Key := S.Key
  Time := S.Time
  Note := S.Note
  Error := S.Error
  keyEq := S.keyEq
  hasRow s := S.hasRow s.1
  admits s := S.admits s.1 && admits s.1 s.2
  readable s := S.readable s.1
  observe held t s := (S.observe held t s.1, s.2)

variable {S : Store} {σ α : Type} {admits : S.State → σ → Bool}

def Prog.extend : Prog S α → Prog (S.extend σ admits) α
  | .pure value => .pure value
  | .fail error => .fail error
  | .read note next => .read note fun s => (next s.1).extend
  | .lock key note next => .lock key note fun s => (next s.1).extend
  | .tryLock key note next => .tryLock key note fun s => (next (s.map Prod.fst)).extend
  | .clock note next => .clock note fun t => (next t).extend
  | .update note write next => .update note (fun s => (write s.1, s.2)) next.extend
  | .commit note write next =>
      .commit note (fun s => (write s.1, s.2)) fun done => (next (done.map Prod.fst)).extend

/-- A lookup that raises on `none` extends to itself. -/
theorem Prog.extend_orRaise (value : Option α) (error : S.Error) :
    ((Prog.orRaise value error : Prog S α).extend : Prog (S.extend σ admits) α) =
      Prog.orRaise (S := S.extend σ admits) value error := by
  cases value <;> rfl

theorem Prog.extend_raiseIf (condition : Prop) [Decidable condition] (error : S.Error) :
    ((Prog.raiseIf condition error : Prog S Unit).extend : Prog (S.extend σ admits) Unit) =
      Prog.raiseIf (S := S.extend σ admits) condition error := by
  unfold Prog.raiseIf
  split <;> rfl

/-- The event as the store without the added table has it. -/
def Event.base : Event (S.extend σ admits) → Event S
  | .read note => .read note
  | .lock key note => .lock key note
  | .tryLock key note granted => .tryLock key note granted
  | .clock note time => .clock note time
  | .update note => .update note
  | .commit note => .commit note

namespace Discipline

/-- What the sessions that write the added table keep, and what they may do to it. -/
structure Extension (P : Discipline S) (σ : Type) where
  inv : S.State → σ → Prop
  may : S.State → σ → σ → Prop
  inv_base : ∀ {held d d' x}, P.inv d → P.may held d d' → inv d x → inv d' x
  inv_may : ∀ {d x x'}, P.inv d → inv d x → may d x x' → inv d x'

variable {P : Discipline S}

/-- A session either does what it may without touching the added table, or
writes that table only. -/
def extend (P : Discipline S) (E : P.Extension σ) (admits : S.State → σ → Bool) :
    Discipline (S.extend σ admits) where
  ok s held e := P.ok s.1 held e.base
  inv s := P.inv s.1 ∧ E.inv s.1 s.2
  may held s s' := P.may held s.1 s'.1 ∧ s'.2 = s.2 ∨ s'.1 = s.1 ∧ E.may s.1 s.2 s'.2
  inv_may := by
    rintro held ⟨d, x⟩ ⟨d', x'⟩ ⟨hInv, hTable⟩ (⟨hMay, hSame⟩ | ⟨hSame, hMay⟩)
    · obtain rfl : x' = x := hSame
      exact ⟨P.inv_may hInv hMay, E.inv_base hInv hMay hTable⟩
    · obtain rfl : d' = d := hSame
      exact ⟨hInv, E.inv_may hInv hTable hMay⟩
  may_observe hInv hRead hOk := .inl ⟨P.may_observe hInv.1 hRead hOk, rfl⟩

variable {E : P.Extension σ}

/-- The others do to the store what they may without the added table. -/
theorem Rely.base {held : Held (S.extend σ admits)} {s s' : (S.extend σ admits).State}
    (h : (P.extend E admits).Rely held s s') : P.Rely held s.1 s'.1 := by
  apply h.lift (r := fun s s' : S.State × σ => P.Rely held s.1 s'.1)
  · exact fun _ => .refl
  · exact fun h h' => h.trans h'
  · intro s s' hStep
    obtain ⟨other, hDisjoint, hInv, hMay⟩ := hStep
    rcases hMay with ⟨hMay, _⟩ | ⟨hSame, _⟩
    · exact .single ⟨other, hDisjoint, hInv.1, hMay⟩
    · rw [hSame]
      exact .refl

def Promise.extend (promise : P.Promise) : (P.extend E admits).Promise where
  does e held s s' := promise.does e.base held s.1 s'.1 ∧ s'.2 = s.2
  may_of_does hDoes := .inl ⟨promise.may_of_does hDoes.1, hDoes.2⟩

/-- Over the extended store a program keeps its contract and the added table. -/
theorem wp_extend {promise : P.Promise} {p : Prog S α} {held : Held S}
    {post : α → Held S → S.State → Prop} {d : S.State}
    (h : (P.promising promise).wp p held post d) (x : σ) :
    ((P.extend E admits).promising promise.extend).wp p.extend held
      (fun value held s => post value held s.1) (d, x) := by
  induction p generalizing held d x with
  | pure => exact h
  | fail => trivial
  | read note next ih =>
      intro s hRely hInv hOk
      exact ih s.1 (h s.1 hRely.base hInv.1 hOk) s.2
  | lock key note next ih =>
      intro s hRely hInv hOk
      exact ih s.1 (h s.1 hRely.base hInv.1 hOk) s.2
  | tryLock key note next ih =>
      intro s hRely hInv
      obtain ⟨hRefused, hGranted⟩ := h s.1 hRely.base hInv.1
      exact ⟨fun hOk => ih none (hRefused hOk) s.2, fun hOk => ih (some s.1) (hGranted hOk) s.2⟩
  | clock note next ih =>
      intro s t hRely hInv hRead hOk
      exact ih t (h s.1 t hRely.base hInv.1 hRead hOk) s.2
  | update note write next ih =>
      intro s hRely hInv hOk
      obtain ⟨hDoes, hNext⟩ := h s.1 hRely.base hInv.1 hOk
      exact ⟨⟨hDoes, rfl⟩, ih hNext s.2⟩
  | commit note write next ih =>
      intro s hRely hInv
      obtain ⟨hDone, hFailed⟩ := h s.1 hRely.base hInv.1
      refine ⟨fun hOk => ?_, ih none hFailed s.2⟩
      obtain ⟨hDoes, hNext⟩ := hDone hOk
      exact ⟨⟨hDoes, rfl⟩, ih (some (write s.1)) hNext s.2⟩

end Discipline

end RowLocks
