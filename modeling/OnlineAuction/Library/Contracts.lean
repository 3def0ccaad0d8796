import OnlineAuction.Library.RowLocks

/-! Rely and guarantee reasoning for row-locked sessions. A discipline says
what one atomic write may do, given the locks held. Each program is checked
once against the interference of sessions that hold other locks; every
interleaving of checked programs then keeps the invariant. -/

namespace RowLocks

variable {S : Store} {α β Req : Type}

/-- `may held d d'` is what any session holding `held` is allowed to do to the
store in one step, and `does e held d d'` what the session at hand does in the
write that is this event. -/
structure Discipline (S : Store) where
  ok : Guard S
  inv : S.State → Prop
  may : Held S → S.State → S.State → Prop
  does : Event S → Held S → S.State → S.State → Prop := fun _ => may
  inv_may : ∀ {held d d'}, inv d → may held d d' → inv d'
  may_observe : ∀ {held d note t}, inv d → S.readable d t = true → ok d held (.clock note t) →
    may held d (S.observe held t d)
  may_of_does : ∀ {e held d d'}, does e held d d' → may held d d' := by exact fun h => h

namespace Discipline

variable (P : Discipline S)

/-- One step of a session whose locks are disjoint from `held`. -/
def Interferes (held : Held S) (d d' : S.State) : Prop :=
  ∃ other : Held S, (∀ key, held key = true → other key = false) ∧ P.inv d ∧ P.may other d d'

def Rely (held : Held S) : S.State → S.State → Prop :=
  Relation.ReflTransGen (P.Interferes held)

variable {P} in
theorem Rely.inv {held : Held S} {d d' : S.State} (h : P.Rely held d d') (hInv : P.inv d) :
    P.inv d' := by
  induction h with
  | refl => exact hInv
  | tail _ last ih =>
      obtain ⟨_, _, hMiddle, hMay⟩ := last
      exact P.inv_may hMiddle hMay

variable {P} in
/-- A relation that every interfering step respects is respected by any
number of them. -/
theorem Rely.lift {held : Held S} {r : S.State → S.State → Prop}
    (hRefl : ∀ d, r d d) (hTrans : ∀ {a b c}, r a b → r b c → r a c)
    (hStep : ∀ {d d'}, P.Interferes held d d' → r d d')
    {d d' : S.State} (h : P.Rely held d d') : r d d' := by
  induction h with
  | refl => exact hRefl d
  | tail _ last ih => exact hTrans ih (hStep last)

variable {P} in
/-- Fewer locks protect from less interference. -/
theorem Rely.weaken {held held' : Held S} (hSub : ∀ key, held key = true → held' key = true)
    {d d' : S.State} (h : P.Rely held' d d') : P.Rely held d d' := by
  refine Relation.ReflTransGen.mono (fun a b hStep => ?_) _ _ h
  obtain ⟨other, hDisjoint, hInv, hMay⟩ := hStep
  exact ⟨other, fun key hKey => hDisjoint key (hSub key hKey), hInv, hMay⟩

/-- The program may start at `d` holding `held`: whatever the others do, each
of its writes is allowed, and it returns only with `post`. -/
def wp : Prog S α → Held S → (α → Held S → S.State → Prop) → S.State → Prop
  | .pure value, held, post, d => post value held d
  | .fail _, _, _, _ => True
  | .read note next, held, post, d => ∀ d', P.Rely held d d' → P.inv d' →
      P.ok d' held (.read note) → wp (next d') held post d'
  | .lock key note next, held, post, d => ∀ d', P.Rely held d d' → P.inv d' →
      P.ok d' held (.lock key note) → wp (next d') (held.grant d' key) post d'
  | .tryLock key note next, held, post, d => ∀ d', P.Rely held d d' → P.inv d' →
      (P.ok d' held (.tryLock key note false) → wp (next none) held post d') ∧
      (P.ok d' held (.tryLock key note true) → wp (next (some d')) (held.grant d' key) post d')
  | .clock note next, held, post, d => ∀ d' t, P.Rely held d d' → P.inv d' →
      S.readable d' t = true → P.ok d' held (.clock note t) →
      wp (next t) held post (S.observe held t d')
  | .update note write next, held, post, d => ∀ d', P.Rely held d d' → P.inv d' →
      P.ok d' held (.update note) →
        P.does (.update note) held d' (write d') ∧ wp next held post (write d')
  | .commit note write next, held, post, d => ∀ d', P.Rely held d d' → P.inv d' →
      (P.ok d' held (.commit note) →
        P.does (.commit note) held d' (write d') ∧
          wp (next (some (write d'))) Held.none post (write d')) ∧
      wp (next none) Held.none post d'

@[simp] theorem wp_pure (value : α) (held : Held S) (post : α → Held S → S.State → Prop)
    (d : S.State) : P.wp (pure value) held post d ↔ post value held d := Iff.rfl

/-- A program that fails meets every contract: its transaction is rolled back. -/
@[simp] theorem wp_fail (error : S.Error) (held : Held S)
    (post : α → Held S → S.State → Prop) (d : S.State) : P.wp (.fail error) held post d ↔ True :=
  Iff.rfl

/-- The rule of sequence, as an equation between preconditions. -/
theorem wp_bind_eq (p : Prog S α) (f : α → Prog S β) (held : Held S)
    (post : β → Held S → S.State → Prop) (d : S.State) :
    P.wp (p.bind f) held post d =
      P.wp p held (fun value held' d' => P.wp (f value) held' post d') d := by
  induction p generalizing held d with
  | pure => rfl
  | fail => rfl
  | read note next ih => simp only [Prog.bind, wp, ih]
  | lock key note next ih => simp only [Prog.bind, wp, ih]
  | tryLock key note next ih => simp only [Prog.bind, wp, ih]
  | clock note next ih => simp only [Prog.bind, wp, ih]
  | update note write next ih => simp only [Prog.bind, wp, ih]
  | commit note write next ih => simp only [Prog.bind, wp, ih]

/-- The rule of sequence. -/
@[simp] theorem wp_bind (p : Prog S α) (f : α → Prog S β) (held : Held S)
    (post : β → Held S → S.State → Prop) (d : S.State) :
    P.wp (p >>= f) held post d ↔
      P.wp p held (fun value held' d' => P.wp (f value) held' post d') d :=
  Iff.of_eq (P.wp_bind_eq p f held post d)

@[simp] theorem wp_raiseIf (condition : Prop) [Decidable condition] (error : S.Error)
    (held : Held S) (post : Unit → Held S → S.State → Prop) (d : S.State) :
    P.wp (Prog.raiseIf condition error) held post d ↔ (¬condition → post () held d) := by
  unfold Prog.raiseIf
  split_ifs with h
  · simp [h]
  · simp only [h, not_false_eq_true, forall_const]
    exact Iff.rfl

/-- After a lookup that raises on `none` the value is there. -/
@[simp] theorem wp_orRaise (value : Option α) (error : S.Error) (held : Held S)
    (post : α → Held S → S.State → Prop) (d : S.State) :
    P.wp (Prog.orRaise value error) held post d ↔ ∀ a, value = some a → post a held d := by
  cases value with
  | none => simp [Prog.orRaise]
  | some a =>
      simp only [Prog.orRaise, Option.some.injEq, forall_eq']
      exact Iff.rfl

/-- After a computation that may raise its value is there. -/
@[simp] theorem wp_ofExcept (value : Except S.Error α) (held : Held S)
    (post : α → Held S → S.State → Prop) (d : S.State) :
    P.wp (Prog.ofExcept value) held post d ↔ ∀ a, value = .ok a → post a held d := by
  cases value with
  | error e => simp [Prog.ofExcept]
  | ok a =>
      simp only [Prog.ofExcept, Except.ok.injEq, forall_eq']
      exact Iff.rfl

/-- The contract does not depend on when, within the others' steps, the
program is resumed. -/
theorem wp_rely {p : Prog S α} {held : Held S} {post : α → Held S → S.State → Prop}
    (hPost : ∀ {value d d'}, P.Rely held d d' → post value held d → post value held d')
    {d d' : S.State} (h : P.wp p held post d) (hRely : P.Rely held d d') :
    P.wp p held post d' := by
  cases p with
  | pure value => exact hPost hRely h
  | fail => trivial
  | read => exact fun e he => h e (hRely.trans he)
  | lock => exact fun e he => h e (hRely.trans he)
  | tryLock => exact fun e he => h e (hRely.trans he)
  | clock => exact fun e t he => h e t (hRely.trans he)
  | update => exact fun e he => h e (hRely.trans he)
  | commit => exact fun e he => h e (hRely.trans he)

def Safe (p : Prog S Unit) (held : Held S) (d : S.State) : Prop :=
  P.wp p held (fun _ _ _ => True) d

variable {P} in
/-- A safe session stays safe while the others run. -/
theorem Safe.rely {p : Prog S Unit} {held : Held S} {d d' : S.State} (h : P.Safe p held d)
    (hRely : P.Rely held d d') : P.Safe p held d' :=
  P.wp_rely (fun _ _ => trivial) h hRely

/-- What the sessions of one kind do, within what every session may do. -/
structure Promise where
  does : Event S → Held S → S.State → S.State → Prop
  may_of_does : ∀ {e held d d'}, does e held d d' → P.may held d d'

/-- The discipline as a session that makes the promise sees it: the others may
do what they may, as before. -/
def promising (promise : P.Promise) : Discipline S :=
  { P with does := promise.does, may_of_does := promise.may_of_does }

/-- The promise of a session about which nothing more is known. -/
def own : P.Promise := ⟨P.does, P.may_of_does⟩

variable {P} in
/-- A program that keeps a promise does no more than the discipline says. -/
theorem wp_of_promising {promise : P.Promise}
    (hWeaker : ∀ {e held d d'}, promise.does e held d d' → P.does e held d d')
    {p : Prog S α} {held : Held S} {post : α → Held S → S.State → Prop} {d : S.State}
    (h : (P.promising promise).wp p held post d) : P.wp p held post d := by
  induction p generalizing held d with
  | pure => exact h
  | fail => trivial
  | read note next ih => exact fun e hRely hInv hOk => ih e (h e hRely hInv hOk)
  | lock key note next ih => exact fun e hRely hInv hOk => ih e (h e hRely hInv hOk)
  | tryLock key note next ih =>
      intro e hRely hInv
      obtain ⟨hRefused, hGranted⟩ := h e hRely hInv
      exact ⟨fun hOk => ih none (hRefused hOk), fun hOk => ih (some e) (hGranted hOk)⟩
  | clock note next ih =>
      exact fun e t hRely hInv hRead hOk => ih t (h e t hRely hInv hRead hOk)
  | update note write next ih =>
      intro e hRely hInv hOk
      obtain ⟨hDoes, hNext⟩ := h e hRely hInv hOk
      exact ⟨hWeaker hDoes, ih hNext⟩
  | commit note write next ih =>
      intro e hRely hInv
      obtain ⟨hDone, hFailed⟩ := h e hRely hInv
      refine ⟨fun hOk => ?_, ih none hFailed⟩
      obtain ⟨hDoes, hNext⟩ := hDone hOk
      exact ⟨hWeaker hDoes, ih (some (write e)) hNext⟩

variable (promise : Req → P.Promise)

/-- Every session in progress may run on, holding the locks it holds, and keeps
the promise of the request it serves. -/
structure Valid (requests : Nat → Option Req) (c : Config S) : Prop where
  inv : P.inv c.db
  safe : ∀ sid p, c.sessions sid = some p → ∃ request, requests sid = some request ∧
    (P.promising (promise request)).Safe p (c.held sid) c.db
  idle : ∀ sid, c.sessions sid = none → c.held sid = Held.none

/-- The stores before and after an action: as they were, after a clock reading,
or after a write that the session has promised. -/
inductive Outcome (requests : Nat → Option Req) (c c' : Config S) : Action S Req → Prop where
  | quiet {a : Action S Req} (hSame : c'.db = c.db) (hWritten : written c a = none) :
      Outcome requests c c' a
  | observed {sid : Nat} {time : S.Time} {note : S.Note}
      (hEvent : eventOf c (.clock sid time : Action S Req) = some (sid, .clock note time))
      (hDb : c'.db = S.observe (c.held sid) time c.db)
      (hMay : P.may (c.held sid) c.db c'.db) : Outcome requests c c' (.clock sid time)
  | updated {sid : Nat} {note : S.Note} {request : Req}
      (hWritten : written c (.step sid : Action S Req) = some (sid, .update note))
      (hRequest : requests sid = some request)
      (hDoes : (promise request).does (.update note) (c.held sid) c.db c'.db) :
      Outcome requests c c' (.step sid)
  | committed {sid : Nat} {note : S.Note} {request : Req}
      (hWritten : written c (.step sid : Action S Req) = some (sid, .commit note))
      (hRequest : requests sid = some request)
      (hDoes : (promise request).does (.commit note) (c.held sid) c.db c'.db) :
      Outcome requests c c' (.step sid)

end Discipline

theorem Held.grant_sub (held : Held S) (d : S.State) (key : S.Key) {k : S.Key}
    (h : held k = true) : held.grant d key k = true := by
  simp [Held.grant, h]

theorem Held.grant_self (held : Held S) {d : S.State} {key : S.Key} (h : S.hasRow d key = true) :
    held.grant d key key = true := by
  simp [Held.grant, h]

theorem Config.held_disjoint (c : Config S) {sid other : Nat} (h : other ≠ sid) (key : S.Key)
    (hKey : c.held other key = true) : c.held sid key = false := by
  simp only [Config.held, decide_eq_true_eq, decide_eq_false_iff_not] at hKey ⊢
  rw [hKey]
  simpa using h

/-- What a session holds is read off the locks alone. -/
theorem Config.held_congr {c c' : Config S} (h : c'.locks = c.locks) (sid : Nat) :
    c'.held sid = c.held sid := by
  unfold Config.held
  rw [h]

theorem Config.held_release_self (c : Config S) (sid : Nat) (d : S.State)
    (sessions : Nat → Option (Prog S Unit)) :
    (Config.mk d (c.release sid) sessions).held sid = Held.none := by
  funext key
  by_cases h : c.locks key = some sid <;> simp [Config.held, Config.release, Held.none, h]

/-- A release leaves the rows of the others held. -/
theorem Config.held_release_other (c : Config S) {sid other : Nat} (h : other ≠ sid)
    (d : S.State) (sessions : Nat → Option (Prog S Unit)) :
    (Config.mk d (c.release sid) sessions).held other = c.held other := by
  funext key
  by_cases hSid : c.locks key = some sid
  · simp [Config.held, Config.release, hSid, Ne.symm h]
  · simp [Config.held, Config.release, hSid]

/-- A grant adds the row to those of the session that asked for it. -/
theorem Config.held_grant_self (c : Config S) (sid : Nat) (key : S.Key)
    (sessions : Nat → Option (Prog S Unit)) :
    (Config.mk c.db (c.grant sid key) sessions).held sid = (c.held sid).grant c.db key := by
  funext k
  by_cases hRow : S.hasRow c.db key && decide (k = key)
  · simp [Config.held, Config.grant, Held.grant, hRow]
  · simp [Config.held, Config.grant, Held.grant, hRow]

/-- A grant of a free row takes nothing from the others. -/
theorem Config.held_grant_other (c : Config S) {sid other : Nat} (h : other ≠ sid) {key : S.Key}
    (hFree : c.free sid key = true) (sessions : Nat → Option (Prog S Unit)) :
    (Config.mk c.db (c.grant sid key) sessions).held other = c.held other := by
  funext k
  by_cases hRow : S.hasRow c.db key && decide (k = key)
  · have hKey : k = key := by simpa using (Bool.and_eq_true_iff.mp hRow).2
    subst hKey
    simp only [Config.free, Bool.or_eq_true, decide_eq_true_eq] at hFree
    rcases hFree with hNone | hMine
    · simp [Config.held, Config.grant, hNone, Ne.symm h]
    · simp [Config.held, Config.grant, hMine, Ne.symm h]
  · simp [Config.held, Config.grant, hRow]

namespace Discipline

variable {P : Discipline S} {promise : Req → P.Promise} {requests : Nat → Option Req}

/-- A step leaves the state alone or changes it as some holder of rows may. -/
theorem Outcome.may {c c' : Config S} {a : Action S Req}
    (h : P.Outcome promise requests c c' a) : c'.db = c.db ∨ ∃ held, P.may held c.db c'.db := by
  cases h with
  | quiet hSame => exact .inl hSame
  | observed _ _ hMay => exact .inr ⟨_, hMay⟩
  | updated _ _ hDoes => exact .inr ⟨_, (promise _).may_of_does hDoes⟩
  | committed _ _ hDoes => exact .inr ⟨_, (promise _).may_of_does hDoes⟩

/-- To every other session an action is interference. -/
theorem Outcome.rely {c c' : Config S} {a : Action S Req}
    (h : P.Outcome promise requests c c' a) (hInv : P.inv c.db) {other : Nat}
    (hOther : other ≠ a.session) : P.Rely (c.held other) c.db c'.db := by
  have hMay (hMay : P.may (c.held a.session) c.db c'.db) : P.Rely (c.held other) c.db c'.db :=
    .single ⟨c.held a.session, c.held_disjoint hOther, hInv, hMay⟩
  cases h with
  | quiet hSame =>
      rw [hSame]
      exact .refl
  | observed _ _ hDoes => exact hMay hDoes
  | updated _ _ hDoes => exact hMay ((promise _).may_of_does hDoes)
  | committed _ _ hDoes => exact hMay ((promise _).may_of_does hDoes)

/-- Nothing interferes with the store in a step of `sid` beyond what its
locks allow, so the other sessions may still run on. -/
theorem Valid.others {c : Config S} (hValid : P.Valid promise requests c) {sid other : Nat}
    (hOther : other ≠ sid) {db : S.State} (hMay : db = c.db ∨ P.may (c.held sid) c.db db)
    {q : Prog S Unit} (hq : c.sessions other = some q) :
    ∃ request, requests other = some request ∧
      (P.promising (promise request)).Safe q (c.held other) db := by
  obtain ⟨request, hRequest, hSafe⟩ := hValid.safe other q hq
  refine ⟨request, hRequest, ?_⟩
  rcases hMay with rfl | hMay
  · exact hSafe
  · exact hSafe.rely (Relation.ReflTransGen.single
      ⟨c.held sid, c.held_disjoint hOther, hValid.inv, hMay⟩)

/-- A step that leaves session `sid` at `next`, under a changed store and
changed locks of its own. -/
theorem Valid.after {c c' : Config S} (hValid : P.Valid promise requests c) (sid : Nat)
    {requests' : Nat → Option Req} {next : Option (Prog S Unit)}
    (hMay : c'.db = c.db ∨ P.may (c.held sid) c.db c'.db)
    (hSessions : c'.sessions = Function.update c.sessions sid next)
    (hLocks : ∀ other, other ≠ sid → c'.held other = c.held other)
    (hRequests : ∀ other, other ≠ sid → requests' other = requests other)
    (hSafe : ∀ p, next = some p → ∃ request, requests' sid = some request ∧
      (P.promising (promise request)).Safe p (c'.held sid) c'.db)
    (hIdle : next = none → c'.held sid = Held.none) : P.Valid promise requests' c' := by
  refine ⟨?_, fun other q hq => ?_, fun other hq => ?_⟩
  · rcases hMay with hSame | hMay
    · exact hSame ▸ hValid.inv
    · exact P.inv_may hValid.inv hMay
  · by_cases hOther : other = sid
    · subst hOther
      exact hSafe q (by simpa [hSessions] using hq)
    · rw [hLocks other hOther, hRequests other hOther]
      exact hValid.others hOther hMay (by simpa [hSessions, hOther] using hq)
  · by_cases hOther : other = sid
    · subst hOther
      exact hIdle (by simpa [hSessions] using hq)
    · rw [hLocks other hOther]
      exact hValid.idle other (by simpa [hSessions, hOther] using hq)

section Advance

variable {program : Req → Prog S Unit} {c c' : Config S} {sid : Nat}

/-- One effect of a session in progress. -/
theorem Valid.step (hValid : P.Valid promise requests c)
    (moves : RowLocks.advance program c (.step sid) = some c')
    (meets : Meets P.ok c (.step sid : Action S Req)) :
    P.Valid promise requests c' ∧ P.Outcome promise requests c c' (.step sid) := by
  cases hs : c.sessions sid with
  | none => simp [RowLocks.advance, hs] at moves
  | some p =>
      obtain ⟨request, hRequest, hSafe⟩ := hValid.safe sid p hs
      have hOk : ∀ e, eventOf c (.step sid : Action S Req) = some (sid, e) →
          P.ok c.db (c.held sid) e := meets sid
      simp only [eventOf, hs] at hOk
      have hAfter {db : S.State} {locks : S.Key → Option Nat} {next : Prog S Unit}
          (hMay : db = c.db ∨ P.may (c.held sid) c.db db)
          (hLocks : ∀ other, other ≠ sid →
            (Config.mk db locks (c.resume sid next)).held other = c.held other)
          (hNext : (P.promising (promise request)).Safe next
            ((Config.mk db locks (c.resume sid next)).held sid) db) :
          P.Valid promise requests ⟨db, locks, c.resume sid next⟩ := by
        refine hValid.after sid hMay rfl hLocks (fun _ _ => rfl) (fun p hp => ?_) (by simp)
        obtain rfl := Option.some.inj hp
        exact ⟨request, hRequest, hNext⟩
      cases p with
      | pure => simp [RowLocks.advance, hs] at moves
      | fail => simp [RowLocks.advance, hs] at moves
      | clock => simp [RowLocks.advance, hs] at moves
      | read note next =>
          simp only [RowLocks.advance, hs, Option.some.injEq] at moves
          subst moves
          refine ⟨hAfter (.inl rfl) (fun _ _ => rfl) ?_, .quiet rfl (by simp [written, hs])⟩
          exact hSafe c.db .refl hValid.inv (hOk _ rfl)
      | lock key note next =>
          simp only [RowLocks.advance, hs, Option.ite_none_right_eq_some,
            Option.some.injEq] at moves
          obtain ⟨hFree, rfl⟩ := moves
          refine ⟨hAfter (.inl rfl) (fun _ hOther => c.held_grant_other hOther hFree _) ?_,
            .quiet rfl (by simp [written, hs])⟩
          rw [c.held_grant_self]
          exact hSafe c.db .refl hValid.inv (hOk _ rfl)
      | tryLock key note next =>
          simp only [RowLocks.advance, hs] at moves
          split_ifs at moves with hFree <;> obtain rfl := Option.some.inj moves
          · refine ⟨hAfter (.inl rfl) (fun _ hOther => c.held_grant_other hOther hFree _) ?_,
              .quiet rfl (by simp [written, hs])⟩
            rw [c.held_grant_self]
            have hGranted : P.ok c.db (c.held sid) (.tryLock key note (c.free sid key)) :=
              hOk _ rfl
            rw [hFree] at hGranted
            exact (hSafe c.db .refl hValid.inv).2 hGranted
          · refine ⟨hAfter (.inl rfl) (fun _ _ => rfl) ?_, .quiet rfl (by simp [written, hs])⟩
            have hRefused : P.ok c.db (c.held sid) (.tryLock key note (c.free sid key)) :=
              hOk _ rfl
            rw [Bool.eq_false_iff.mpr hFree] at hRefused
            exact (hSafe c.db .refl hValid.inv).1 hRefused
      | update note write next =>
          simp only [RowLocks.advance, hs, Option.some.injEq] at moves
          subst moves
          obtain ⟨hDoes, hNext⟩ := hSafe c.db .refl hValid.inv (hOk _ rfl)
          refine ⟨hAfter (.inr ((promise request).may_of_does hDoes)) (fun _ _ => rfl) hNext, ?_⟩
          exact .updated (by simp [written, hs]) hRequest hDoes
      | commit note write next =>
          obtain ⟨hDone, hFailed⟩ := hSafe c.db .refl hValid.inv
          simp only [RowLocks.advance, hs] at moves
          split_ifs at moves with hAdmits <;> obtain rfl := Option.some.inj moves
          · obtain ⟨hDoes, hDone⟩ := hDone (hOk _ rfl)
            refine ⟨hAfter (.inr ((promise request).may_of_does hDoes))
              (fun _ hOther => c.held_release_other hOther _ _) ?_,
              .committed (by simp [written, hs, hAdmits]) hRequest hDoes⟩
            rw [c.held_release_self]
            exact hDone
          · refine ⟨hAfter (.inl rfl) (fun _ hOther => c.held_release_other hOther _ _) ?_,
              .quiet rfl (by simp [written, hs, hAdmits])⟩
            rw [c.held_release_self]
            exact hFailed

/-- One action of any session makes at most one promised write and keeps every
session safe, provided each request starts with a program that keeps its promise. -/
theorem Valid.advance
    (hProgram : ∀ request d, P.inv d →
      (P.promising (promise request)).Safe (program request) Held.none d)
    (hValid : P.Valid promise requests c) {a : Action S Req}
    (moves : RowLocks.advance program c a = some c') (meets : Meets P.ok c a) :
    P.Valid promise (serving requests a) c' ∧ P.Outcome promise requests c c' a := by
  cases a with
  | start sid request =>
      simp only [RowLocks.advance, Option.ite_none_right_eq_some, Option.some.injEq] at moves
      obtain ⟨hNone, rfl⟩ := moves
      refine ⟨hValid.after sid (.inl rfl) rfl (fun _ _ => rfl) (fun other hOther => ?_)
        (fun p hp => ?_) (by simp), .quiet rfl rfl⟩
      · exact Function.update_of_ne hOther _ _
      · have hHeld : c.held sid = Held.none := hValid.idle sid (by simpa using hNone)
        obtain rfl := Option.some.inj hp
        refine ⟨request, Function.update_self .., ?_⟩
        show (P.promising (promise request)).Safe _ (c.held sid) c.db
        rw [hHeld]
        exact hProgram request c.db hValid.inv
  | step sid => exact hValid.step moves meets
  | clock sid time =>
      cases hs : c.sessions sid with
      | none => simp [RowLocks.advance, hs] at moves
      | some p =>
          cases p with
          | clock note next =>
              simp only [RowLocks.advance, hs, Option.ite_none_right_eq_some,
                Option.some.injEq] at moves
              obtain ⟨hRead, rfl⟩ := moves
              have hEvent : eventOf c (.clock sid time : Action S Req) =
                  some (sid, .clock note time) := by simp [eventOf, hs]
              have hOk := meets sid _ hEvent
              have hMay := P.may_observe hValid.inv hRead hOk
              refine ⟨hValid.after sid (.inr hMay) rfl (fun _ _ => rfl) (fun _ _ => rfl)
                (fun p hp => ?_) (by simp), .observed hEvent rfl hMay⟩
              obtain rfl := Option.some.inj hp
              obtain ⟨request, hRequest, hSafe⟩ := hValid.safe sid _ hs
              exact ⟨request, hRequest, hSafe c.db time .refl hValid.inv hRead hOk⟩
          | _ => simp [RowLocks.advance, hs] at moves
  | reject sid =>
      cases hs : c.sessions sid with
      | none => simp [RowLocks.advance, hs] at moves
      | some p =>
          cases p with
          | commit note write next =>
              simp only [RowLocks.advance, hs, Option.some.injEq] at moves
              subst moves
              refine ⟨hValid.after sid (.inl rfl) rfl
                (fun _ hOther => c.held_release_other hOther _ _) (fun _ _ => rfl)
                (fun p hp => ?_) (by simp), .quiet rfl rfl⟩
              obtain rfl := Option.some.inj hp
              obtain ⟨request, hRequest, hSafe⟩ := hValid.safe sid _ hs
              rw [c.held_release_self]
              exact ⟨request, hRequest, (hSafe c.db .refl hValid.inv).2⟩
          | _ => simp [RowLocks.advance, hs] at moves
  | close sid =>
      simp only [RowLocks.advance, Option.some.injEq] at moves
      subst moves
      refine ⟨?_, .quiet rfl rfl⟩
      exact hValid.after sid (.inl rfl) rfl (fun _ hOther => c.held_release_other hOther _ _)
        (fun _ _ => rfl) (by simp) (fun _ => c.held_release_self sid _ _)

end Advance

variable {program : Req → Prog S Unit}

/-- With no session yet, the start is valid as soon as the invariant holds
there. -/
theorem Valid.initial {start : S.State} (hStart : P.inv start) :
    P.Valid promise (fun _ => none) (.initial start) := by
  refine ⟨hStart, by simp [Config.initial], fun _ _ => ?_⟩
  funext key
  simp [Config.initial, Config.held, Held.none]

/-- Safety of every reachable configuration. -/
theorem Valid.of_reaches {start : S.State} (hStart : P.inv start)
    (hProgram : ∀ request d, P.inv d →
      (P.promising (promise request)).Safe (program request) Held.none d)
    {c : Config S} (run : Reaches program P.ok start c) :
    ∃ requests, P.Valid promise requests c := by
  induction run with
  | init => exact ⟨fun _ => none, .initial hStart⟩
  | next _ a moves meets ih =>
      obtain ⟨requests, hValid⟩ := ih
      exact ⟨serving requests a, (hValid.advance hProgram moves meets).1⟩

/-- A step from a reachable configuration makes at most one allowed write. -/
theorem may_of_reaches {start : S.State} (hStart : P.inv start)
    (hProgram : ∀ request d, P.inv d → P.Safe (program request) Held.none d)
    {c : Config S} (run : Reaches program P.ok start c) {a : Action S Req}
    (moves : RowLocks.advance program c a = some c') (meets : Meets P.ok c a) :
    P.inv c.db ∧ (c'.db = c.db ∨ ∃ held, P.may held c.db c'.db) := by
  have hOwn (request : Req) (d : S.State) (hInv : P.inv d) :
      (P.promising P.own).Safe (program request) Held.none d := hProgram request d hInv
  obtain ⟨requests, hValid⟩ := Valid.of_reaches hStart hOwn run
  exact ⟨hValid.inv, (hValid.advance hOwn moves meets).2.may⟩

/-- What the start satisfies and every allowed write keeps, holds in every
reachable configuration. -/
theorem invariant_of_reaches {start : S.State} {I : S.State → Prop} (hStart : P.inv start)
    (hProgram : ∀ request d, P.inv d → P.Safe (program request) Held.none d)
    (hInit : I start) (hStep : ∀ {held d d'}, P.inv d → I d → P.may held d d' → I d')
    {c : Config S} (run : Reaches program P.ok start c) : I c.db := by
  induction run with
  | init => exact hInit
  | next prior a moves meets ih =>
      obtain ⟨hInv, hSame | ⟨held, hMay⟩⟩ := may_of_reaches hStart hProgram prior moves meets
      · exact hSame ▸ ih
      · exact hStep hInv ih hMay

/-- A run whose history says which request each session serves: what every
action keeps, given what the sessions have promised, is kept throughout. -/
theorem Valid.invariant {η : Type} {record : η → Config S → Action S Req → Config S → η}
    {V : η → Nat → Option Req}
    (hServing : ∀ h c a c', V (record h c a c') = serving (V h) a)
    (hProgram : ∀ request d, P.inv d →
      (P.promising (promise request)).Safe (program request) Held.none d)
    {ok : Config S × η → Action S Req → Prop} (hOk : ∀ s a, ok s a → Meets P.ok s.1 a)
    {I : Config S × η → Prop}
    (hStep : ∀ {c c' h a}, P.Valid promise (V h) c → I (c, h) →
      RowLocks.advance program c a = some c' → P.Outcome promise (V h) c c' a →
      ok (c, h) a → I (c', record h c a c'))
    {start s : Config S × η} (hValid : P.Valid promise (V start.2) start.1)
    (hInit : I start)
    (run : Runs.Reaches (Runs.recording (RowLocks.advance program) record) ok start s) :
    P.Valid promise (V s.2) s.1 ∧ I s := by
  apply run.invariant (I := fun s => P.Valid promise (V s.2) s.1 ∧ I s) ⟨hValid, hInit⟩
  intro s s' a hBoth hRecorded meets
  obtain ⟨hValid, hHolds⟩ := hBoth
  obtain ⟨c', moves, rfl⟩ := Option.map_eq_some_iff.mp hRecorded
  obtain ⟨hValid', hOutcome⟩ := hValid.advance hProgram moves (hOk s a meets)
  exact ⟨hServing s.2 s.1 a c' ▸ hValid', hStep hValid hHolds moves hOutcome meets⟩

/-- A commit pending in a reachable configuration is an allowed write. -/
theorem Valid.pending {c : Config S} (hValid : P.Valid promise requests c) {sid : Nat}
    {note : S.Note} {write : S.State → S.State} {next : Option S.State → Prog S Unit}
    (hSession : c.sessions sid = some (.commit note write next))
    (hOk : P.ok c.db (c.held sid) (.commit note)) : P.may (c.held sid) c.db (write c.db) := by
  obtain ⟨request, _, hSafe⟩ := hValid.safe sid _ hSession
  exact (promise request).may_of_does ((hSafe c.db .refl hValid.inv).1 hOk).1

end Discipline

end RowLocks
