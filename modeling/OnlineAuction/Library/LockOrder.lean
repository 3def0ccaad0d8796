import OnlineAuction.Library.Outlines

/-! Locks requested in ascending order. A transaction that requests every lock
after the ones it has requested before, in some strict order of the keys, waits
only for transactions whose next request comes later still: nobody waits for
himself. -/

namespace RowLocks

variable {S T : Store} {α Req : Type}

/-- The state is what has been requested since the last commit or rollback. -/
def ascending (lt : S.Key → S.Key → Prop) : Typestate S (List S.Key) where
  lock requested key := (requested ++ [key]).Pairwise lt
  after requested
    | .locked key _ => requested ++ [key]
    | .committed _ _ => []
    | .failed _ => []
    | _ => requested

/-- A transaction holds what it has requested, if anything. -/
def Requested (requested : List S.Key) (held : Held S) (_ : S.State) : Prop :=
  ∀ key, held key = true → key ∈ requested

/-- A session that holds nothing asks for nothing out of order. -/
theorem Requested.none (requested : List S.Key) (d : S.State) :
    Requested requested Held.none d := by
  intro key hKey
  cases hKey

/-- The ascending order is an outline with the rows asked for so far as its
state. -/
theorem ascending_outline (lt : S.Key → S.Key → Prop) :
    (ascending lt).Outline (fun _ : Req => []) (fun _ => True) Requested where
  keeps _ _ _ := trivial
  started _ d := .none [] d
  told {c c' sid requested answer} _ hTold hKnown := by
    cases hTold with
    | read note _ hLocks =>
        rw [Config.held_of_same hLocks]
        exact hKnown
    | locked key _ _ hLocks =>
        rw [Config.held_of_grant hLocks]
        intro k hk
        show k ∈ requested ++ [key]
        simp only [Held.grant, Bool.or_eq_true, Bool.and_eq_true, decide_eq_true_eq] at hk
        rcases hk with hBefore | ⟨_, rfl⟩
        · exact List.mem_append_left _ (hKnown k hBefore)
        · simp
    | refused key _ hLocks =>
        rw [Config.held_of_same hLocks]
        exact hKnown
    | clock time _ _ hLocks =>
        rw [Config.held_of_same hLocks]
        exact hKnown
    | updated note write _ _ hLocks =>
        rw [Config.held_of_same hLocks]
        exact hKnown
    | committed note write _ _ hLocks =>
        rw [Config.held_of_release hLocks]
        exact .none _ _
    | failed note _ hLocks =>
        rw [Config.held_of_release hLocks]
        exact .none _ _
  others _ _ _ _ hOwn := hOwn

/-- An edge of the wait-for graph: a session cannot go on before the other gives
up the key it requests. -/
def WaitsFor (c : Config S) (sid other : Nat) : Prop :=
  ∃ key note next, c.sessions sid = some (.lock key note next) ∧ c.locks key = some other ∧
    other ≠ sid

section Deadlocks

variable {lt : S.Key → S.Key → Prop} {states : Nat → Option (List S.Key)} {c : Config S}

/-- Whoever requests a key holds only keys that come before it. -/
theorem lt_of_request (h : (ascending lt).Knows (fun _ => True) Requested states c) {sid : Nat}
    {key last : S.Key} {note : S.Note} {next : S.State → Prog S Unit}
    (hSession : c.sessions sid = some (.lock key note next)) (hHeld : c.locks last = some sid) :
    lt last key := by
  obtain ⟨requested, hState, hFollows⟩ := h.within sid _ hSession
  have hRequested : last ∈ requested :=
    h.holds sid _ requested hSession hState last (by simpa [Config.held] using hHeld)
  exact (List.pairwise_append.mp hFollows.1).2.2 last hRequested key (List.mem_singleton_self key)

/-- Along a chain of waiting sessions the keys ascend. -/
theorem ascends_of_waits (hTrans : ∀ a b d, lt a b → lt b d → lt a d)
    (h : (ascending lt).Knows (fun _ => True) Requested states c) {first last : Nat}
    (hWaits : Relation.TransGen (WaitsFor c) first last) :
    ∃ key note next held, c.sessions first = some (.lock key note next) ∧
      c.locks held = some last ∧ (key = held ∨ lt key held) := by
  induction hWaits with
  | single hEdge =>
      obtain ⟨key, note, next, hSession, hLock, _⟩ := hEdge
      exact ⟨key, note, next, key, hSession, hLock, .inl rfl⟩
  | tail _ hEdge ih =>
      obtain ⟨key, note, next, held, hSession, hHeld, hOrder⟩ := ih
      obtain ⟨wanted, _, _, hWaiting, hLock, _⟩ := hEdge
      have hNext : lt held wanted := lt_of_request h hWaiting hHeld
      refine ⟨key, note, next, wanted, hSession, hLock, .inr ?_⟩
      rcases hOrder with rfl | hBefore
      · exact hNext
      · exact hTrans _ _ _ hBefore hNext

/-- The wait-for graph has no cycle. -/
theorem not_waitsFor_self (hIrrefl : ∀ key, ¬lt key key)
    (hTrans : ∀ a b d, lt a b → lt b d → lt a d)
    (h : (ascending lt).Knows (fun _ => True) Requested states c) (sid : Nat) :
    ¬Relation.TransGen (WaitsFor c) sid sid := by
  intro hWaits
  obtain ⟨key, note, next, held, hSession, hHeld, hOrder⟩ := ascends_of_waits hTrans h hWaits
  have hLater : lt held key := lt_of_request h hSession hHeld
  rcases hOrder with rfl | hBefore
  · exact hIrrefl key hLater
  · exact hIrrefl held (hTrans _ _ _ hLater hBefore)

end Deadlocks

/-- The action commits or rolls back the transaction that the session is in. -/
def Ends (c : Config S) (a : Action S Req) (sid : Nat) : Prop :=
  (∃ note d, answered c a = some (sid, .committed note d)) ∨
    (∃ note, answered c a = some (sid, .failed note)) ∨ a = .close sid

/-- A lock stays with its session until the transaction ends. -/
theorem lock_kept_or_ends {τ : Type} {U : Typestate S τ} {states : Nat → Option τ} {c c' : Config S}
    {a : Action S Req} (hTurn : U.Turn states c c' a) {sid : Nat} {key : S.Key}
    (hLock : c.locks key = some sid) : c'.locks key = some sid ∨ Ends c a sid := by
  have hReleased {other : Nat} (hOther : sid ≠ other) (hLocks : c'.locks = c.release other) :
      c'.locks key = some sid := by
    rw [hLocks, Config.release, if_neg, hLock]
    rw [hLock, Option.some.injEq]
    exact hOther
  cases hTurn with
  | started _ _ _ _ hLocks => exact .inl (hLocks ▸ hLock)
  | closed other _ hLocks =>
      by_cases hOther : sid = other
      · exact .inr (.inr (.inr (hOther ▸ rfl)))
      · exact .inl (hReleased hOther hLocks)
  | told other state answer p next hAnswer _ _ _ hTold =>
      cases hTold with
      | read _ _ hLocks => exact .inl (hLocks ▸ hLock)
      | refused _ _ hLocks => exact .inl (hLocks ▸ hLock)
      | clock _ _ _ hLocks => exact .inl (hLocks ▸ hLock)
      | updated _ _ _ _ hLocks => exact .inl (hLocks ▸ hLock)
      | locked granted hFree _ hLocks =>
          refine .inl ?_
          rw [hLocks, Config.grant]
          split_ifs with hGranted
          · obtain rfl : key = granted := by simpa using (Bool.and_eq_true_iff.mp hGranted).2
            simpa [Config.free, hLock, eq_comm] using hFree
          · exact hLock
      | committed note write _ _ hLocks =>
          by_cases hOther : sid = other
          · exact .inr (.inl ⟨note, _, hOther ▸ hAnswer⟩)
          · exact .inl (hReleased hOther hLocks)
      | failed note _ hLocks =>
          by_cases hOther : sid = other
          · exact .inr (.inr (.inl ⟨note, hOther ▸ hAnswer⟩))
          · exact .inl (hReleased hOther hLocks)

/-- Where the state and the keys of a store are found in a larger one. -/
structure Embedding (S T : Store) where
  view : T.State → S.State
  put : S.State → T.State → T.State
  key : S.Key → T.Key
  time : T.Time → S.Time
  note : S.Note → T.Note
  error : S.Error → T.Error

/-- The program over its part of the larger store. -/
def Prog.embed (E : Embedding S T) : Prog S α → Prog T α
  | .pure value => .pure value
  | .fail error => .fail (E.error error)
  | .read note next => .read (E.note note) fun d => (next (E.view d)).embed E
  | .lock key note next => .lock (E.key key) (E.note note) fun d => (next (E.view d)).embed E
  | .tryLock key note next =>
      .tryLock (E.key key) (E.note note) fun d => (next (d.map E.view)).embed E
  | .clock note next => .clock (E.note note) fun t => (next (E.time t)).embed E
  | .update note write next =>
      .update (E.note note) (fun d => E.put (write (E.view d)) d) (next.embed E)
  | .commit note write next =>
      .commit (E.note note) (fun d => E.put (write (E.view d)) d) fun done =>
        (next (done.map E.view)).embed E

/-- An embedding that respects the order of the keys. -/
theorem follows_embed (E : Embedding S T) {lt : S.Key → S.Key → Prop} {lt' : T.Key → T.Key → Prop}
    (hKey : ∀ {k k'}, lt k k' → lt' (E.key k) (E.key k')) {p : Prog S α} {requested : List S.Key}
    (h : (ascending lt).Follows p (fun _ _ => True) requested) :
    (ascending lt').Follows (p.embed E) (fun _ _ => True) (requested.map E.key) := by
  have hAppend (requested : List S.Key) (key : S.Key) :
      requested.map E.key ++ [E.key key] = (requested ++ [key]).map E.key := by simp
  induction p generalizing requested with
  | pure => trivial
  | fail => trivial
  | read note next ih => exact fun d => ih (E.view d) (h (E.view d))
  | lock key note next ih =>
      refine ⟨?_, fun d => ?_⟩
      · show (requested.map E.key ++ [E.key key]).Pairwise lt'
        rw [hAppend]
        exact h.1.map E.key fun _ _ => hKey
      · show (ascending lt').Follows _ _ (requested.map E.key ++ [E.key key])
        rw [hAppend]
        exact ih (E.view d) (h.2 (E.view d))
  | tryLock key note next ih =>
      refine ⟨fun d => ?_, ih none h.2⟩
      show (ascending lt').Follows _ _ (requested.map E.key ++ [E.key key])
      rw [hAppend]
      exact ih (some (E.view d)) (h.1 (E.view d))
  | clock note next ih => exact fun t => ih (E.time t) (h (E.time t))
  | update note write next ih => exact ⟨trivial, ih h.2⟩
  | commit note write next ih =>
      exact ⟨trivial, fun d => ih (some (E.view d)) (h.2.1 (E.view d)), ih none h.2.2⟩

end RowLocks
