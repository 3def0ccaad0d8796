import OnlineAuction.Library.Typestate
import OnlineAuction.Market.HandlerContracts

/-! Runs of the marketplace with their history: which request each session
serves, and which lot a creation has inserted and not illustrated yet. -/

namespace OnlineAuction

open RowLocks

variable {percent : CommissionPercent} {A : Assumptions}

/-- No condition on runs. -/
def Assumptions.none : Assumptions := ⟨False, False, False⟩

theorem Assumptions.none_ok (d : Db) (held : Held market) (e : Event market) :
    Assumptions.none.ok d held e :=
  ⟨False.elim, False.elim, False.elim⟩

structure Serving where
  request : Request
  inserted : Option LotId

def Serving.begin (request : Request) : Serving := ⟨request, none⟩

/-- The rows that the second commit of a creation inserts. -/
def AuctionCreate.gallery (data : AuctionCreate) (id : LotId) : List AuctionImage :=
  data.allUrls.mapIdx fun i url => ⟨id, url, i⟩

/-- `create_auction` inserts its lot, then the images of that lot. -/
def creation : Typestate market Serving where
  update serving _ _ := ∀ userId data, serving.request ≠ .createAuction userId data
  commit serving _ write := match serving.request, serving.inserted with
    | .createAuction userId data, none =>
        ∃ startTime, ∀ d, write d = d.addAuction (newAuction userId data startTime)
    | .createAuction _ data, some id =>
        ∀ d, write d = { d with images := d.images ++ data.gallery id }
    | _, _ => True
  after serving
    | .committed _ d => match serving.request, serving.inserted with
        | .createAuction _ _, none => { serving with inserted := some (d.auctions.serial - 1) }
        | _, _ => { serving with inserted := none }
    | .failed _ => { serving with inserted := none }
    | _ => serving

theorem creation_request (serving : Serving) (answer : Answer market) :
    (creation.after serving answer).request = serving.request := by
  cases answer with
  | committed => simp only [creation]; split <;> rfl
  | _ => rfl

section Effects

variable {α τ : Type} (T : Typestate market τ) (state : τ)

theorem follows_utcnow (post : Time → τ → Prop) :
    T.Follows utcnow post state ↔ ∀ t, post t (T.after state (.clock t)) := Iff.rfl

theorem follows_query (select : Db → α) (post : α → τ → Prop) :
    T.Follows (query select) post state ↔ ∀ d, post (select d) (T.after state (.read none d)) :=
  Iff.rfl

/-- The rule of a commit. -/
theorem follows_commit (write : Db → Db) (post : Db → τ → Prop) :
    T.Follows (commit write) post state ↔
      T.commit state none write ∧ ∀ d, post d (T.after state (.committed none d)) := by
  simp [commit, Prog.orRaise, Typestate.Follows]

theorem follows_getCurrentUser (userId : UserId) (post : User → τ → Prop) :
    T.Follows (getCurrentUser userId) post state ↔
      ∀ d user, d.users.get userId = some user → post user (T.after state (.read none d)) := by
  unfold getCurrentUser
  rw [Typestate.follows_bind, follows_query]
  simp only [Typestate.follows_orRaise]

theorem follows_checkCategory (categoryId : Option Nat) (post : Unit → τ → Prop)
    (hRead : ∀ d, T.after state (.read none d) = state) (hPost : post () state) :
    T.Follows (checkCategory categoryId) post state := by
  cases categoryId with
  | none => exact hPost
  | some category =>
      unfold checkCategory
      rw [Typestate.follows_bind, follows_query]
      intro d
      rw [Typestate.follows_raiseIf, hRead]
      exact fun _ => hPost

/-- The rule of locking a lot. -/
theorem follows_lockAuction (auctionId : LotId) (identity : Option Auction)
    (post : Option Auction → τ → Prop) :
    T.Follows (selectAuctionForUpdate auctionId identity) post state ↔
      T.lock state (.lot auctionId) ∧
        ∀ d, post (d.auctions.get auctionId) (T.after state (.locked (.lot auctionId) d)) :=
  Iff.rfl

/-- The rule of locking users one after the other, for states that these locks
do not move. -/
theorem follows_lockUsers (userIds : List UserId) (post : (UserId → Option User) → τ → Prop)
    (hLock : ∀ userId, T.lock state (.user userId))
    (hLocked : ∀ userId d, T.after state (.locked (.user userId) d) = state)
    (hPost : ∀ locked, post locked state) : T.Follows (lockUsersById userIds) post state := by
  have hEach (userIds : List UserId) (locked : UserId → Option User) :
      T.Follows (lockEach userIds locked) post state := by
    induction userIds generalizing locked with
    | nil => exact hPost locked
    | cons userId rest ih =>
        show T.Follows (selectUserForUpdate userId >>= _) post state
        rw [Typestate.follows_bind]
        refine ⟨hLock userId, fun d => ?_⟩
        rw [hLocked]
        exact ih _
  exact hEach _ _

/-- The rule of summing up a user's standing bids, for states that reads do not
move. -/
theorem follows_committedBalance (userId : UserId) (auctionId : LotId) (currentPrice : Money)
    (post : Money → τ → Prop) (hRead : ∀ d, T.after state (.read none d) = state)
    (hPost : ∀ committed, post committed state) :
    T.Follows (effectiveCommittedBalance userId auctionId currentPrice) post state := by
  simp only [effectiveCommittedBalance, getCommittedBalance, selectLastBid, Typestate.follows_bind,
    follows_query, hRead]
  intro d d'
  split_ifs
  · exact hPost _
  · exact hPost _

end Effects

/-- A session that serves another request commits what it likes. -/
theorem creation_follows_other {α : Type} (p : Prog market α) {serving : Serving}
    (h : ∀ userId data, serving.request ≠ .createAuction userId data) :
    creation.Follows p (fun _ _ => True) serving := by
  apply Typestate.follows_of_closed creation (Q := fun state => state.request = serving.request)
  · exact fun state answer hState => (creation_request state answer).trans hState
  · exact fun _ _ _ => trivial
  · exact fun _ _ _ hState userId data hCreate => h userId data (hState ▸ hCreate)
  · intro state note write hState
    simp only [creation]
    split
    next userId data hRequest _ => exact absurd (hState ▸ hRequest) (h userId data)
    next userId data _ hRequest _ => exact absurd (hState ▸ hRequest) (h userId data)
    next => trivial
  · rfl

/-- `create_auction` commits the lot first and its images after. -/
theorem createAuction_follows (userId : UserId) (data : AuctionCreate) :
    creation.Follows (createAuction userId data) (fun _ _ => True)
      (.begin (.createAuction userId data)) := by
  unfold createAuction
  rw [Typestate.follows_bind, follows_getCurrentUser]
  intro d user _
  rw [Typestate.follows_bind, follows_utcnow]
  intro startTime
  rw [Typestate.follows_bind]
  apply follows_checkCategory
  · exact fun _ => rfl
  rw [Typestate.follows_bind, Typestate.follows_raiseIf]
  intro _
  rw [Typestate.follows_bind, follows_commit]
  refine ⟨⟨startTime, fun _ => rfl⟩, fun inserted => ?_⟩
  dsimp only
  split_ifs
  · rw [Typestate.follows_bind, follows_commit]
    exact ⟨fun _ => rfl, fun _ => trivial⟩
  · trivial

/-- No handler strays from the outline of creations. -/
theorem handle_follows (request : Request) :
    creation.Follows (handle percent request) (fun _ _ => True) (.begin request) := by
  cases request with
  | createAuction userId data => exact createAuction_follows userId data
  | _ => exact creation_follows_other _ fun _ _ h => by cases h

abbrev Served := Config market × (Nat → Option Serving)

def Served.initial (categories : List Nat) : Served :=
  (.initial (Db.initial categories), fun _ => none)

def serve (percent : CommissionPercent) : Served → Action market Request → Option Served :=
  Runs.recording (advance (handle percent)) fun servings c a _ => creation.track .begin servings c a

namespace Served

def requests (s : Served) (sid : Nat) : Option Request := (s.2 sid).map Serving.request

/-- The request whose session makes the write of this action. -/
def writes (s : Served) (a : Action market Request) : Option Request :=
  (written s.1 a).bind fun made => s.requests made.1

/-- Creations that have yet to insert images are those of before. -/
def NoneBegun (s s' : Served) : Prop :=
  ∀ sid serving, s'.2 sid = some serving → serving.inserted ≠ none → s.2 sid = some serving

inductive Transacts (percent : CommissionPercent) (A : Assumptions) (s s' : Served)
    (a : Action market Request) : Prop where
  | quiet (hDb : s'.1.db = s.1.db) (hPending : NoneBegun s s')
  | observed (held : Held market) (t : Time) (hDb : s'.1.db = market.observe held t s.1.db)
      (hPending : NoneBegun s s')
  | committed (held : Held market) (request : Request) (hWrites : s.writes a = some request)
      (hOther : ∀ userId data, request ≠ .createAuction userId data)
      (hCommit : Commit percent A request held s.1.db s'.1.db) (hPending : NoneBegun s s')
  | inserted (held : Held market) (sid : Nat) (userId : UserId) (data : AuctionCreate)
      (startTime : Time) (hWrites : s.writes a = some (.createAuction userId data))
      (hServing : s.2 sid = some ⟨.createAuction userId data, none⟩)
      (hDb : s'.1.db = s.1.db.addAuction (newAuction userId data startTime))
      (hCommit : Commit percent A (.createAuction userId data) held s.1.db s'.1.db)
      (hNext : s'.2 = Function.update s.2 sid
        (some ⟨.createAuction userId data, some s.1.db.auctions.serial⟩))
  | illustrated (held : Held market) (sid : Nat) (userId : UserId) (data : AuctionCreate)
      (id : LotId) (hWrites : s.writes a = some (.createAuction userId data))
      (hServing : s.2 sid = some ⟨.createAuction userId data, some id⟩)
      (hDb : s'.1.db = { s.1.db with images := s.1.db.images ++ data.gallery id })
      (hCommit : Commit percent A (.createAuction userId data) held s.1.db s'.1.db)
      (hNext : s'.2 = Function.update s.2 sid (some ⟨.createAuction userId data, none⟩))

/-- What holds between any two actions: every session keeps to its request. -/
structure Underway (percent : CommissionPercent) (A : Assumptions) (s : Served) : Prop where
  valid : (rules percent A).Valid (promise percent A) s.requests s.1
  creating : creation.Within s.2 s.1

theorem Underway.initial (percent : CommissionPercent) (A : Assumptions) (categories : List Nat) :
    Underway percent A (.initial categories) :=
  ⟨.initial (.of_initial A categories), Typestate.within_initial _⟩

/-- Short of a commit, no creation comes to have images to insert. -/
theorem noneBegun_of_track {s s' : Served} {a : Action market Request}
    (hNext : s'.2 = creation.track .begin s.2 s.1 a)
    (hAnswer : ∀ sid note d, answered s.1 a = some (sid, .committed note d) →
      ∀ userId data, s.requests sid ≠ some (.createAuction userId data)) : NoneBegun s s' := by
  intro sid serving hServing hInserted
  rw [hNext] at hServing
  have hHear (told : Option (Nat × Answer market)) (hTold : ∀ sid note d,
      told = some (sid, .committed note d) → ∀ userId data,
        s.requests sid ≠ some (.createAuction userId data))
      (h : creation.hear s.2 told sid = some serving) : s.2 sid = some serving := by
    cases told with
    | none => exact h
    | some told =>
        obtain ⟨other, answer⟩ := told
        by_cases hSid : sid = other
        · subst hSid
          simp only [Typestate.hear, Function.update_self, Option.map_eq_some_iff] at h
          obtain ⟨before, hBefore, hAfter⟩ := h
          cases answer with
          | committed note d =>
              have hRequest := hTold sid note d rfl
              simp only [creation] at hAfter
              split at hAfter
              next userId data hCreate _ =>
                exact absurd (by simp [requests, hBefore, hCreate]) (hRequest userId data)
              next =>
                subst hAfter
                exact absurd rfl hInserted
          | failed note =>
              subst hAfter
              exact absurd rfl hInserted
          | _ => exact hBefore.trans (congrArg some hAfter)
        · simpa [Typestate.hear, hSid] using h
  cases a with
  | start other request =>
      by_cases hSid : sid = other
      · subst hSid
        simp only [Typestate.track, Function.update_self, Option.some.injEq] at hServing
        subst hServing
        exact absurd rfl hInserted
      · simpa [Typestate.track, hSid] using hServing
  | step => exact hHear _ hAnswer hServing
  | clock => exact hHear _ hAnswer hServing
  | reject => exact hHear _ hAnswer hServing
  | close => exact hHear _ hAnswer hServing

/-- A commit of a session that is underway is one of its request. -/
theorem Underway.committed {s : Served} {c' : Config market} {sid : Nat} {note : Option Auction}
    {request : Request} (h : Underway percent A s)
    (hMoves : RowLocks.advance (handle percent) s.1 (.step sid) = some c')
    (hWritten : written s.1 (.step sid : Action market Request) = some (sid, .commit note))
    (hRequest : s.requests sid = some request)
    (hCommit : Commit percent A request (s.1.held sid) s.1.db c'.db) :
    Transacts percent A s (c', creation.track .begin s.2 s.1 (.step sid)) (.step sid) := by
  obtain ⟨write, next, hs, hDb, hAnswer⟩ := commit_of_written hWritten hMoves
  obtain ⟨⟨request', inserted⟩, hServing, hMay, _⟩ := h.creating sid _ hs
  obtain rfl : request' = request := by simpa [requests, hServing] using hRequest
  have hWrites : s.writes (.step sid) = some request' := by simp [writes, hWritten, hRequest]
  have hNext : creation.track .begin s.2 s.1 (.step sid : Action market Request) =
      Function.update s.2 sid
        (some (creation.after ⟨request', inserted⟩ (.committed note c'.db))) := by
    simp [Typestate.track, Typestate.hear, hAnswer, hServing]
  by_cases hCreate : ∃ userId data, request' = .createAuction userId data
  · obtain ⟨userId, data, rfl⟩ := hCreate
    cases inserted with
    | none =>
        obtain ⟨startTime, hWrite⟩ := hMay
        rw [hWrite] at hDb
        refine .inserted _ sid userId data startTime hWrites hServing hDb hCommit ?_
        rw [hNext]
        simp [creation, hDb, Db.addAuction]
    | some id =>
        rw [show write s.1.db = _ from hMay s.1.db] at hDb
        exact .illustrated _ sid userId data id hWrites hServing hDb hCommit hNext
  · have hOther : ∀ userId data, request' ≠ .createAuction userId data :=
      fun userId data h => hCreate ⟨userId, data, h⟩
    apply Transacts.committed _ request' hWrites hOther hCommit
    apply noneBegun_of_track (a := .step sid) rfl
    intro other note' d hAnswer' userId data
    rw [hAnswer] at hAnswer'
    cases hAnswer'
    rw [hRequest, Ne, Option.some.injEq]
    exact hOther userId data

/-- Creations make no writes but their commits. -/
theorem Underway.updates {s : Served} {sid : Nat} {note : Option Auction} {request : Request}
    (h : Underway percent A s)
    (hWritten : written s.1 (.step sid : Action market Request) = some (sid, .update note))
    (hRequest : s.requests sid = some request) (userId : UserId) (data : AuctionCreate) :
    request ≠ .createAuction userId data := by
  obtain ⟨write, next, hs⟩ := update_of_written hWritten
  obtain ⟨serving, hServing, hMay, _⟩ := h.creating sid _ hs
  obtain rfl : serving.request = request := by simpa [requests, hServing] using hRequest
  exact hMay userId data

/-- One action of any session. -/
theorem Underway.advance {s s' : Served} {a : Action market Request} (h : Underway percent A s)
    (moves : serve percent s a = some s') (meets : Meets A.ok s.1 a) :
    Underway percent A s' ∧ Transacts percent A s s' a := by
  obtain ⟨c', hMoves, rfl⟩ := Option.map_eq_some_iff.mp moves
  obtain ⟨hValid, hOutcome⟩ := h.valid.advance (fun request _ _ => handle_safe request) hMoves meets
  have hCreating := h.creating.advance handle_follows hMoves
  have hRequests : (fun sid => (creation.track .begin s.2 s.1 a sid).map Serving.request) =
      serving s.requests a :=
    Typestate.track_serving (fun _ => rfl) creation_request s.2 s.1 a
  refine ⟨⟨?_, hCreating⟩, ?_⟩
  · rw [← hRequests] at hValid
    exact hValid
  have hPending (hNot : ∀ sid note d, answered s.1 a ≠ some (sid, .committed note d)) :
      NoneBegun s (c', creation.track .begin s.2 s.1 a) :=
    noneBegun_of_track rfl fun sid note d hAnswer => absurd hAnswer (hNot sid note d)
  cases hOutcome with
  | quiet hSame hWritten =>
      apply Transacts.quiet hSame (hPending _)
      intro sid note d hAnswer
      rw [written_of_answered hAnswer] at hWritten
      cases hWritten
  | observed hEvent hDb hMay =>
      apply Transacts.observed _ _ hDb (hPending _)
      intro sid note d hAnswer
      cases written_of_answered hAnswer
  | @updated sid note request hWritten hRequest hDoes =>
      have hWrites : s.writes (.step sid) = some request := by simp [writes, hWritten, hRequest]
      have hOther : ∀ userId data, request ≠ .createAuction userId data :=
        h.updates hWritten hRequest
      have hCommit : Commit percent A request (s.1.held sid) s.1.db c'.db := hDoes
      apply Transacts.committed (s.1.held sid) request hWrites hOther hCommit
      apply hPending
      intro other note' d hAnswer
      rw [written_of_answered hAnswer] at hWritten
      cases hWritten
  | committed hWritten hRequest hDoes => exact h.committed hMoves hWritten hRequest hDoes

/-- A run from any state in order. -/
theorem Underway.run {ok : Served → Action market Request → Prop}
    (hOk : ∀ s a, ok s a → Meets A.ok s.1 a) {I : Served → Prop} {start s : Served}
    (hStart : Underway percent A start) (hInit : I start)
    (hStep : ∀ {s s' a}, Underway percent A s → I s → Transacts percent A s s' a → ok s a → I s')
    (run : Runs.Reaches (serve percent) ok start s) : Underway percent A s ∧ I s := by
  apply run.invariant (I := fun s => Underway percent A s ∧ I s) ⟨hStart, hInit⟩
  intro s s' a hBoth moves meets
  obtain ⟨hUnderway, hTransacts⟩ := hBoth.1.advance moves (hOk s a meets)
  exact ⟨hUnderway, hStep hBoth.1 hBoth.2 hTransacts meets⟩

/-- The writes of an action meet a condition on the tables and the request. -/
def WritesMeet (condition : Db → Request → Prop) (s : Served) (a : Action market Request) : Prop :=
  ∀ request ∈ s.writes a, condition s.1.db request

instance (condition : Db → Request → Prop) [∀ d request, Decidable (condition d request)]
    (s : Served) (a : Action market Request) : Decidable (WritesMeet condition s a) := by
  unfold WritesMeet
  infer_instance

/-- What an empty marketplace satisfies, and every transaction that meets the
condition keeps, holds in every run whose writes meet it. -/
theorem Underway.of_writes {condition : Db → Request → Prop} {I : Db → Prop}
    {categories : List Nat} (hInit : I (Db.initial categories))
    (hObserve : ∀ {held t d}, I d → I (market.observe held t d))
    (hStep : ∀ {request held d d'}, WellFormed .none d → I d →
      Commit percent .none request held d d' → condition d request → I d') {s : Served}
    (run : Runs.Reaches (serve percent) (WritesMeet condition) (.initial categories) s) :
    Underway percent .none s ∧ I s.1.db := by
  apply Underway.run (I := fun s => I s.1.db) (fun s _ _ sid e _ => Assumptions.none_ok _ _ e)
    (.initial percent .none categories) hInit _ run
  intro s s' a hUnderway h hTransacts hMeets
  have hWell := hUnderway.valid.inv
  cases hTransacts with
  | quiet hDb => exact hDb ▸ h
  | observed held t hDb => exact hDb ▸ hObserve h
  | committed held request hWrites _ hCommit => exact hStep hWell h hCommit (hMeets request hWrites)
  | inserted held sid userId data startTime hWrites _ _ hCommit =>
      exact hStep hWell h hCommit (hMeets _ hWrites)
  | illustrated held sid userId data id hWrites _ _ hCommit =>
      exact hStep hWell h hCommit (hMeets _ hWrites)

end Served

end OnlineAuction
