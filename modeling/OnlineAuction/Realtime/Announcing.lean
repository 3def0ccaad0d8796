import OnlineAuction.Market.Served

/-! What a session tells the sockets of a lot once it has committed: `place_bid`
that the price has risen, `complete_auction` that the lot is closed. -/

namespace OnlineAuction.Realtime

open RowLocks

variable {percent : CommissionPercent} {request : Request}

/-- The frames on `/ws/auction/{id}` that follow a commit: `new_bid` of
`_build_bid_broadcast` and `auction_ended` of `complete_auction`. -/
inductive Frame where
  | newBid (currentPrice : Money)
  | auctionEnded (finalPrice : Money)
  deriving DecidableEq

/-- The price of a `new_bid` frame. -/
def Frame.price? : Frame → Option Money
  | .newBid currentPrice => some currentPrice
  | .auctionEnded _ => none

/-- An argument of `manager.broadcast`, and its frame. -/
structure Announcement where
  auctionId : LotId
  frame : Frame
  deriving DecidableEq

/-- The lot that a session of `complete_auction` closes. -/
def settles : Request → Option LotId
  | .tick auctionId => some auctionId
  | .completeAuction auctionId => some auctionId
  | _ => none

/-- A session. `copy` is the lot in the identity map of one that completes it:
the row it has loaded first. -/
structure Announcer where
  request : Request
  copy : Option Auction

namespace Announcer

def begin (request : Request) : Announcer := ⟨request, none⟩

def load (w : Announcer) (d : Db) : Announcer :=
  { w with copy := w.copy <|> (settles w.request).bind d.auctions.get }

def announcement (w : Announcer) : Option Announcement :=
  match w.request with
  | .placeBid _ bid => some ⟨bid.auctionId, .newBid bid.amount.val⟩
  | .tick auctionId => w.copy.map fun auction => ⟨auctionId, .auctionEnded auction.currentPrice⟩
  | .completeAuction auctionId =>
      w.copy.map fun auction => ⟨auctionId, .auctionEnded auction.currentPrice⟩
  | _ => none

end Announcer

/-- Only `place_bid` inserts a bid, the one it has been asked for, and the commit
of `complete_auction` closes the lot. -/
def announcing : Typestate market Announcer where
  update _ _ _ := False
  commit w _ write := match w.request with
    | .placeBid userId bid => ∃ t, ∀ d, (write d).bids =
        d.bids ++ [⟨d.bidSerial, bid.amount.val, t, userId, bid.auctionId⟩]
    | request => ∀ d, (write d).bids = d.bids ∧ ∀ auctionId ∈ settles request, ∀ row,
        (write d).auctions.get auctionId = some row → row.isActive = false
  after w
    | .read _ d => w.load d
    | .locked _ d => w.load d
    | _ => w

theorem announcing_request (w : Announcer) (answer : Answer market) :
    (announcing.after w answer).request = w.request := by
  cases answer <;> rfl

/-- The session has loaded what it is going to load. -/
def Announcer.Steady (w : Announcer) : Prop := ∀ answer, announcing.after w answer = w

/-- A request that settles no lot is steady: it announces nothing of its own. -/
theorem steady_of_silent (h : settles request = none) :
    (Announcer.begin request).Steady := by
  intro answer
  cases answer <;> simp [announcing, Announcer.load, Announcer.begin, h]

/-- With a copy in hand the session announces the bid of that copy. -/
theorem steady_of_copy (request : Request) (auction : Auction) :
    Announcer.Steady ⟨request, some auction⟩ := by
  intro answer
  cases answer <;> rfl

section Steady

variable {w : Announcer} (h : w.Steady)
include h

theorem follows_selectAuctionForUpdate (auctionId : LotId) (identity : Option Auction)
    {post : Option Auction → Announcer → Prop} (hPost : ∀ row, post row w) :
    announcing.Follows (selectAuctionForUpdate auctionId identity) post w := by
  refine ⟨trivial, fun d => ?_⟩
  rw [h]
  exact hPost _

theorem follows_lockUsersById (userIds : List UserId)
    {post : (UserId → Option User) → Announcer → Prop} (hPost : ∀ locked, post locked w) :
    announcing.Follows (lockUsersById userIds) post w :=
  follows_lockUsers announcing w userIds post (fun _ => trivial) (fun _ _ => h _) hPost

theorem follows_effectiveCommittedBalance (userId : UserId) (auctionId : LotId)
    (currentPrice : Money) {post : Money → Announcer → Prop} (hPost : ∀ committed, post committed w) :
    announcing.Follows (effectiveCommittedBalance userId auctionId currentPrice) post w :=
  follows_committedBalance announcing w userId auctionId currentPrice post (fun _ => h _) hPost

end Steady

def silent : Request → Bool
  | .placeBid _ _ => false
  | .tick _ => false
  | .completeAuction _ => false
  | _ => true

/-- A commit that writes no bid announces nothing. -/
theorem silent_commit (hSilent : silent request = true) {write : Db → Db}
    {post : Db → Announcer → Prop} (hBids : ∀ d, (write d).bids = d.bids)
    (hPost : ∀ d, post d (.begin request)) :
    announcing.Follows (commit write) post (.begin request) := by
  rw [follows_commit]
  cases request with
  | placeBid => cases hSilent
  | tick => cases hSilent
  | completeAuction => cases hSilent
  | _ => exact ⟨fun d => ⟨hBids d, fun _ h => by cases h⟩, hPost⟩

theorem deposit_announces (userId : UserId) (data : DepositRequest) :
    announcing.Follows (deposit userId data) (fun _ _ => True) (.begin (.deposit userId data)) := by
  have h : (Announcer.begin (.deposit userId data)).Steady := steady_of_silent rfl
  simp only [deposit, Typestate.follows_bind, follows_getCurrentUser, h _]
  intro d user _
  apply follows_lockUsersById h
  intro locked
  rw [Typestate.follows_bind, Typestate.follows_raiseIf]
  intro _
  rw [Typestate.follows_bind]
  exact silent_commit rfl (fun _ => rfl) fun _ => trivial

theorem withdraw_announces (userId : UserId) (data : WithdrawRequest) :
    announcing.Follows (withdraw userId data) (fun _ _ => True) (.begin (.withdraw userId data)) := by
  have h : (Announcer.begin (.withdraw userId data)).Steady := steady_of_silent rfl
  simp only [withdraw, Typestate.follows_bind, follows_getCurrentUser, h _]
  intro d user _
  apply follows_lockUsersById h
  intro locked
  simp only [Typestate.follows_bind, getCommittedBalance, follows_query, h _]
  intro d'
  rw [Typestate.follows_raiseIf]
  intro _
  rw [Typestate.follows_bind]
  exact silent_commit rfl (fun _ => rfl) fun _ => trivial

/-- A new auction announces no bid. -/
theorem createAuction_announces (userId : UserId) (data : AuctionCreate) :
    announcing.Follows (createAuction userId data) (fun _ _ => True)
      (.begin (.createAuction userId data)) := by
  have h : (Announcer.begin (.createAuction userId data)).Steady := steady_of_silent rfl
  simp only [createAuction, Typestate.follows_bind, follows_getCurrentUser, follows_utcnow, h _]
  intro d user _ startTime
  apply follows_checkCategory _ _ _ _ (fun _ => h _)
  rw [Typestate.follows_bind, Typestate.follows_raiseIf]
  intro _
  rw [Typestate.follows_bind]
  apply silent_commit rfl
  · exact fun _ => rfl
  · intro inserted
    split_ifs
    · rw [Typestate.follows_bind]
      exact silent_commit rfl (fun _ => rfl) fun _ => trivial
    · trivial

/-- An edit announces no bid. -/
theorem updateAuction_announces (userId : UserId) (auctionId : LotId) (data : AuctionUpdate) :
    announcing.Follows (updateAuction userId auctionId data) (fun _ _ => True)
      (.begin (.updateAuction userId auctionId data)) := by
  have h : (Announcer.begin (.updateAuction userId auctionId data)).Steady := steady_of_silent rfl
  simp only [updateAuction, Typestate.follows_bind, follows_getCurrentUser, h _]
  intro d user _
  apply follows_selectAuctionForUpdate h
  intro row
  rw [Typestate.follows_bind, Typestate.follows_orRaise]
  intro auction _
  simp only [Typestate.follows_bind, Typestate.follows_raiseIf, bidsCount, follows_query, h _]
  intro _ _ d' _
  apply follows_checkCategory _ _ _ _ (fun _ => h _)
  simp only [Typestate.follows_bind, Typestate.follows_raiseIf]
  intro _ _
  apply silent_commit rfl _ fun _ => trivial
  intro d
  cases data.imageUrls.join with
  | none => rfl
  | some urls => rfl

/-- A deletion announces no bid. -/
theorem deleteAuction_announces (userId : UserId) (auctionId : LotId) :
    announcing.Follows (deleteAuction userId auctionId) (fun _ _ => True)
      (.begin (.deleteAuction userId auctionId)) := by
  have h : (Announcer.begin (.deleteAuction userId auctionId)).Steady := steady_of_silent rfl
  simp only [deleteAuction, Typestate.follows_bind, follows_getCurrentUser, h _]
  intro d user _
  apply follows_selectAuctionForUpdate h
  intro row
  rw [Typestate.follows_bind, Typestate.follows_orRaise]
  intro auction _
  simp only [Typestate.follows_bind, Typestate.follows_raiseIf, bidsCount, follows_query, h _]
  intro _ d' _ _
  exact silent_commit rfl (fun _ => rfl) fun _ => trivial

theorem buyNow_announces (userId : UserId) (auctionId : LotId) :
    announcing.Follows (buyNow percent userId auctionId) (fun _ _ => True)
      (.begin (.buyNow userId auctionId)) := by
  have h : (Announcer.begin (.buyNow userId auctionId)).Steady := steady_of_silent rfl
  simp only [buyNow, Typestate.follows_bind, follows_getCurrentUser, h _]
  intro d user _
  apply follows_selectAuctionForUpdate h
  intro row
  rw [Typestate.follows_bind, Typestate.follows_orRaise]
  intro auction _
  simp only [Typestate.follows_bind, Typestate.follows_raiseIf, Typestate.follows_orRaise, follows_utcnow, h _]
  intro _ now _ _ binPrice _ _
  apply follows_lockUsersById h
  intro locked
  simp only [Typestate.follows_bind, getCommittedBalance, follows_query, Typestate.follows_raiseIf, follows_utcnow, h _]
  intro d' _ boughtAt
  exact silent_commit rfl (fun _ => rfl) fun _ => trivial

/-- A bid announces its own price. -/
theorem placeBid_announces (userId : UserId) (bid : BidCreate) :
    announcing.Follows (placeBid userId bid) (fun _ _ => True) (.begin (.placeBid userId bid)) := by
  have h : (Announcer.begin (.placeBid userId bid)).Steady := steady_of_silent rfl
  simp only [placeBid, Typestate.follows_bind, follows_getCurrentUser, h _]
  intro d user _
  apply follows_selectAuctionForUpdate h
  intro row
  rw [Typestate.follows_bind, Typestate.follows_orRaise]
  intro auction _
  simp only [Typestate.follows_bind, Typestate.follows_raiseIf, follows_utcnow, selectLastBid, follows_query, h _]
  intro _ _ _ now _ _ d₁ _
  apply follows_lockUsersById h
  intro locked
  rw [Typestate.follows_bind]
  apply follows_effectiveCommittedBalance h
  intro committed
  simp only [Typestate.follows_bind, Typestate.follows_raiseIf, follows_utcnow, h _]
  intro _ extendedAt timestamp
  rw [follows_commit]
  exact ⟨⟨timestamp, fun _ => rfl⟩, fun _ => trivial⟩

/-- Whichever copy it goes by, the lot is inactive once it has committed. -/
theorem closing_commit {auctionId : LotId} (hSettles : settles request = some auctionId)
    {copy : Option Auction} {write : Db → Db} {auction closed : Auction}
    (hActive : auction.isActive = true) (hClosed : closed.isActive = false)
    (hBids : ∀ d, (write d).bids = d.bids)
    (hAuctions : ∀ d, (write d).auctions =
      d.auctions.modify auctionId (Auction.flush auction closed)) :
    announcing.Follows (commit write) (fun _ _ => True) ⟨request, copy⟩ := by
  have hInactive (d : Db) (row : Auction) (hRow : (write d).auctions.get auctionId = some row) :
      row.isActive = false := by
    rw [hAuctions, Table.get_modify_self] at hRow
    obtain ⟨stored, _, rfl⟩ := Option.map_eq_some_iff.mp hRow
    simp [Auction.flush, column, hActive, hClosed]
  rw [follows_commit]
  refine ⟨?_, fun _ => trivial⟩
  cases request with
  | tick id =>
      obtain rfl := Option.some.inj hSettles
      exact fun d => ⟨hBids d, fun id hId => Option.some.inj hId ▸ hInactive d⟩
  | completeAuction id =>
      obtain rfl := Option.some.inj hSettles
      exact fun d => ⟨hBids d, fun id hId => Option.some.inj hId ▸ hInactive d⟩
  | _ => cases hSettles

/-- A completion announces the price of the copy that it locked. -/
theorem completeAuction_announces (auctionId : LotId)
    (hSettles : settles request = some auctionId) (identity : Option Auction) :
    announcing.Follows (completeAuction percent auctionId identity) (fun _ _ => True)
      ⟨request, identity⟩ := by
  unfold completeAuction
  rw [Typestate.follows_bind]
  refine ⟨trivial, fun d => ?_⟩
  cases hRow : d.auctions.get auctionId with
  | none =>
      show announcing.Follows (.pure (d.auctions.get auctionId)) _ _
      rw [hRow]
      trivial
  | some row =>
      have hLoad : announcing.after ⟨request, identity⟩ (.locked (.lot auctionId) d) =
          ⟨request, some (identity.getD row)⟩ := by
        cases identity <;> simp [announcing, Announcer.load, hSettles, hRow]
      have h : Announcer.Steady ⟨request, some (identity.getD row)⟩ := steady_of_copy _ _
      show announcing.Follows (.pure (d.auctions.get auctionId)) _ _
      rw [hLoad, hRow]
      show announcing.Follows (ite _ _ _) _ _
      split_ifs with hActive
      · simp only [Typestate.follows_bind, follows_utcnow, h _]
        intro now
        split_ifs
        · trivial
        · simp only [Typestate.follows_bind, selectLastBid, follows_query, h _]
          intro d'
          cases d'.lastBid auctionId with
          | none =>
              rw [Typestate.follows_bind]
              exact closing_commit hSettles hActive rfl (fun _ => rfl) fun _ => rfl
          | some lastBid =>
              simp only [Typestate.follows_bind]
              apply follows_lockUsersById h
              intro locked
              rw [Typestate.follows_bind]
              exact closing_commit hSettles hActive rfl (fun _ => rfl) fun _ => rfl
      · trivial

/-- The timer announces what the completion does. -/
theorem waitAndComplete_announces (auctionId : LotId) :
    announcing.Follows (waitAndComplete percent auctionId) (fun _ _ => True)
      (.begin (.tick auctionId)) := by
  unfold waitAndComplete
  rw [Typestate.follows_bind, follows_query]
  intro d
  cases hRow : d.auctions.get auctionId with
  | none => trivial
  | some auction =>
      have hLoad : announcing.after (.begin (.tick auctionId)) (.read none d) =
          ⟨.tick auctionId, some auction⟩ := by
        simp [announcing, Announcer.load, Announcer.begin, settles, hRow]
      have h : Announcer.Steady ⟨.tick auctionId, some auction⟩ := steady_of_copy _ _
      rw [hLoad]
      dsimp only
      split_ifs
      · simp only [Typestate.follows_bind, follows_utcnow, h _]
        intro now
        split_ifs
        · trivial
        · exact completeAuction_announces auctionId rfl (some auction)
      · trivial

/-- No handler strays from the outline of announcements. -/
theorem handle_announces (request : Request) :
    announcing.Follows (handle percent request) (fun _ _ => True) (.begin request) := by
  cases request with
  | register =>
      show announcing.Follows (commit Db.addUser >>= _) _ _
      rw [Typestate.follows_bind]
      exact silent_commit rfl (fun _ => rfl) fun _ => trivial
  | deposit userId data => exact (Typestate.follows_bind _ _ _ _ _).mpr (deposit_announces userId data)
  | withdraw userId data =>
      exact (Typestate.follows_bind _ _ _ _ _).mpr (withdraw_announces userId data)
  | createAuction userId data => exact createAuction_announces userId data
  | updateAuction userId auctionId data => exact updateAuction_announces userId auctionId data
  | deleteAuction userId auctionId => exact deleteAuction_announces userId auctionId
  | placeBid userId bid => exact (Typestate.follows_bind _ _ _ _ _).mpr (placeBid_announces userId bid)
  | buyNow userId auctionId => exact buyNow_announces userId auctionId
  | tick auctionId => exact waitAndComplete_announces auctionId
  | completeAuction auctionId => exact completeAuction_announces auctionId rfl none

end OnlineAuction.Realtime
