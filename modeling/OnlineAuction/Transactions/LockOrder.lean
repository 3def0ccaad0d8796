import OnlineAuction.Accounts.Handlers
import OnlineAuction.Library.LockOrder
import OnlineAuction.Market.Served
import OnlineAuction.Transactions.UploadQuota

/-! In which order each transaction requests its row locks: the lot before any
user, the users in ascending order of their ids. -/

namespace OnlineAuction

open RowLocks

/-- The order in which the marketplace requests its locks. -/
inductive Key.Before : Key → Key → Prop where
  | lotUser (auctionId : LotId) (userId : UserId) : Key.Before (.lot auctionId) (.user userId)
  | userUser {userId userId' : UserId} (hLess : userId < userId') :
      Key.Before (.user userId) (.user userId')

section Market

variable {α : Type} {requested : List Key} {percent : CommissionPercent}

def LotsOnly (requested : List Key) : Prop :=
  requested = [] ∨ ∃ auctionId, requested = [.lot auctionId]

/-- The lock of a lot comes first. -/
theorem follows_selectAuctionForUpdate (auctionId : LotId) (identity : Option Auction)
    {post : Option Auction → List Key → Prop} (hPost : ∀ row, post row [.lot auctionId]) :
    (ascending Key.Before).Follows (selectAuctionForUpdate auctionId identity) post [] :=
  ⟨List.pairwise_singleton _ _, fun d => hPost (d.auctions.get auctionId)⟩

/-- The loop of `lock_users_by_id`. -/
theorem follows_lockEach {userIds : List UserId} {requested : List Key}
    (hOrder : (requested ++ userIds.map Key.user).Pairwise Key.Before)
    (locked : UserId → Option User) {post : (UserId → Option User) → List Key → Prop}
    (hPost : ∀ locked requested, post locked requested) :
    (ascending Key.Before).Follows (lockEach userIds locked) post requested := by
  induction userIds generalizing requested locked with
  | nil => exact hPost _ _
  | cons userId rest ih =>
      have hSplit : requested ++ (userId :: rest).map Key.user =
          (requested ++ [.user userId]) ++ rest.map Key.user := by simp
      rw [hSplit] at hOrder
      refine ⟨(List.pairwise_append.mp hOrder).1, fun d => ?_⟩
      exact ih hOrder _

/-- The ids that `lock_users_by_id` goes through. -/
theorem sorted_userIds (userIds : List UserId) :
    (userIds.dedup.insertionSort (· ≤ ·)).Pairwise (· < ·) := by
  have hSorted := List.pairwise_insertionSort (· ≤ ·) userIds.dedup
  have hNodup : (userIds.dedup.insertionSort (· ≤ ·)).Nodup :=
    (List.perm_insertionSort _ _).nodup_iff.mpr userIds.nodup_dedup
  exact (hSorted.and hNodup).imp fun h => lt_of_le_of_ne h.1 h.2

/-- The locks of users follow in the order of their numbers, by induction on
the list. -/
theorem follows_lockUsersById (userIds : List UserId) (hRequested : LotsOnly requested)
    {post : (UserId → Option User) → List Key → Prop}
    (hPost : ∀ locked requested, post locked requested) :
    (ascending Key.Before).Follows (lockUsersById userIds) post requested := by
  have hUsers : ((userIds.dedup.insertionSort (· ≤ ·)).map Key.user).Pairwise Key.Before :=
    (sorted_userIds userIds).map Key.user fun _ _ hLess => .userUser hLess
  apply follows_lockEach _ _ hPost
  rcases hRequested with rfl | ⟨auctionId, rfl⟩
  · exact hUsers
  · apply List.pairwise_cons.mpr
    refine ⟨fun key hKey => ?_, hUsers⟩
    obtain ⟨userId, _, rfl⟩ := List.mem_map.mp hKey
    exact .lotUser auctionId userId

theorem deposit_follows (userId : UserId) (data : DepositRequest) :
    (ascending Key.Before).Follows (deposit userId data) (fun _ _ => True) [] := by
  unfold deposit
  rw [Typestate.follows_bind, follows_getCurrentUser]
  intro d user _
  rw [Typestate.follows_bind]
  apply follows_lockUsersById _ (.inl rfl)
  intro locked requested
  rw [Typestate.follows_bind, Typestate.follows_raiseIf]
  intro _
  rw [Typestate.follows_bind, follows_commit]
  exact ⟨trivial, fun _ => trivial⟩

theorem withdraw_follows (userId : UserId) (data : WithdrawRequest) :
    (ascending Key.Before).Follows (withdraw userId data) (fun _ _ => True) [] := by
  unfold withdraw
  rw [Typestate.follows_bind, follows_getCurrentUser]
  intro d user _
  rw [Typestate.follows_bind]
  apply follows_lockUsersById _ (.inl rfl)
  intro locked requested
  rw [Typestate.follows_bind, getCommittedBalance, follows_query]
  intro d'
  rw [Typestate.follows_bind, Typestate.follows_raiseIf]
  intro _
  rw [Typestate.follows_bind, follows_commit]
  exact ⟨trivial, fun _ => trivial⟩

theorem createAuction_ascends (userId : UserId) (data : AuctionCreate) :
    (ascending Key.Before).Follows (createAuction userId data) (fun _ _ => True) [] := by
  unfold createAuction
  rw [Typestate.follows_bind, follows_getCurrentUser]
  intro d user _
  rw [Typestate.follows_bind, follows_utcnow]
  intro startTime
  rw [Typestate.follows_bind]
  apply follows_checkCategory
  · exact fun _ => rfl
  rw [Typestate.follows_bind, Typestate.follows_raiseIf]
  intro _
  rw [Typestate.follows_bind, follows_commit]
  refine ⟨trivial, fun inserted => ?_⟩
  dsimp only
  split_ifs
  · rw [Typestate.follows_bind, follows_commit]
    exact ⟨trivial, fun _ => trivial⟩
  · trivial

theorem follows_effectiveCommittedBalance (userId : UserId) (auctionId : LotId)
    (currentPrice : Money) {post : Money → List Key → Prop} (hPost : ∀ committed, post committed requested) :
    (ascending Key.Before).Follows (effectiveCommittedBalance userId auctionId currentPrice) post
      requested := by
  unfold effectiveCommittedBalance
  rw [Typestate.follows_bind, getCommittedBalance, follows_query]
  intro d
  rw [Typestate.follows_bind, selectLastBid, follows_query]
  intro d'
  split_ifs
  · exact hPost _
  · exact hPost _

/-- A bid locks its lot and then its bidder. -/
theorem placeBid_follows (userId : UserId) (bid : BidCreate) :
    (ascending Key.Before).Follows (placeBid userId bid) (fun _ _ => True) [] := by
  unfold placeBid
  rw [Typestate.follows_bind, follows_getCurrentUser]
  intro d user _
  rw [Typestate.follows_bind]
  apply follows_selectAuctionForUpdate
  intro row
  rw [Typestate.follows_bind, Typestate.follows_orRaise]
  intro auction _
  rw [Typestate.follows_bind, Typestate.follows_raiseIf]
  intro _
  rw [Typestate.follows_bind, Typestate.follows_raiseIf]
  intro _
  rw [Typestate.follows_bind, Typestate.follows_raiseIf]
  intro _
  rw [Typestate.follows_bind, follows_utcnow]
  intro now
  rw [Typestate.follows_bind, Typestate.follows_raiseIf]
  intro _
  rw [Typestate.follows_bind, Typestate.follows_raiseIf]
  intro _
  rw [Typestate.follows_bind, selectLastBid, follows_query]
  intro d₁
  rw [Typestate.follows_bind, Typestate.follows_raiseIf]
  intro _
  rw [Typestate.follows_bind]
  apply follows_lockUsersById _ (.inr ⟨bid.auctionId, rfl⟩)
  intro locked requested
  rw [Typestate.follows_bind]
  apply follows_effectiveCommittedBalance
  intro committed
  rw [Typestate.follows_bind, Typestate.follows_raiseIf]
  intro _
  rw [Typestate.follows_bind, follows_utcnow]
  intro extendedAt
  dsimp only
  rw [Typestate.follows_bind, follows_utcnow]
  intro timestamp
  rw [Typestate.follows_bind, follows_commit]
  exact ⟨trivial, fun _ => trivial⟩

/-- A purchase locks its lot, and then buyer and seller in order. -/
theorem buyNow_follows (userId : UserId) (auctionId : LotId) :
    (ascending Key.Before).Follows (buyNow percent userId auctionId) (fun _ _ => True) [] := by
  unfold buyNow
  rw [Typestate.follows_bind, follows_getCurrentUser]
  intro d user _
  rw [Typestate.follows_bind]
  apply follows_selectAuctionForUpdate
  intro row
  rw [Typestate.follows_bind, Typestate.follows_orRaise]
  intro auction _
  rw [Typestate.follows_bind, Typestate.follows_raiseIf]
  intro _
  rw [Typestate.follows_bind, follows_utcnow]
  intro now
  rw [Typestate.follows_bind, Typestate.follows_raiseIf]
  intro _
  rw [Typestate.follows_bind, Typestate.follows_raiseIf]
  intro _
  rw [Typestate.follows_bind, Typestate.follows_orRaise]
  intro binPrice _
  rw [Typestate.follows_bind, Typestate.follows_raiseIf]
  intro _
  rw [Typestate.follows_bind]
  apply follows_lockUsersById _ (.inr ⟨auctionId, rfl⟩)
  intro locked requested
  rw [Typestate.follows_bind, getCommittedBalance, follows_query]
  intro d'
  rw [Typestate.follows_bind, Typestate.follows_raiseIf]
  intro _
  rw [Typestate.follows_bind, follows_utcnow]
  intro boughtAt
  dsimp only
  rw [Typestate.follows_bind, follows_commit]
  exact ⟨trivial, fun _ => trivial⟩

theorem updateAuction_follows (userId : UserId) (auctionId : LotId) (data : AuctionUpdate) :
    (ascending Key.Before).Follows (updateAuction userId auctionId data) (fun _ _ => True) [] := by
  unfold updateAuction
  rw [Typestate.follows_bind, follows_getCurrentUser]
  intro d user _
  rw [Typestate.follows_bind]
  apply follows_selectAuctionForUpdate
  intro row
  rw [Typestate.follows_bind, Typestate.follows_orRaise]
  intro auction _
  rw [Typestate.follows_bind, Typestate.follows_raiseIf]
  intro _
  rw [Typestate.follows_bind, Typestate.follows_raiseIf]
  intro _
  rw [Typestate.follows_bind, bidsCount, follows_query]
  intro d'
  rw [Typestate.follows_bind, Typestate.follows_raiseIf]
  intro _
  rw [Typestate.follows_bind]
  apply follows_checkCategory
  · exact fun _ => rfl
  rw [Typestate.follows_bind, Typestate.follows_raiseIf]
  intro _
  rw [Typestate.follows_bind, Typestate.follows_raiseIf]
  intro _
  rw [Typestate.follows_bind, follows_commit]
  exact ⟨trivial, fun _ => trivial⟩

theorem deleteAuction_follows (userId : UserId) (auctionId : LotId) :
    (ascending Key.Before).Follows (deleteAuction userId auctionId) (fun _ _ => True) [] := by
  unfold deleteAuction
  rw [Typestate.follows_bind, follows_getCurrentUser]
  intro d user _
  rw [Typestate.follows_bind]
  apply follows_selectAuctionForUpdate
  intro row
  rw [Typestate.follows_bind, Typestate.follows_orRaise]
  intro auction _
  rw [Typestate.follows_bind, Typestate.follows_raiseIf]
  intro _
  rw [Typestate.follows_bind, bidsCount, follows_query]
  intro d'
  rw [Typestate.follows_bind, Typestate.follows_raiseIf]
  intro _
  rw [Typestate.follows_bind, Typestate.follows_raiseIf]
  intro _
  rw [Typestate.follows_bind, follows_commit]
  exact ⟨trivial, fun _ => trivial⟩

/-- The second user it locks is read under the lock of the lot. -/
theorem completeAuction_follows (auctionId : LotId) (identity : Option Auction) :
    (ascending Key.Before).Follows (completeAuction percent auctionId identity)
      (fun _ _ => True) [] := by
  unfold completeAuction
  rw [Typestate.follows_bind]
  apply follows_selectAuctionForUpdate
  intro row
  cases row with
  | none => trivial
  | some row =>
      dsimp only
      split_ifs
      · rw [Typestate.follows_bind, follows_utcnow]
        intro now
        split_ifs
        · trivial
        · rw [Typestate.follows_bind, selectLastBid, follows_query]
          intro d
          cases d.lastBid auctionId with
          | none =>
              dsimp only
              rw [Typestate.follows_bind, follows_commit]
              exact ⟨trivial, fun _ => trivial⟩
          | some lastBid =>
              dsimp only
              rw [Typestate.follows_bind]
              apply follows_lockUsersById _ (.inr ⟨auctionId, rfl⟩)
              intro locked requested
              rw [Typestate.follows_bind, follows_commit]
              exact ⟨trivial, fun _ => trivial⟩
      · trivial

/-- A completion locks its lot, and then winner and creator in order. -/
theorem waitAndComplete_follows (auctionId : LotId) :
    (ascending Key.Before).Follows (waitAndComplete percent auctionId) (fun _ _ => True) [] := by
  unfold waitAndComplete
  rw [Typestate.follows_bind, follows_query]
  intro d
  cases d.auctions.get auctionId with
  | none => trivial
  | some auction =>
      dsimp only
      split_ifs
      · rw [Typestate.follows_bind, follows_utcnow]
        intro now
        split_ifs
        · trivial
        · exact completeAuction_follows auctionId (some auction)
      · trivial

/-- Every request of the marketplace locks in ascending order. -/
theorem handle_ascends (request : Request) :
    (ascending Key.Before).Follows (handle percent request) (fun _ _ => True) [] := by
  cases request with
  | register =>
      show (ascending Key.Before).Follows (commit Db.addUser >>= _) _ _
      rw [Typestate.follows_bind, follows_commit]
      exact ⟨trivial, fun _ => trivial⟩
  | deposit userId data => exact (Typestate.follows_bind _ _ _ _ _).mpr (deposit_follows userId data)
  | withdraw userId data => exact (Typestate.follows_bind _ _ _ _ _).mpr (withdraw_follows userId data)
  | createAuction userId data => exact createAuction_ascends userId data
  | updateAuction userId auctionId data => exact updateAuction_follows userId auctionId data
  | deleteAuction userId auctionId => exact deleteAuction_follows userId auctionId
  | placeBid userId bid => exact (Typestate.follows_bind _ _ _ _ _).mpr (placeBid_follows userId bid)
  | buyNow userId auctionId => exact buyNow_follows userId auctionId
  | tick auctionId => exact waitAndComplete_follows auctionId
  | completeAuction auctionId => exact completeAuction_follows auctionId none

end Market

namespace Accounts

variable {S : Settings} {α : Type} {requested : List ℤ}

section Effects

variable {τ : Type} (T : Typestate accounts τ) (state : τ)

theorem follows_utcnow (post : Time → τ → Prop) :
    T.Follows utcnow post state ↔ ∀ t, post t (T.after state (.clock t)) := Iff.rfl

theorem follows_query (select : Backend → α) (post : α → τ → Prop) :
    T.Follows (query select) post state ↔ ∀ b, post (select b) (T.after state (.read .none b)) :=
  Iff.rfl

theorem follows_update (note : Note) (write : Backend → Backend) (post : Unit → τ → Prop) :
    T.Follows (update note write) post state ↔
      T.update state note write ∧ post () (T.after state (.updated note)) := Iff.rfl

theorem follows_commit (note : Note) (write : Backend → Backend) (post : Unit → τ → Prop) :
    T.Follows (commit note write) post state ↔
      T.commit state note write ∧ ∀ b, post () (T.after state (.committed note b)) := by
  simp [commit, Prog.orRaise, Typestate.Follows, bind, Prog.bind, pure]

end Effects

theorem follows_selectUserForUpdate (userId : ℤ) {post : Option User → List ℤ → Prop}
    (hPost : ∀ row, post row [userId]) :
    (ascending (S := accounts) (· < ·)).Follows (selectUserForUpdate userId) post [] :=
  ⟨List.pairwise_singleton _ _, fun b => hPost (b.userById userId)⟩

theorem follows_selectUsernameForUpdate (username : String) {post : Option User → List ℤ → Prop}
    (hPost : ∀ row requested, post row requested) :
    (ascending (S := accounts) (· < ·)).Follows (selectUsernameForUpdate username) post [] := by
  unfold selectUsernameForUpdate
  rw [Typestate.follows_bind, follows_query]
  intro b
  cases b.userByUsername username with
  | none => exact hPost none []
  | some found =>
      dsimp only
      rw [Typestate.follows_bind]
      apply follows_selectUserForUpdate
      intro row
      exact hPost _ _

theorem login_follows (data : UserLogin) :
    (ascending (S := accounts) (· < ·)).Follows (login S data) (fun _ _ => True) [] := by
  unfold login
  rw [Typestate.follows_bind]
  apply follows_selectUsernameForUpdate
  intro row requested
  rw [Typestate.follows_bind, Typestate.follows_orRaise]
  intro dbUser _
  rw [Typestate.follows_bind, follows_utcnow]
  intro now
  rw [Typestate.follows_bind, Typestate.follows_raiseIf]
  intro _
  split_ifs
  · rw [Typestate.follows_bind, follows_commit]
    exact ⟨trivial, fun _ => trivial⟩
  · rw [Typestate.follows_bind, Typestate.follows_ofExcept]
    intro hashedPassword _
    rw [Typestate.follows_bind, follows_commit]
    refine ⟨trivial, fun b => ?_⟩
    rw [Typestate.follows_bind]
    intro b'
    rw [Typestate.follows_orRaise]
    intro refreshed _
    rw [Typestate.follows_bind, follows_utcnow]
    intro issued
    rw [Typestate.follows_bind, follows_update]
    exact ⟨trivial, trivial⟩

theorem follows_closeEach (process : Nat) (userId : UserId) (bucket : List Socket)
    {post : Unit → List ℤ → Prop} (hPost : post () requested) :
    (ascending (S := accounts) (· < ·)).Follows (closeEach process userId bucket) post requested := by
  induction bucket with
  | nil => exact hPost
  | cons ws rest ih =>
      rw [closeEach, Typestate.follows_bind, follows_update]
      exact ⟨trivial, ih⟩

/-- What a rotation does once it has locked its row. -/
theorem follows_invalidateUserSessions (process : Nat) (user : User)
    {post : User × Nat → List ℤ → Prop} (hPost : ∀ rotated, post rotated requested) :
    (ascending (S := accounts) (· < ·)).Follows (invalidateUserSessions process user) post
      requested := by
  unfold invalidateUserSessions
  rw [Typestate.follows_bind, follows_query]
  intro b
  dsimp only
  rw [Typestate.follows_bind]
  apply follows_closeEach
  exact hPost _

theorem changePassword_follows (process : Nat) (data : ChangePasswordRequest S) :
    (ascending (S := accounts) (· < ·)).Follows (changePassword S process data)
      (fun _ _ => True) [] := by
  unfold changePassword
  rw [Typestate.follows_bind, follows_utcnow]
  intro now
  rw [Typestate.follows_bind, follows_query]
  intro b
  rw [Typestate.follows_bind, Typestate.follows_ofExcept]
  intro currentUser _
  rw [Typestate.follows_bind]
  apply follows_selectUserForUpdate
  intro row
  rw [Typestate.follows_bind, Typestate.follows_orRaise]
  intro locked _
  rw [Typestate.follows_bind, Typestate.follows_raiseIf]
  intro _
  rw [Typestate.follows_bind, Typestate.follows_ofExcept]
  intro hashedPassword _
  rw [Typestate.follows_bind]
  apply follows_invalidateUserSessions
  intro rotated
  dsimp only
  rw [Typestate.follows_bind, commitRotation, follows_commit]
  refine ⟨trivial, fun b' => ?_⟩
  rw [Typestate.follows_bind, follows_utcnow]
  intro issued
  rw [Typestate.follows_bind, rotationReturns, follows_update]
  exact ⟨trivial, trivial⟩

theorem passwordResetConfirm_follows (process : Nat) (data : PasswordResetConfirmBody S) :
    (ascending (S := accounts) (· < ·)).Follows (passwordResetConfirm S process data)
      (fun _ _ => True) [] := by
  unfold passwordResetConfirm
  rw [Typestate.follows_bind, follows_utcnow]
  intro now
  rw [Typestate.follows_bind, Typestate.follows_ofExcept]
  intro claims _
  rw [Typestate.follows_bind]
  apply follows_selectUserForUpdate
  intro row
  rw [Typestate.follows_bind, Typestate.follows_orRaise]
  intro user _
  rw [Typestate.follows_bind, Typestate.follows_raiseIf]
  intro _
  rw [Typestate.follows_bind, Typestate.follows_ofExcept]
  intro hashedPassword _
  rw [Typestate.follows_bind]
  apply follows_invalidateUserSessions
  intro rotated
  dsimp only
  rw [Typestate.follows_bind, commitRotation, follows_commit]
  exact ⟨trivial, fun b => ⟨trivial, trivial⟩⟩

theorem notificationsWebsocket_follows (process : Nat) (handshake : Handshake S) :
    (ascending (S := accounts) (· < ·)).Follows (notificationsWebsocket S process handshake)
      (fun _ _ => True) [] := by
  unfold notificationsWebsocket
  cases handshake.token with
  | none => trivial
  | some token =>
      dsimp only
      rw [Typestate.follows_bind, follows_utcnow]
      intro now
      rw [Typestate.follows_bind, follows_query]
      intro b
      cases admitSocket S now token handshake.userId b.userById with
      | none => trivial
      | some user =>
          dsimp only
          rw [Typestate.follows_bind, follows_update]
          refine ⟨trivial, ?_⟩
          split_ifs
          · trivial
          · exact ⟨trivial, trivial⟩

/-- Every operation on accounts locks one row. -/
theorem handle_ascends (process : Nat) (operation : Operation S) :
    (ascending (S := accounts) (· < ·)).Follows (handle S process operation)
      (fun _ _ => True) [] := by
  cases operation with
  | login data => exact (Typestate.follows_bind _ _ _ _ _).mpr (login_follows data)
  | changePassword data =>
      exact (Typestate.follows_bind _ _ _ _ _).mpr (changePassword_follows process data)
  | passwordResetConfirm data => exact passwordResetConfirm_follows process data
  | notificationsWebsocket handshake => exact notificationsWebsocket_follows process handshake

end Accounts

namespace Uploads

theorem follows_checkUploadQuota (userId : UserId) (size : Nat)
    {post : UploadWindow → List UserId → Prop} (hPost : ∀ charged, post charged [userId]) :
    (ascending (S := uploads) (· < ·)).Follows (checkUploadQuota userId size) post [] := by
  unfold checkUploadQuota
  rw [Typestate.follows_bind]
  refine ⟨List.pairwise_singleton _ _, fun d => ?_⟩
  dsimp only
  rw [Typestate.Follows, Typestate.follows_bind, Typestate.follows_orRaise]
  intro user _
  rw [Typestate.follows_bind]
  intro now
  rw [Typestate.Follows, Typestate.follows_bind, Typestate.follows_raiseIf]
  intro _
  exact hPost _

/-- An upload locks the row of its user. -/
theorem upload_follows (userId : UserId) (size : Nat) :
    (ascending (S := uploads) (· < ·)).Follows (upload userId size) (fun _ _ => True) [] := by
  unfold upload getCurrentUser
  rw [Typestate.follows_bind]
  intro d
  rw [Typestate.follows_orRaise]
  intro user _
  rw [Typestate.follows_bind]
  apply follows_checkUploadQuota
  intro charged
  exact ⟨trivial, fun d => trivial, trivial⟩

end Uploads

end OnlineAuction
