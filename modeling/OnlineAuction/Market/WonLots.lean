import OnlineAuction.Market.FrozenLots
import OnlineAuction.Market.Participation

/-! The wins and losses of a user, as they are counted by `get_my_participation` and
by `get_user_profile`. The first comes upon a lot through the user's bids, the
second through its winner. -/

namespace OnlineAuction

open Arrangements RowLocks

/-- A condition holds of all that another holds of, if it leaves as many. -/
theorem countP_and_eq_iff {α : Type} (p q : α → Bool) (xs : List α) :
    (xs.countP fun x => p x && q x) = xs.countP q ↔ ∀ x ∈ xs, q x = true → p x = true := by
  induction xs with
  | nil => simp
  | cons x rest ih =>
      have hLe : (rest.countP fun x => p x && q x) ≤ rest.countP q :=
        List.countP_mono_left fun x _ h => (Bool.and_eq_true_iff.mp h).2
      rw [List.forall_mem_cons, ← ih, List.countP_cons, List.countP_cons]
      cases p x <;> cases q x <;> simp
      omega

namespace Db

variable {A : Assumptions} {d : Db} {userId : UserId} {mine : List Bid}

def hasBidOn (d : Db) (userId : UserId) (auction : Auction) : Bool :=
  ((d.bidsOf userId).map Bid.auctionId).contains auction.id

/-- A bucket holds those lots that the user has bid on, while there is room for all. -/
theorem countP_participatingRows (hWell : WellFormed A d)
    (hMine : Arrangement ByLot (d.bidsOf userId) mine)
    (hFew : (d.lotsBidOn userId).length ≤ participationBucketLimit) (bucket : Auction → Bool) :
    ((d.participatingRows mine).filter fun row => bucket row.1).length =
      d.lots.countP fun auction => bucket auction && d.hasBidOn userId auction := by
  have hAll : d.listedLots userId = (d.lotsBidOn userId).insertionSort LatestEnd :=
    List.take_of_length_le (by rwa [List.length_insertionSort])
  calc _ = ((d.participatingRows mine).map Prod.fst).countP bucket := by
        rw [List.countP_map, List.countP_eq_length_filter]
        rfl
    _ = (d.lotsBidOn userId).countP bucket := by
        rw [participatingRows_lots hWell hMine, hAll]
        exact (List.perm_insertionSort _ _).countP_eq _
    _ = _ := List.countP_filter

/-- A user takes part in a lot by at least one bid on it. -/
theorem hasBidOn_iff {row : Auction} :
    d.hasBidOn userId row = true ↔ ∃ bid ∈ d.bidsOn row.id, bid.userId = userId := by
  simp only [hasBidOn, List.contains_iff_mem, List.mem_map, mem_bidsOf, mem_bidsOn]
  constructor
  · rintro ⟨bid, ⟨hStored, hUser⟩, hLot⟩
    exact ⟨bid, ⟨hStored, hLot⟩, hUser⟩
  · rintro ⟨bid, ⟨hStored, hLot⟩, hUser⟩
    exact ⟨bid, ⟨hStored, hUser⟩, hLot⟩

end Db

section Counts

variable {A : Assumptions} {d : Db} {userId : UserId} {mine : List Bid} {now : LotId → Time}

/-- Of a stored lot the two status flags are opposite. -/
theorem completed_of_mem_lots (hWell : WellFormed A d) (hStanding : Standing d) {row : Auction}
    (hRow : row ∈ d.lots) : row.isCompleted = !row.isActive := by
  have hStands := hStanding row.id
  rw [(Db.mem_lots hWell).mp hRow] at hStands
  exact hStands.decided.completed

/-- Of the lots that the profile counts as won, the dashboard counts those with a bid. -/
theorem wonCount_eq (hWell : WellFormed A d) (hStanding : Standing d)
    (hMine : Arrangement Db.ByLot (d.bidsOf userId) mine)
    (hFew : (d.lotsBidOn userId).length ≤ Db.participationBucketLimit) :
    (getMyParticipation d userId mine now).stats.wonCount = d.lots.countP fun auction =>
      d.hasBidOn userId auction && (auction.winnerId = some userId && auction.isCompleted) := by
  have hWon := Db.countP_participatingRows hWell hMine hFew fun auction =>
    !auction.isActive && auction.winnerId = some userId
  calc _ = _ := (List.length_map _).trans hWon
    _ = _ := by
        apply List.countP_congr
        intro row hRow
        rw [completed_of_mem_lots hWell hStanding hRow]
        simp [and_comm]

/-- Both count the same lots as lost. -/
theorem lostCount_eq (hWell : WellFormed A d) (hStanding : Standing d)
    (hMine : Arrangement Db.ByLot (d.bidsOf userId) mine)
    (hFew : (d.lotsBidOn userId).length ≤ Db.participationBucketLimit) :
    (getMyParticipation d userId mine now).lostAuctions.length =
      (getUserProfile d userId now).stats.lostCount := by
  have hLost := Db.countP_participatingRows hWell hMine hFew fun auction =>
    !auction.isActive && auction.winnerId ≠ some userId
  calc _ = _ := (List.length_insertionSort _ _).trans ((List.length_map _).trans hLost)
    _ = _ := by
        apply List.countP_congr
        intro row hRow
        rw [completed_of_mem_lots hWell hStanding hRow]
        cases row.winnerId with
        | none => simp [Db.hasBidOn, and_comm]
        | some winner => simp [Db.hasBidOn, and_comm, and_left_comm, and_assoc]

end Counts

/-- In every reachable state, for a user who has bid on no more lots than are listed:
the two views agree on wins and losses if and only if the user has bid on every lot
that they have won, and so has bought none at its fixed price. -/
theorem participation_agrees_iff {percent : CommissionPercent} {categories : List Nat}
    {c : Config market} (run : Reaches (handle percent) (fun _ _ _ => True)
      (Db.initial categories) c) (userId : UserId)
    (hFew : (c.db.lotsBidOn userId).length ≤ 200) (now : LotId → Time) :
    (∀ mine, Arrangement Db.ByLot (c.db.bidsOf userId) mine →
      (getMyParticipation c.db userId mine now).stats.wonCount =
        (getUserProfile c.db userId now).stats.wonCount ∧
      (getMyParticipation c.db userId mine now).lostAuctions.length =
        (getUserProfile c.db userId now).stats.lostCount) ↔
      ∀ auctionId row, c.db.auctions.get auctionId = some row → row.isCompleted = true →
        row.winnerId = some userId → ∃ bid ∈ c.db.bidsOn auctionId, bid.userId = userId := by
  have run' : Reaches (handle percent) Assumptions.none.ok (Db.initial categories) c :=
    run.weaken fun c sid e _ => Assumptions.none_ok c sid e
  have hWell := wellFormed_of_reaches run'
  have hStanding : Standing c.db := invariant_of_commits (Standing.initial categories)
    (fun hWell hStanding hCommit => hStanding.commit hWell hCommit) run'
  have hAgree := countP_and_eq_iff (c.db.hasBidOn userId)
    (fun auction => auction.winnerId = some userId && auction.isCompleted) c.db.lots
  constructor
  · intro hSame auctionId row hRow hCompleted hWinner
    obtain rfl := hWell.auctionIds auctionId row hRow
    have hCounts := (hSame _ (.of_insertionSort _)).1
    rw [wonCount_eq hWell hStanding (.of_insertionSort _) hFew] at hCounts
    apply Db.hasBidOn_iff.mp
    exact hAgree.mp hCounts row ((Db.mem_lots hWell).mpr hRow) (by simp [hWinner, hCompleted])
  · intro hBids mine hMine
    refine ⟨?_, lostCount_eq hWell hStanding hMine hFew⟩
    rw [wonCount_eq hWell hStanding hMine hFew]
    apply hAgree.mpr
    intro row hRow hWon
    obtain ⟨hWinner, hCompleted⟩ := Bool.and_eq_true_iff.mp hWon
    exact Db.hasBidOn_iff.mpr (hBids row.id row ((Db.mem_lots hWell).mp hRow) hCompleted
      (of_decide_eq_true hWinner))

/-- User 1 has won the chair by a bid, and nothing else. -/
theorem participation_agrees_chair : ∃ c : Config market,
    (getUserProfile c.db 1 fun _ => 0).stats.wonCount = 1 ∧
      (getMyParticipation c.db 1 (c.db.bidsOf 1) fun _ => 0).stats.wonCount = 1 := by
  obtain ⟨c, run, hWon, hOf, hFew, hOn, hSerial⟩ := exists_reaches (handle defaultCommission)
    (fun _ _ _ => True) (Db.initial []) firstSale
    (fun c => (getUserProfile c.db 1 fun _ => 0).stats.wonCount = 1 ∧
      c.db.bidsOf 1 = [⟨0, 20000, seconds 1, 1, 0⟩] ∧ (c.db.lotsBidOn 1).length ≤ 200 ∧
      c.db.bidsOn 0 = [⟨0, 20000, seconds 1, 1, 0⟩] ∧ c.db.auctions.serial = 1)
    (by decide +kernel)
  have hMine : Arrangement Db.ByLot (c.db.bidsOf 1) (c.db.bidsOf 1) := by
    refine ⟨.refl _, ?_⟩
    rw [hOf]
    exact List.pairwise_singleton _ _
  refine ⟨c, hWon, ?_⟩
  rw [((participation_agrees_iff run 1 hFew fun _ => 0).mpr ?_ _ hMine).1, hWon]
  intro auctionId row hRow _ _
  have hLt := Table.lt_serial hRow
  rw [hSerial] at hLt
  obtain rfl : auctionId = 0 := Nat.lt_one_iff.mp hLt
  exact ⟨_, by rw [hOn]; exact List.mem_singleton_self _, rfl⟩

/-- User 1 buys a chair at its fixed price. -/
def boughtChair : List (Action market Request) :=
  [.start 0 .register, .step 0, .start 1 .register, .step 1] ++
  [.start 2 (.createAuction 0 { chair with
    auctionType := .bin, binPrice := some chair.startingPrice }), .step 2, .clock 2 0, .step 2] ++
  [.start 3 (.buyNow 1 0)] ++ steps 3 2 ++ [.clock 3 (seconds 1)] ++ steps 3 3 ++
  [.clock 3 (seconds 1), .step 3]

/-- A purchase at the fixed price counts as won on the profile and is no won
auction of the participation page. -/
theorem participation_disagrees : ¬∀ c : Config market,
    Reaches (handle defaultCommission) (fun _ _ _ => True) (Db.initial []) c → ∀ userId,
      (c.db.lotsBidOn userId).length ≤ 200 → ∀ now mine,
        Arrangement Db.ByLot (c.db.bidsOf userId) mine →
          (getMyParticipation c.db userId mine now).stats.wonCount =
            (getUserProfile c.db userId now).stats.wonCount ∧
          (getMyParticipation c.db userId mine now).lostAuctions.length =
            (getUserProfile c.db userId now).stats.lostCount := by
  intro hAgrees
  obtain ⟨c, run, hOf, hFew, hWon, hShown⟩ := exists_reaches (handle defaultCommission)
    (fun _ _ _ => True) (Db.initial []) boughtChair
    (fun c => c.db.bidsOf 1 = [] ∧ (c.db.lotsBidOn 1).length ≤ 200 ∧
      (getUserProfile c.db 1 fun _ => 0).stats.wonCount = 1 ∧
      (getMyParticipation c.db 1 [] fun _ => 0).stats.wonCount = 0) (by decide +kernel)
  have hSame := (hAgrees c run 1 hFew (fun _ => 0) [] ⟨by rw [hOf], .nil⟩).1
  rw [hWon, hShown] at hSame
  cases hSame

end OnlineAuction
