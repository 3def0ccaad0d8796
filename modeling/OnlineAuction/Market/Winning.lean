import OnlineAuction.Market.Participation

/-! Who is shown to be winning. The dashboard holds the user's latest bid against
the current price; it takes bids of one time in any order, and so may take an
earlier one for the latest. -/

namespace OnlineAuction

open Arrangements RowLocks

namespace Db

def Leads (d : Db) (userId : UserId) (auctionId : LotId) : Prop :=
  (d.lastBid auctionId).map Bid.userId = some userId

/-- A leader has made no other bid at the time of the latest. -/
def LoneLead (d : Db) (userId : UserId) (auctionId : LotId) : Prop :=
  ∀ last, d.lastBid auctionId = some last → last.userId = userId →
    ∀ bid ∈ d.bidsOn auctionId, bid.userId = userId → bid.timestamp = last.timestamp → bid = last

variable {A : Assumptions} {d : Db} {userId : UserId} {auctionId : LotId} {row : Auction}

theorem timestamp_le_lastBid (hWell : WellFormed A d) (hClock : A.clockMonotone) {last bid : Bid}
    (hLast : d.lastBid auctionId = some last) (hBid : bid ∈ d.bidsOn auctionId) :
    bid.timestamp ≤ last.timestamp := by
  have hOlder := hWell.bidsOn_older hClock auctionId
  rw [hWell.lastBid_eq hClock] at hLast
  obtain ⟨front, hFront⟩ := List.getLast?_eq_some_iff.mp hLast
  rw [hFront] at hOlder hBid
  rcases List.mem_append.mp hBid with hOld | hNew
  · exact ((List.pairwise_append.mp hOlder).2.2 bid hOld last (by simp)).1
  · rw [List.mem_singleton.mp hNew]

/-- Of the bids on a lot, the latest one alone is at the current price. -/
theorem amount_eq_iff (hWell : WellFormed A d) (hClock : A.clockMonotone) (hKept : HistoryKept d)
    (hRow : d.auctions.get auctionId = some row) {last bid : Bid}
    (hLast : d.lastBid auctionId = some last) (hBid : bid ∈ d.bidsOn auctionId) :
    bid.amount = row.currentPrice ↔ bid = last := by
  have hHistory := hKept.histories auctionId row hRow
  rw [hWell.lastBid_eq hClock] at hLast
  constructor
  · exact hHistory.eq_last hLast hBid
  · rintro rfl
    exact hHistory.last bid hLast

/-- A bid that the arrangement puts first on the lot is one of the latest of the user. -/
theorem first_of_arrangement {mine : List Bid} (hMine : Arrangement ByLot (d.bidsOf userId) mine)
    {bid : Bid} (hFirst : (mine.filter fun bid => bid.auctionId = auctionId).head? = some bid) :
    bid ∈ d.bidsOn auctionId ∧ bid.userId = userId ∧ ∀ other ∈ d.bidsOn auctionId,
      other.userId = userId → other.timestamp ≤ bid.timestamp := by
  have hRefl : Std.Refl ByLot := ⟨fun a => .inr ⟨rfl, le_rfl⟩⟩
  obtain ⟨hMem, hBefore⟩ := (hMine.filter _).head_first hFirst
  obtain ⟨hBid, hLot⟩ := List.mem_filter.mp hMem
  obtain ⟨hStored, hUser⟩ := mem_bidsOf.mp hBid
  have hLot : bid.auctionId = auctionId := of_decide_eq_true hLot
  refine ⟨mem_bidsOn.mpr ⟨hStored, hLot⟩, hUser, fun other hOther hOwn => ?_⟩
  obtain ⟨hStored', hLot'⟩ := mem_bidsOn.mp hOther
  have hMem' : other ∈ (d.bidsOf userId).filter fun bid => bid.auctionId = auctionId :=
    List.mem_filter.mpr ⟨mem_bidsOf.mpr ⟨hStored', hOwn⟩, decide_eq_true hLot'⟩
  rcases hBefore other hMem' with hLt | ⟨_, hLe⟩
  · rw [hLot, hLot'] at hLt
    exact absurd hLt (lt_irrefl _)
  · exact hLe

/-- The flag of a lot, when the arrangement puts this bid first. -/
theorem first_eq_iff_leads (hWell : WellFormed A d) (hClock : A.clockMonotone)
    (hLone : d.LoneLead userId auctionId) {mine : List Bid}
    (hMine : Arrangement ByLot (d.bidsOf userId) mine) {last bid : Bid}
    (hLast : d.lastBid auctionId = some last)
    (hFirst : (mine.filter fun bid => bid.auctionId = auctionId).head? = some bid) :
    bid = last ↔ d.Leads userId auctionId := by
  obtain ⟨hBid, hUser, hLatest⟩ := first_of_arrangement hMine hFirst
  rw [Leads, hLast, Option.map_some, Option.some.injEq]
  constructor
  · rintro rfl
    exact hUser
  · intro hLeads
    have hMem : last ∈ d.bidsOn auctionId := mem_bidsOn.mpr (lastBid_mem hLast)
    exact hLone last hLast hLeads bid hBid hUser
      (le_antisymm (timestamp_le_lastBid hWell hClock hLast hBid) (hLatest last hMem hLeads))

/-- Any of the bids at the time of the latest may be put first. -/
theorem exists_arrangement (hWell : WellFormed A d) (hClock : A.clockMonotone) {last bid : Bid}
    (hLast : d.lastBid auctionId = some last) (hBid : bid ∈ d.bidsOn auctionId)
    (hUser : bid.userId = userId) (hTime : bid.timestamp = last.timestamp) :
    ∃ mine, Arrangement ByLot (d.bidsOf userId) mine ∧
      (mine.filter fun bid => bid.auctionId = auctionId).head? = some bid := by
  obtain ⟨hStored, hLot⟩ := mem_bidsOn.mp hBid
  apply exists_first
  · exact List.mem_filter.mpr ⟨mem_bidsOf.mpr ⟨hStored, hUser⟩, decide_eq_true hLot⟩
  · intro other hOther
    obtain ⟨hMem, hLot'⟩ := List.mem_filter.mp hOther
    have hLot' : other.auctionId = auctionId := of_decide_eq_true hLot'
    have hOn : other ∈ d.bidsOn auctionId := mem_bidsOn.mpr ⟨(mem_bidsOf.mp hMem).1, hLot'⟩
    exact .inr ⟨hLot.trans hLot'.symm, hTime ▸ timestamp_le_lastBid hWell hClock hLast hOn⟩

end Db

/-- The active bids shown are the rows of active lots the user bid on. -/
theorem mem_activeBids {d : Db} {userId : UserId} {mine : List Bid} {now : LotId → Time}
    {shown : ParticipationRow} : shown ∈ (getMyParticipation d userId mine now).activeBids ↔
      ∃ auction amount, (auction, amount) ∈ d.participatingRows mine ∧ auction.isActive = true ∧
        participationRow (now auction.id) auction (some amount) = shown := by
  simp [getMyParticipation, and_assoc]

/-- In every reachable state: whatever the order in which the database returns bids
of one time, an active lot that is listed is flagged for its leader alone, if and
only if the leader has made no other bid on it at the time of the latest. -/
theorem is_winning_iff_leads {percent : CommissionPercent} {categories : List Nat}
    {c : Config market} (run : Reaches (handle percent) ClockMonotone (Db.initial categories) c)
    (userId : UserId) (auctionId : LotId) (row : Auction)
    (hRow : c.db.auctions.get auctionId = some row) (hActive : row.isActive = true)
    (now : LotId → Time) :
    (∀ mine, Arrangement Db.ByLot (c.db.bidsOf userId) mine →
      ∀ shown ∈ (getMyParticipation c.db userId mine now).activeBids, shown.auctionId = auctionId →
        (shown.isWinning = true ↔ c.db.Leads userId auctionId)) ↔
      (row ∈ c.db.listedLots userId → c.db.LoneLead userId auctionId) := by
  have run' : Reaches (handle percent) (Assumptions.ok ⟨True, False, False⟩)
      (Db.initial categories) c := run.weaken fun _ _ _ h => ⟨fun _ => h, nofun, nofun⟩
  have hWell := wellFormed_of_reaches run'
  have hKept : HistoryKept c.db := invariant_of_commits (.of_initial categories)
    (fun hWell hKept hCommit => hKept.commit trivial hWell hCommit) run'
  obtain rfl := hWell.auctionIds auctionId row hRow
  constructor
  · intro hFlags hListed last hLast hLeads bid hBid hUser hTime
    obtain ⟨mine, hMine, hFirst⟩ :=
      Db.exists_arrangement hWell trivial hLast hBid hUser hTime
    rw [← Db.participatingRows_lots hWell hMine, List.mem_map] at hListed
    obtain ⟨⟨auction, amount⟩, hShown, rfl⟩ := hListed
    obtain ⟨_, first, hSame, rfl⟩ := Db.mem_participatingRows hWell hShown
    obtain rfl : bid = first := Option.some.inj (hFirst.symm.trans hSame)
    have hFlag := hFlags mine hMine _ (mem_activeBids.mpr ⟨_, _, hShown, hActive, rfl⟩) rfl
    have hWinning := hFlag.mpr (by rw [Db.Leads, hLast, Option.map_some, hLeads])
    have hPrice := Option.some.inj (of_decide_eq_true hWinning)
    exact (Db.amount_eq_iff hWell trivial hKept hRow hLast hBid).mp hPrice.symm
  · intro hLone mine hMine shown hShown hLot
    obtain ⟨auction, amount, hMem, _, rfl⟩ := mem_activeBids.mp hShown
    obtain ⟨hGet, bid, hFirst, rfl⟩ := Db.mem_participatingRows hWell hMem
    have hLot : auction.id = row.id := hLot
    obtain rfl : auction = row := Option.some.inj (hGet.symm.trans (hLot ▸ hRow))
    have hListed : auction ∈ c.db.listedLots userId := by
      rw [← Db.participatingRows_lots hWell hMine]
      exact List.mem_map_of_mem hMem
    obtain ⟨hBid, _, _⟩ := Db.first_of_arrangement hMine hFirst
    cases hLast : c.db.lastBid auction.id with
    | none =>
        rw [Db.lastBid_eq_none.mp hLast] at hBid
        cases hBid
    | some last =>
        rw [← Db.first_eq_iff_leads hWell trivial (hLone hListed) hMine hLast hFirst,
          ← Db.amount_eq_iff hWell trivial hKept hRow hLast hBid]
        show decide (some auction.currentPrice = some bid.amount) = true ↔ _
        rw [decide_eq_true_iff, Option.some.injEq, eq_comm]

/-- User 1 is the first to bid on the chair, and is shown to be winning. -/
theorem is_winning_iff_leads_chair : ∃ c : Config market, c.db.Leads 1 0 ∧
    ∀ shown ∈ (getMyParticipation c.db 1 (c.db.bidsOf 1) fun _ => minutes 1).activeBids,
      shown.auctionId = 0 → shown.isWinning = true := by
  obtain ⟨c, run, hBids, row, hRow, hActive⟩ := exists_reaches (handle defaultCommission)
    ClockMonotone (Db.initial []) firstBid
    (fun c => c.db.bids = [⟨0, 20000, seconds 1, 1, 0⟩] ∧
      ∃ row ∈ c.db.auctions.get 0, row.isActive = true) (by decide +kernel)
  have hOn : c.db.bidsOn 0 = [⟨0, 20000, seconds 1, 1, 0⟩] := by
    rw [Db.bidsOn, hBids]
    decide
  have hOf : c.db.bidsOf 1 = [⟨0, 20000, seconds 1, 1, 0⟩] := by
    rw [Db.bidsOf, hBids]
    decide
  have hLast : c.db.lastBid 0 = some ⟨0, 20000, seconds 1, 1, 0⟩ := by
    rw [Db.lastBid, hOn]
    decide
  have hLeads : c.db.Leads 1 0 := by
    rw [Db.Leads, hLast]
    rfl
  have hLone : c.db.LoneLead 1 0 := by
    intro last hIs _ bid hBid
    rw [hLast, Option.some.injEq] at hIs
    rw [hOn, List.mem_singleton] at hBid
    rw [hBid, hIs]
    exact fun _ _ => rfl
  refine ⟨c, hLeads, fun shown hShown hLot => ?_⟩
  have hFlags := (is_winning_iff_leads run 1 0 row hRow hActive fun _ => minutes 1).mpr
    fun _ => hLone
  refine (hFlags (c.db.bidsOf 1) ⟨.refl _, ?_⟩ shown hShown hLot).mpr hLeads
  rw [hOf]
  exact List.pairwise_singleton _ _

/-- A bid on the chair at second 1. -/
def bidAtOnce (sid : Nat) (userId : UserId) (amount : Price) : List (Action market Request) :=
  [.start sid (.placeBid userId ⟨0, amount⟩)] ++ steps sid 2 ++ [.clock sid (seconds 1)] ++
    steps sid 4 ++ [.clock sid (seconds 1), .clock sid (seconds 1), .step sid]

/-- User 1 outbids user 2, who has outbid them, all at one time. -/
def bidsAtOnce : List (Action market Request) :=
  firstBid ++ [.start 4 .register, .step 4] ++ bidAtOnce 5 2 ⟨31000, by decide⟩ ++
    bidAtOnce 6 1 ⟨40000, by decide⟩

/-- The first bid of user 1 is taken for the latest. -/
theorem is_winning_disagrees : ¬∀ c : Config market,
    Reaches (handle defaultCommission) ClockMonotone (Db.initial []) c →
    ∀ userId auctionId row, c.db.auctions.get auctionId = some row → row.isActive = true →
      ∀ now mine, Arrangement Db.ByLot (c.db.bidsOf userId) mine →
        ∀ shown ∈ (getMyParticipation c.db userId mine now).activeBids,
          shown.auctionId = auctionId → (shown.isWinning = true ↔ c.db.Leads userId auctionId) := by
  intro hAgrees
  obtain ⟨c, run, hOf, hLeads, ⟨row, hRow, hActive⟩, hShown⟩ := exists_reaches
    (handle defaultCommission) ClockMonotone (Db.initial []) bidsAtOnce
    (fun c => c.db.bidsOf 1 = [⟨0, 20000, seconds 1, 1, 0⟩, ⟨2, 40000, seconds 1, 1, 0⟩] ∧
      (c.db.lastBid 0).map Bid.userId = some 1 ∧
      (∃ row ∈ c.db.auctions.get 0, row.isActive = true) ∧
      ((getMyParticipation c.db 1 (c.db.bidsOf 1) fun _ => 0).activeBids.any fun shown =>
        shown.auctionId = 0 && !shown.isWinning) = true) (by decide +kernel)
  obtain ⟨shown, hMem, hFlag⟩ := List.any_eq_true.mp hShown
  obtain ⟨hLot, hLosing⟩ := Bool.and_eq_true_iff.mp hFlag
  have hMine : Arrangement Db.ByLot (c.db.bidsOf 1) (c.db.bidsOf 1) := by
    refine ⟨.refl _, ?_⟩
    rw [hOf]
    decide
  have hWinning := (hAgrees c run 1 0 row hRow hActive (fun _ => 0) _ hMine shown hMem
    (of_decide_eq_true hLot)).mpr hLeads
  simp [hWinning] at hLosing

end OnlineAuction
