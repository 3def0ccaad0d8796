import OnlineAuction.Market.BalanceCeiling

/-! Fixed-price lots. What the listing shows is what `buy_now` charges as long
as no edit names a starting price alone: then the prices are not dragged along. -/

namespace OnlineAuction

open RowLocks

variable {percent : CommissionPercent} {A : Assumptions} {request : Request}

/-- A fixed-price lot on sale shows its price. -/
def Coherent (row : Auction) : Prop :=
  row.isActive = true → row.auctionType = .bin →
    row.binPrice = some row.startingPrice ∧ row.currentPrice = row.startingPrice

/-- The edit of a fixed-price lot that names neither `bin_price` nor
`auction_type` gives no starting price but the fixed one. -/
def PricesTogether (d : Db) : Request → Prop
  | .updateAuction _ auctionId data => data.binPrice = none → data.auctionType = none →
      ∀ row ∈ d.auctions.get auctionId, row.auctionType = .bin →
        ∀ price ∈ data.startingPrice.join, row.binPrice = some price.val
  | _ => True

instance (d : Db) (request : Request) : Decidable (PricesTogether d request) := by
  unfold PricesTogether
  split <;> infer_instance

/-- The lot is sold as the other one was, from this starting price. -/
structure PricedAs (auction : Auction) (starting current : Money) (a : Auction) : Prop where
  auctionType : a.auctionType = auction.auctionType
  binPrice : a.binPrice = auction.binPrice
  startingPrice : a.startingPrice = starting
  currentPrice : a.currentPrice = current

/-- Setting the starting price, when it is given, sets both prices. -/
theorem PricedAs.given {auction a : Auction} {starting current : Money}
    (h : PricedAs auction starting current a) (field : Option Price) :
    PricedAs auction ((field.map (·.val)).getD starting) ((field.map (·.val)).getD current)
      (ifGiven field
        (fun v a => { a with startingPrice := v.val, currentPrice := v.val }) a) := by
  cases field with
  | none => exact h
  | some price => exact ⟨h.auctionType, h.binPrice, rfl, rfl⟩

/-- An edit that names neither `bin_price` nor `auction_type` leaves both, and
sets the two other prices together. -/
theorem AuctionUpdate.edit_bare {data : AuctionUpdate} (hBin : data.binPrice = none)
    (hType : data.auctionType = none) (auction : Auction) :
    PricedAs auction ((data.startingPrice.join.map (·.val)).getD auction.startingPrice)
      ((data.startingPrice.join.map (·.val)).getD auction.currentPrice) (data.edit auction) := by
  have hSelf : PricedAs auction auction.startingPrice auction.currentPrice auction :=
    ⟨rfl, rfl, rfl, rfl⟩
  unfold edit
  rw [hBin, hType]
  apply ifGiven_keeps _ fun _ _ _ h => { h with }
  apply ifGiven_keeps _ fun _ _ _ h => { h with }
  apply PricedAs.given
  apply ifGiven_keeps _ fun _ _ _ h => { h with }
  apply ifGiven_keeps _ fun _ _ _ h => { h with }
  exact ifGiven_keeps hSelf fun _ _ _ h => { h with }

/-- An edit keeps a lot coherent, whatever fields it names, unless it moves the
starting price of a fixed-price lot alone. -/
theorem Coherent.edited {data : AuctionUpdate} {old : Auction} (h : Coherent old)
    (hActive : old.isActive = true)
    (hBinPrice : (data.edit old).auctionType = .bin → (data.edit old).binPrice ≠ none)
    (hTogether : data.binPrice = none → data.auctionType = none → old.auctionType = .bin →
      ∀ price ∈ data.startingPrice.join, old.binPrice = some price.val) :
    Coherent (data.dragAlong (data.edit old)) := by
  intro _ hType
  unfold AuctionUpdate.dragAlong at hType ⊢
  split
  next price hEdited hPrice =>
    split_ifs with hNamed
    · exact ⟨hPrice, rfl⟩
    · obtain ⟨hNoBin, hNoType⟩ := not_or.mp hNamed
      simp only [Bool.not_eq_true, Option.isSome_eq_false_iff, Option.isNone_iff_eq_none]
        at hNoBin hNoType
      have hBare := AuctionUpdate.edit_bare hNoBin hNoType old
      have hOldType : old.auctionType = .bin := hBare.auctionType.symm.trans hEdited
      obtain ⟨hOldBin, hOldCurrent⟩ := h hActive hOldType
      rw [hBare.binPrice, hBare.startingPrice, hBare.currentPrice]
      cases hGiven : data.startingPrice.join with
      | none => exact ⟨hOldBin, hOldCurrent⟩
      | some given => exact ⟨hTogether hNoBin hNoType hOldType given hGiven, rfl⟩
  next hNot =>
    have hEdited : (data.edit old).auctionType = .bin := by
      revert hType
      split <;> simp_all
    obtain ⟨price, hPrice⟩ := Option.ne_none_iff_exists'.mp (hBinPrice hEdited)
    exact absurd hPrice (hNot price hEdited)

def FixedPrices (d : Db) : Prop := ∀ id row, d.auctions.get id = some row → Coherent row

/-- A lot that is not on sale at a fixed price. -/
theorem Coherent.of_bid {row : Auction} (h : row.auctionType = .bid) : Coherent row := by
  intro _ hType
  rw [h] at hType
  cases hType

theorem Coherent.of_inactive {row : Auction} (h : row.isActive = false) : Coherent row := by
  intro hActive
  rw [h] at hActive
  cases hActive

/-- A commit whose edit sets the prices together keeps them equal. -/
theorem Coherent.change {d d' : Db} {id : LotId} {lot lot' : Option Auction}
    (h : ∀ row, lot = some row → Coherent row) (hChange : LotChange request d d' id lot lot')
    (hTogether : PricesTogether d request) (hLot : d.auctions.get id = lot) :
    ∀ row, lot' = some row → Coherent row := by
  cases hChange with
  | untouched => exact h
  | removed =>
      intro row hRow
      cases hRow
  | opened hOpened =>
      rintro row ⟨rfl⟩ _ hType
      exact ⟨hOpened.fixedPrice hType, hOpened.price⟩
  | @revised old new userId data hRequest _ _ hActive _ hEdited hBinPrice =>
      rintro row ⟨rfl⟩
      rw [hRequest] at hTogether
      rw [hEdited]
      exact (h old rfl).edited hActive hBinPrice fun hBin hType => hTogether hBin hType old hLot
  | @bid old amount now t userId _ hType =>
      rintro row ⟨rfl⟩
      obtain ⟨endTime, notified, count, _, hEq⟩ := acceptBid_eq old amount now
      rw [hEq]
      exact .of_bid hType
  | sold =>
      rintro row ⟨rfl⟩
      exact .of_inactive rfl
  | closed _ _ hClosed =>
      rintro row ⟨rfl⟩
      exact .of_inactive hClosed.inactive
  | settled _ _ _ hClosed =>
      rintro row ⟨rfl⟩
      exact .of_inactive hClosed.inactive

/-- Every such commit keeps the prices of all lots at a fixed price. -/
theorem FixedPrices.commit {held : Held market} {d d' : Db} (h : FixedPrices d)
    (hWell : WellFormed A d) (hCommit : Commit percent A request held d d')
    (hTogether : PricesTogether d request) : FixedPrices d' :=
  fun id => Coherent.change (h id) (.of_commit hWell hCommit id) hTogether rfl

/-- While no edit moves the starting price of a fixed-price lot alone, every
such lot on sale shows the price that `buy_now` charges. -/
theorem fixed_prices (percent : CommissionPercent) (categories : List Nat) {s : Served}
    (run : Runs.Reaches (serve percent) (Served.WritesMeet PricesTogether) (.initial categories) s) {id : LotId}
    {row : Auction} (hRow : s.1.db.auctions.get id = some row) (hActive : row.isActive = true)
    (hType : row.auctionType = .bin) :
    row.startingPrice = row.currentPrice ∧ row.binPrice = some row.currentPrice := by
  have hInit : FixedPrices (Db.initial categories) := by
    intro id row hRow
    simp [Db.initial] at hRow
  have hBoth := Served.Underway.of_writes hInit (fun h => h)
    (fun hWell h hCommit hTogether => FixedPrices.commit h hWell hCommit hTogether) run
  obtain ⟨hBin, hCurrent⟩ := hBoth.2 id row hRow hActive hType
  exact ⟨hCurrent.symm, hCurrent ▸ hBin⟩

/-- User 0 lists a chair at 100.00 and sends a `PATCH` for it. -/
def pricedThenEdited (data : AuctionUpdate) : List (Action market Request) :=
  [.start 0 .register, .step 0] ++
  [.start 1 (.createAuction 0 pricedChair), .step 1, .clock 1 0, .step 1] ++
  [.start 2 (.updateAuction 0 0 data)] ++ steps 2 4

def repricing (startingPrice binPrice : Option (Option Price)) : AuctionUpdate where
  title := none
  description := none
  categoryId := none
  startingPrice := startingPrice
  binPrice := binPrice
  auctionType := none
  extendMinutes := none
  imageUrls := none

/-- An edit of `bin_price` to 50.00 drags the other two prices along. -/
theorem fixed_prices_repriced : ∃ s : Served, ∃ row, s.1.db.auctions.get 0 = some row ∧
    row.startingPrice = 5000 ∧ row.startingPrice = row.currentPrice ∧
      row.binPrice = some row.currentPrice := by
  obtain ⟨s, run, hEdited⟩ := Runs.exists_reaches (serve defaultCommission)
    (Served.WritesMeet PricesTogether) (.initial []) (pricedThenEdited (repricing none (some (some ⟨5000, by decide⟩))))
    (fun s => (s.1.db.auctions.get 0).any (fun row => decide (row.startingPrice = 5000 ∧
      row.isActive = true ∧ row.auctionType = .bin)) = true) (by decide +kernel)
  obtain ⟨row, hRow, hFacts⟩ := (Option.any_eq_true _ _).mp hEdited
  obtain ⟨hPrice, hActive, hType⟩ := of_decide_eq_true hFacts
  exact ⟨s, row, hRow, hPrice, fixed_prices defaultCommission [] run hRow hActive hType⟩

/-- An edit of the starting price alone leaves `bin_price` behind. -/
theorem starting_price_edited_alone : ¬∀ (percent : CommissionPercent) (categories : List Nat)
    (s : Served), Runs.Reaches (serve percent) (fun _ _ => True) (.initial categories) s →
      ∀ id row, s.1.db.auctions.get id = some row → row.isActive = true →
        row.auctionType = .bin →
          row.startingPrice = row.currentPrice ∧ row.binPrice = some row.currentPrice := by
  intro hFixed
  obtain ⟨s, run, hEdited⟩ := Runs.exists_reaches (serve defaultCommission) (fun _ _ => True)
    (.initial []) (pricedThenEdited (repricing (some (some ⟨5000, by decide⟩)) none))
    (fun s => (s.1.db.auctions.get 0).any (fun row => decide (row.isActive = true ∧
      row.auctionType = .bin ∧ row.currentPrice = 5000 ∧ row.binPrice = some 10000)) = true)
    (by decide +kernel)
  obtain ⟨row, hRow, hFacts⟩ := (Option.any_eq_true _ _).mp hEdited
  obtain ⟨hActive, hType, hPrice, hBin⟩ := of_decide_eq_true hFacts
  have hShown := (hFixed defaultCommission [] s run 0 row hRow hActive hType).2
  rw [hBin, hPrice] at hShown
  exact absurd hShown (by decide)

end OnlineAuction
