import Mathlib.Algebra.Order.Group.Defs
import Mathlib.Algebra.Order.Group.Unbundled.Basic
import Mathlib.Data.Finsupp.Weight
import Mathlib.Logic.Relation
import Mathlib.Tactic.Abel

/-! Auction houses with escrow. A bid puts its whole amount aside and gives the
outbid leader's amount back; a settled lot pays what is put aside to the seller,
less the fee of the house. Money enters by opening credits and deposits only, and
leaves by withdrawals only. -/

namespace Escrow

variable {P L M : Type}

inductive Status (P : Type) where
  | onSale (leader : Option P)
  | sold (buyer : P)
  | unsold

structure Lot (P M : Type) where
  seller : P
  price : M
  /-- The price of a lot that is not bid on but bought at once. -/
  fixed : Option M
  status : Status P

namespace Lot

variable [Zero M]

def stake (lot : Lot P M) : M :=
  match lot.status with
  | .onSale (some _) => lot.price
  | _ => 0

noncomputable def refund (lot : Lot P M) : P →₀ M :=
  match lot.status with
  | .onSale (some leader) => Finsupp.single leader lot.price
  | _ => 0

/-- A lot on sale with a leader holds the price in escrow. -/
theorem stake_leading {lot : Lot P M} {leader : P} (h : lot.status = .onSale (some leader)) :
    lot.stake = lot.price := by
  simp [stake, h]

theorem stake_eq_zero {lot : Lot P M} (h : ∀ leader, lot.status ≠ .onSale (some leader)) :
    lot.stake = 0 := by
  unfold stake
  split
  · exact absurd ‹_› (h _)
  · rfl

end Lot

/-- The books of a house: what every party may spend, what is put aside for each
lot, the fees collected, and the money that has come in less what has gone out. -/
@[ext]
structure House (P L M : Type) [Zero M] where
  members : Finset P
  purse : P →₀ M
  escrow : L →₀ M
  lots : L → Option (Lot P M)
  treasury : M
  inflow : M

namespace House

variable [Zero M] [DecidableEq L]

def empty : House P L M := ⟨∅, 0, 0, fun _ => none, 0, 0⟩

noncomputable def put (h : House P L M) (l : L) (lot : Lot P M) : House P L M :=
  { h with lots := Function.update h.lots l (some lot), escrow := h.escrow.update l lot.stake }

/-- A lot that is in the books as it is entered. -/
theorem put_self {h : House P L M} {l : L} {lot : Lot P M} (hLot : h.lots l = some lot)
    (hEscrow : h.escrow l = lot.stake) : h.put l lot = h := by
  rw [put, ← hLot, ← hEscrow, Function.update_eq_self, Finsupp.update_self]

noncomputable def drop (h : House P L M) (l : L) : House P L M :=
  { h with lots := Function.update h.lots l none, escrow := h.escrow.update l 0 }

end House

section Sums

variable [AddCommGroup M] {lot : Lot P M}

/-- Changing one amount changes the sum by the difference. -/
theorem degree_update (f : L →₀ M) (l : L) (amount : M) :
    (f.update l amount).degree = f.degree - f l + amount := by
  rw [Finsupp.update_eq_sub_add_single, map_add, map_sub, Finsupp.degree_single,
    Finsupp.degree_single]

/-- The refund of a lot with a leader goes to the leader alone. -/
theorem Lot.refund_apply {leader : P} (hStatus : lot.status = .onSale (some leader)) (p : P)
    [Decidable (leader = p)] : lot.refund p = if leader = p then lot.price else 0 := by
  simp [Lot.refund, hStatus, Finsupp.single_apply]

theorem Lot.degree_refund (lot : Lot P M) : lot.refund.degree = lot.stake := by
  unfold Lot.refund Lot.stake
  split
  · exact Finsupp.degree_single _ _
  · exact map_zero _

/-- Only the leader gets anything back. -/
theorem Lot.refund_other {leader : Option P} (hStatus : lot.status = .onSale leader) {p : P}
    (hOther : leader ≠ some p) : lot.refund p = 0 := by
  classical
  cases leader with
  | none => simp [Lot.refund, hStatus]
  | some leader =>
      rw [Lot.refund_apply hStatus, if_neg fun hSame => hOther (congrArg some hSame)]

/-- A party that is no member is not touched by what happens to a member. -/
theorem single_outsider {p q : P} (amount : M) {members : Finset P} (hMember : p ∈ members)
    (hOutside : q ∉ members) : Finsupp.single p amount q = 0 := by
  apply Finsupp.single_eq_of_ne
  rintro rfl
  exact hOutside hMember

/-- The money put aside in all, after a lot has been entered anew. -/
theorem degree_put [DecidableEq L] (h : House P L M) (l : L) (lot : Lot P M) :
    (h.put l lot).escrow.degree = h.escrow.degree - h.escrow l + lot.stake :=
  degree_update _ _ _

end Sums

section Operations

variable [AddCommGroup M] [LinearOrder M] [DecidableEq P] [DecidableEq L]

/-- One operation of a house whose members start with `opening` and which takes
`fee price` from a sale. -/
inductive Step (opening : M) (fee : M → M) (h : House P L M) : House P L M → Prop where
  | join (p : P) (hNew : p ∉ h.members) :
      Step opening fee h
        { h with
          members := insert p h.members
          purse := h.purse + Finsupp.single p opening
          inflow := h.inflow + opening }
  | deposit (p : P) (amount : M) (hMember : p ∈ h.members) (hPos : 0 < amount) :
      Step opening fee h
        { h with purse := h.purse + Finsupp.single p amount, inflow := h.inflow + amount }
  | withdraw (p : P) (amount : M) (hMember : p ∈ h.members) (hPos : 0 < amount)
      (hFunds : amount ≤ h.purse p) :
      Step opening fee h
        { h with purse := h.purse - Finsupp.single p amount, inflow := h.inflow - amount }
  | list (l : L) (lot : Lot P M) (hFree : h.lots l = none) (hSeller : lot.seller ∈ h.members)
      (hPrice : 0 < lot.price) (hStatus : lot.status = .onSale none) :
      Step opening fee h (h.put l lot)
  | revise (l : L) (old new : Lot P M) (hLot : h.lots l = some old)
      (hOld : old.status = .onSale none) (hNew : new.status = .onSale none)
      (hSeller : new.seller = old.seller) (hPrice : 0 < new.price) :
      Step opening fee h (h.put l new)
  | remove (l : L) (lot : Lot P M) (hLot : h.lots l = some lot)
      (hStatus : lot.status = .onSale none) : Step opening fee h (h.drop l)
  | bid (l : L) (lot : Lot P M) (p : P) (leader : Option P) (amount : M)
      (hLot : h.lots l = some lot) (hStatus : lot.status = .onSale leader)
      (hFixed : lot.fixed = none) (hMember : p ∈ h.members) (hOwn : p ≠ lot.seller)
      (hTurn : leader ≠ some p) (hHigher : lot.price < amount) (hFunds : amount ≤ h.purse p) :
      Step opening fee h
        { h.put l { lot with price := amount, status := .onSale (some p) } with
          purse := h.purse + lot.refund - Finsupp.single p amount }
  | buy (l : L) (lot : Lot P M) (p : P) (price : M) (hLot : h.lots l = some lot)
      (hStatus : lot.status = .onSale none) (hFixed : lot.fixed = some price)
      (hMember : p ∈ h.members) (hOwn : p ≠ lot.seller) (hPos : 0 < price)
      (hFunds : price ≤ h.purse p) (hFee : 0 ≤ fee price ∧ fee price ≤ price) :
      Step opening fee h
        { h.put l { lot with price := price, status := .sold p } with
          purse := h.purse - Finsupp.single p price + Finsupp.single lot.seller (price - fee price)
          treasury := h.treasury + fee price }
  | settle (l : L) (lot : Lot P M) (leader : P) (hLot : h.lots l = some lot)
      (hStatus : lot.status = .onSale (some leader))
      (hFee : 0 ≤ fee lot.price ∧ fee lot.price ≤ lot.price) :
      Step opening fee h
        { h.put l { lot with status := .sold leader } with
          purse := h.purse + Finsupp.single lot.seller (lot.price - fee lot.price)
          treasury := h.treasury + fee lot.price }
  | expire (l : L) (lot : Lot P M) (hLot : h.lots l = some lot)
      (hStatus : lot.status = .onSale none) :
      Step opening fee h (h.put l { lot with status := .unsold })

/-- The states a house comes to from empty books. -/
def Reachable (opening : M) (fee : M → M) (h : House P L M) : Prop :=
  Relation.ReflTransGen (Step opening fee) .empty h

end Operations

variable [AddCommGroup M] [LinearOrder M] {h h' : House P L M} {l : L} {lot : Lot P M}

/-- The lots as they are entered: whatever is put aside is backed by the bid of a
leader who is not the seller. -/
structure Listed (h : House P L M) : Prop where
  sellers : ∀ l lot, h.lots l = some lot → lot.seller ∈ h.members ∧ 0 < lot.price
  leaders : ∀ l lot p, h.lots l = some lot → lot.status = .onSale (some p) →
    p ∈ h.members ∧ p ≠ lot.seller
  backed : ∀ l, h.escrow l = ((h.lots l).map Lot.stake).getD 0

/-- Books in order: nobody owes, and no money is made or lost. -/
structure Sound (h : House P L M) : Prop extends Listed h where
  purses : ∀ p, 0 ≤ h.purse p
  outsiders : ∀ p, p ∉ h.members → h.purse p = 0
  treasury : 0 ≤ h.treasury
  conserved : h.purse.degree + h.escrow.degree + h.treasury = h.inflow

namespace Listed

/-- Whatever changes besides the lots, as long as no member leaves. -/
theorem congr (hListed : Listed h) (hMembers : h.members ⊆ h'.members)
    (hLots : h'.lots = h.lots) (hEscrow : h'.escrow = h.escrow) : Listed h' where
  sellers l lot hLot := by
    obtain ⟨hSeller, hPrice⟩ := hListed.sellers l lot (hLots ▸ hLot)
    exact ⟨hMembers hSeller, hPrice⟩
  leaders l lot p hLot hStatus := by
    obtain ⟨hMember, hOwn⟩ := hListed.leaders l lot p (hLots ▸ hLot) hStatus
    exact ⟨hMembers hMember, hOwn⟩
  backed l := by
    rw [hEscrow, hLots]
    exact hListed.backed l

/-- What is put aside for a lot in the books. -/
theorem escrow_eq (hListed : Listed h) (hLot : h.lots l = some lot) : h.escrow l = lot.stake := by
  rw [hListed.backed l, hLot, Option.map_some, Option.getD_some]

/-- A number that no lot has holds nothing in escrow. -/
theorem escrow_free (hListed : Listed h) (hFree : h.lots l = none) : h.escrow l = 0 := by
  rw [hListed.backed l, hFree]
  rfl

variable [DecidableEq L]

/-- A lot whose seller and leader are members may be listed or changed. -/
theorem put (hListed : Listed h) (hSeller : lot.seller ∈ h.members ∧ 0 < lot.price)
    (hLeader : ∀ p, lot.status = .onSale (some p) → p ∈ h.members ∧ p ≠ lot.seller) :
    Listed (h.put l lot) := by
  constructor
  case sellers =>
    intro other found hFound
    by_cases hOther : other = l
    · subst hOther
      simp only [House.put, Function.update_self, Option.some.injEq] at hFound
      exact hFound ▸ hSeller
    · exact hListed.sellers other found (by simpa [House.put, hOther] using hFound)
  case leaders =>
    intro other found p hFound hStatus
    by_cases hOther : other = l
    · subst hOther
      simp only [House.put, Function.update_self, Option.some.injEq] at hFound
      subst hFound
      exact hLeader p hStatus
    · exact hListed.leaders other found p (by simpa [House.put, hOther] using hFound) hStatus
  case backed =>
    intro other
    by_cases hOther : other = l
    · subst hOther
      simp [House.put]
    · simpa [House.put, hOther] using hListed.backed other

/-- Taking a lot off the list keeps the rest listed. -/
theorem drop (hListed : Listed h) : Listed (h.drop l) := by
  constructor
  case sellers =>
    intro other found hFound
    by_cases hOther : other = l
    · simp [House.drop, hOther] at hFound
    · exact hListed.sellers other found (by simpa [House.drop, hOther] using hFound)
  case leaders =>
    intro other found p hFound hStatus
    by_cases hOther : other = l
    · simp [House.drop, hOther] at hFound
    · exact hListed.leaders other found p (by simpa [House.drop, hOther] using hFound) hStatus
  case backed =>
    intro other
    by_cases hOther : other = l
    · subst hOther
      simp [House.drop]
    · simpa [House.drop, hOther] using hListed.backed other

end Listed

namespace Lot

theorem refund_nonneg (hPrice : 0 < lot.price) (p : P) : 0 ≤ lot.refund p := by
  classical
  cases hStatus : lot.status with
  | onSale leader =>
      cases leader with
      | none => simp [refund, hStatus]
      | some leader =>
          rw [refund_apply hStatus]
          split_ifs
          · exact hPrice.le
          · exact le_rfl
  | _ => simp [refund, hStatus]

end Lot

theorem Sound.empty : Sound (House.empty : House P L M) := by
  constructor <;> simp [House.empty]
  constructor <;> simp

namespace Sound

/-- A payment to one member is a payment of at least nothing to each. -/
theorem gain_nonneg {gain : M} (hGain : 0 ≤ gain) (p q : P) : 0 ≤ Finsupp.single p gain q := by
  classical
  rw [Finsupp.single_apply]
  split_ifs
  · exact hGain
  · exact le_rfl

/-- A lot entered or changed while nothing is put aside for it. -/
theorem put [DecidableEq L] (hSound : Sound h) (hSeller : lot.seller ∈ h.members ∧ 0 < lot.price)
    (hIdle : ∀ leader, lot.status ≠ .onSale (some leader)) (hFree : h.escrow l = 0) :
    Sound (h.put l lot) where
  toListed := hSound.toListed.put hSeller fun leader hStatus => absurd hStatus (hIdle leader)
  purses := hSound.purses
  outsiders := hSound.outsiders
  treasury := hSound.treasury
  conserved := by
    rw [degree_put, hFree, Lot.stake_eq_zero hIdle, sub_zero, add_zero]
    exact hSound.conserved

theorem drop [DecidableEq L] (hSound : Sound h) (hFree : h.escrow l = 0) : Sound (h.drop l) where
  toListed := hSound.toListed.drop
  purses := hSound.purses
  outsiders := hSound.outsiders
  treasury := hSound.treasury
  conserved := by
    show _ + (h.escrow.update l 0).degree + _ = _
    rw [degree_update, hFree, sub_zero, add_zero]
    exact hSound.conserved

variable [IsOrderedAddMonoid M]

/-- What a party has left after it has spent what it had the money for. -/
theorem rest_nonneg {purse : P →₀ M} (hPurses : ∀ p, 0 ≤ purse p) {p : P} {cost : M}
    (hFunds : cost ≤ purse p) (q : P) : 0 ≤ (purse - Finsupp.single p cost) q := by
  classical
  rw [Finsupp.sub_apply, Finsupp.single_apply, sub_nonneg]
  split_ifs with hSpends
  · exact hSpends ▸ hFunds
  · exact hPurses q

/-- A new member with an opening balance of at least nothing keeps the house
sound. -/
theorem join [DecidableEq P] (hSound : Sound h) {opening : M} (hOpening : 0 ≤ opening) (p : P) :
    Sound { h with
      members := insert p h.members
      purse := h.purse + Finsupp.single p opening
      inflow := h.inflow + opening } where
  toListed := hSound.toListed.congr (Finset.subset_insert _ _) rfl rfl
  purses q := add_nonneg (hSound.purses q) (gain_nonneg hOpening p q)
  outsiders q hOutside := by
    rw [Finsupp.add_apply, single_outsider _ (Finset.mem_insert_self _ _) hOutside, add_zero]
    exact hSound.outsiders q fun hMember => hOutside (Finset.mem_insert_of_mem hMember)
  treasury := hSound.treasury
  conserved := by
    show (h.purse + Finsupp.single p opening).degree + h.escrow.degree + h.treasury =
      h.inflow + opening
    rw [map_add, Finsupp.degree_single, ← hSound.conserved]
    abel

/-- A deposit keeps the house sound: the purse and the sum of the deposits rise
together. -/
theorem deposit (hSound : Sound h) {p : P} {amount : M} (hMember : p ∈ h.members)
    (hPos : 0 < amount) :
    Sound { h with purse := h.purse + Finsupp.single p amount, inflow := h.inflow + amount } where
  toListed := hSound.toListed.congr le_rfl rfl rfl
  purses q := add_nonneg (hSound.purses q) (gain_nonneg hPos.le p q)
  outsiders q hOutside := by
    rw [Finsupp.add_apply, single_outsider _ hMember hOutside, add_zero]
    exact hSound.outsiders q hOutside
  treasury := hSound.treasury
  conserved := by
    show (h.purse + Finsupp.single p amount).degree + h.escrow.degree + h.treasury =
      h.inflow + amount
    rw [map_add, Finsupp.degree_single, ← hSound.conserved]
    abel

/-- A withdrawal that the purse covers keeps the house sound. -/
theorem withdraw (hSound : Sound h) {p : P} {amount : M} (hMember : p ∈ h.members)
    (hFunds : amount ≤ h.purse p) :
    Sound { h with purse := h.purse - Finsupp.single p amount, inflow := h.inflow - amount } where
  toListed := hSound.toListed.congr le_rfl rfl rfl
  purses := rest_nonneg hSound.purses hFunds
  outsiders q hOutside := by
    rw [Finsupp.sub_apply, single_outsider _ hMember hOutside, sub_zero]
    exact hSound.outsiders q hOutside
  treasury := hSound.treasury
  conserved := by
    show (h.purse - Finsupp.single p amount).degree + h.escrow.degree + h.treasury =
      h.inflow - amount
    rw [map_sub, Finsupp.degree_single, ← hSound.conserved]
    abel

variable [DecidableEq L]

/-- A bid moves the old stake back to the old leader and the new one out of the
bidder's purse, so the money in the house is the same. -/
theorem bid (hSound : Sound h) {p : P} {leader : Option P} {amount : M}
    (hLot : h.lots l = some lot) (hStatus : lot.status = .onSale leader)
    (hMember : p ∈ h.members) (hOwn : p ≠ lot.seller) (hTurn : leader ≠ some p)
    (hHigher : lot.price < amount) (hFunds : amount ≤ h.purse p) :
    Sound { h.put l { lot with price := amount, status := .onSale (some p) } with
      purse := h.purse + lot.refund - Finsupp.single p amount } := by
  obtain ⟨hSeller, hPrice⟩ := hSound.sellers l lot hLot
  have hRefund := Lot.refund_other hStatus hTurn
  constructor
  case toListed =>
    have hPut : Listed (h.put l { lot with price := amount, status := .onSale (some p) }) := by
      refine hSound.toListed.put ?_ ?_
      · exact ⟨hSeller, hPrice.trans hHigher⟩
      · rintro leader ⟨⟩
        exact ⟨hMember, hOwn⟩
    exact hPut.congr le_rfl rfl rfl
  case purses =>
    apply rest_nonneg
    · exact fun q => add_nonneg (hSound.purses q) (Lot.refund_nonneg hPrice q)
    · rw [Finsupp.add_apply, hRefund, add_zero]
      exact hFunds
  case outsiders =>
    intro q hOutside
    have hFollower : lot.refund q = 0 := by
      apply Lot.refund_other hStatus
      rintro rfl
      exact hOutside (hSound.leaders l lot q hLot hStatus).1
    rw [Finsupp.sub_apply, Finsupp.add_apply, single_outsider _ hMember hOutside, hFollower,
      sub_zero, add_zero]
    exact hSound.outsiders q hOutside
  case treasury => exact hSound.treasury
  case conserved =>
    have hStake : ({ lot with price := amount, status := .onSale (some p) } : Lot P M).stake =
        amount := rfl
    show (h.purse + lot.refund - Finsupp.single p amount).degree +
      (h.put l { lot with price := amount, status := .onSale (some p) }).escrow.degree +
        h.treasury = h.inflow
    rw [map_sub, map_add, Finsupp.degree_single, Lot.degree_refund, degree_put,
      hSound.toListed.escrow_eq hLot, hStake, ← hSound.conserved]
    abel

/-- A purchase moves the price to the seller less the fee, and the fee leaves
the purses. -/
theorem buy (hSound : Sound h) {p : P} {price fee : M} (hLot : h.lots l = some lot)
    (hStatus : lot.status = .onSale none) (hMember : p ∈ h.members) (hPos : 0 < price)
    (hFunds : price ≤ h.purse p) (hFee : 0 ≤ fee ∧ fee ≤ price) :
    Sound { h.put l { lot with price := price, status := .sold p } with
      purse := h.purse - Finsupp.single p price + Finsupp.single lot.seller (price - fee)
      treasury := h.treasury + fee } := by
  obtain ⟨hSeller, _⟩ := hSound.sellers l lot hLot
  have hFree : h.escrow l = 0 := by
    rw [hSound.toListed.escrow_eq hLot]
    exact Lot.stake_eq_zero fun leader hLed => by simp [hStatus] at hLed
  constructor
  case toListed =>
    have hPut : Listed (h.put l { lot with price := price, status := .sold p }) :=
      hSound.toListed.put ⟨hSeller, hPos⟩ nofun
    exact hPut.congr le_rfl rfl rfl
  case purses =>
    exact fun q => add_nonneg (rest_nonneg hSound.purses hFunds q)
      (gain_nonneg (sub_nonneg.mpr hFee.2) _ q)
  case outsiders =>
    intro q hOutside
    rw [Finsupp.add_apply, Finsupp.sub_apply, single_outsider _ hMember hOutside,
      single_outsider _ hSeller hOutside, sub_zero, add_zero]
    exact hSound.outsiders q hOutside
  case treasury => exact add_nonneg hSound.treasury hFee.1
  case conserved =>
    show (h.purse - Finsupp.single p price + Finsupp.single lot.seller (price - fee)).degree +
      (h.put l { lot with price := price, status := .sold p }).escrow.degree +
        (h.treasury + fee) = h.inflow
    rw [map_add, map_sub, Finsupp.degree_single, Finsupp.degree_single, degree_put, hFree,
      Lot.stake_eq_zero nofun, ← hSound.conserved]
    abel

/-- A settlement pays the seller out of the stake of the winner. -/
theorem settle (hSound : Sound h) {leader : P} {fee : M} (hLot : h.lots l = some lot)
    (hStatus : lot.status = .onSale (some leader)) (hFee : 0 ≤ fee ∧ fee ≤ lot.price) :
    Sound { h.put l { lot with status := .sold leader } with
      purse := h.purse + Finsupp.single lot.seller (lot.price - fee)
      treasury := h.treasury + fee } := by
  have hSeller := hSound.sellers l lot hLot
  constructor
  case toListed =>
    have hPut : Listed (h.put l { lot with status := .sold leader }) :=
      hSound.toListed.put hSeller nofun
    exact hPut.congr le_rfl rfl rfl
  case purses =>
    exact fun q => add_nonneg (hSound.purses q) (gain_nonneg (sub_nonneg.mpr hFee.2) _ q)
  case outsiders =>
    intro q hOutside
    rw [Finsupp.add_apply, single_outsider _ hSeller.1 hOutside, add_zero]
    exact hSound.outsiders q hOutside
  case treasury => exact add_nonneg hSound.treasury hFee.1
  case conserved =>
    show (h.purse + Finsupp.single lot.seller (lot.price - fee)).degree +
      (h.put l { lot with status := .sold leader }).escrow.degree + (h.treasury + fee) = h.inflow
    rw [map_add, Finsupp.degree_single, degree_put, hSound.toListed.escrow_eq hLot,
      Lot.stake_leading hStatus, Lot.stake_eq_zero nofun, ← hSound.conserved]
    abel

theorem step [DecidableEq P] {opening : M} {fee : M → M} (hOpening : 0 ≤ opening) (hSound : Sound h)
    (hStep : Step opening fee h h') : Sound h' := by
  have hIdle {l : L} {lot : Lot P M} (hLot : h.lots l = some lot)
      (hStatus : lot.status = .onSale none) : h.escrow l = 0 := by
    rw [hSound.toListed.escrow_eq hLot]
    exact Lot.stake_eq_zero fun leader hLed => by simp [hStatus] at hLed
  cases hStep with
  | join p hNew => exact hSound.join hOpening p
  | deposit p amount hMember hPos => exact hSound.deposit hMember hPos
  | withdraw p amount hMember hPos hFunds => exact hSound.withdraw hMember hFunds
  | list l lot hFree hSeller hPrice hStatus =>
      apply hSound.put ⟨hSeller, hPrice⟩
      · simp [hStatus]
      · exact hSound.toListed.escrow_free hFree
  | revise l old new hLot hOld hNew hSeller hPrice =>
      apply hSound.put ⟨hSeller ▸ (hSound.sellers l old hLot).1, hPrice⟩
      · simp [hNew]
      · exact hIdle hLot hOld
  | remove l lot hLot hStatus => exact hSound.drop (hIdle hLot hStatus)
  | bid l lot p leader amount hLot hStatus hFixed hMember hOwn hTurn hHigher hFunds =>
      exact hSound.bid hLot hStatus hMember hOwn hTurn hHigher hFunds
  | buy l lot p price hLot hStatus hFixed hMember hOwn hPos hFunds hFee =>
      exact hSound.buy hLot hStatus hMember hPos hFunds hFee
  | settle l lot leader hLot hStatus hFee => exact hSound.settle hLot hStatus hFee
  | expire l lot hLot hStatus =>
      refine hSound.put ?_ ?_ (hIdle hLot hStatus)
      · exact hSound.sellers l lot hLot
      · exact nofun

end Sound

/-- Whatever a house does, its books stay in order. -/
theorem Reachable.sound [IsOrderedAddMonoid M] [DecidableEq P] [DecidableEq L] {opening : M}
    {fee : M → M} (hOpening : 0 ≤ opening)
    (run : Reachable opening fee h) : Sound h := by
  induction run with
  | refl => exact .empty
  | tail _ last ih => exact ih.step hOpening last

end Escrow
