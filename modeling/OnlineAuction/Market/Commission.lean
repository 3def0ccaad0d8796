import OnlineAuction.Market.Handlers
import OnlineAuction.Notifications.Records

/-! The commission on a sale: what is withheld, what the seller is credited with,
and what the two notifications of a sale say the seller has received. -/

namespace OnlineAuction

open DecimalRounding Notifications

def Money.rubles (m : Money) : ℚ := m / 100

def CommissionPercent.value (percent : CommissionPercent) : ℚ := percent.units / 10 ^ percent.places

section Fee

variable {percent : CommissionPercent} (hDigits : percent.units < 10 ^ 15) {gross : Money}
include hDigits

/-- No digit of the product is lost: the fee is the exact share, rounded once. -/
theorem sellerCommission_eq (hPos : 0 ≤ gross) (hMax : gross ≤ maxUserBalance) :
    sellerCommission percent gross =
      (divHalfUp (gross.toNat * percent.units) (100 * 10 ^ percent.places) : Nat) := by
  obtain ⟨n, rfl⟩ := Int.eq_ofNat_of_zero_le hPos
  have hn : n ≤ 10 ^ 9 := by
    have hMax : (n : ℤ) ≤ 1000000000 := hMax
    omega
  have hProduct : n * percent.units < 10 ^ contextPrecision := by
    calc
      n * percent.units ≤ 10 ^ 9 * 10 ^ 15 := Nat.mul_le_mul hn hDigits.le
      _ < 10 ^ contextPrecision := by norm_num [contextPrecision]
  have hUnits : (Money.toDecimal (n : ℤ)).units * percent.toDecimal.units =
      ((n * percent.units : Nat) : ℤ) := by
    simp [Money.toDecimal, CommissionPercent.toDecimal]
  have hScale : 10 ^ ((Money.toDecimal (n : ℤ)).places + percent.toDecimal.places + 2) =
      100 * 10 ^ percent.places * 10 ^ 2 := by
    simp only [Money.toDecimal, CommissionPercent.toDecimal]
    ring
  have hSelf (m : Nat) : (m : ℤ).sign * m = m := by
    rcases Nat.eq_zero_or_pos m with rfl | hm
    · simp
    · rw [Int.sign_eq_one_of_pos (by exact_mod_cast hm), one_mul]
  simp only [sellerCommission, quantizeMoney, Decimal.quantize, Decimal.shift, Decimal.mul, hUnits,
    Int.natAbs_natCast, keepDigits_of_lt hProduct, Int.toNat_natCast, hSelf, hScale]
  rw [divHalfUp_mul_right _ _ (by positivity)]
  rcases Nat.eq_zero_or_pos (n * percent.units) with hZero | hNonzero
  · have hNothing : divHalfUp 0 (100 * 10 ^ percent.places) = 0 := by
      simpa using divHalfUp_mul 0 (m := 100 * 10 ^ percent.places) (by positivity)
    simp [hZero, hNothing]
  · rw [Int.sign_eq_one_of_pos (by exact_mod_cast hNonzero), one_mul]

/-- The commission is within half a kopeck of the exact share. -/
theorem sellerCommission_near (hPos : 0 ≤ gross) (hMax : gross ≤ maxUserBalance) :
    |(sellerCommission percent gross).rubles - gross.rubles * percent.value / 100| ≤ 5 / 1000 := by
  rw [sellerCommission_eq hDigits hPos hMax]
  have hNear := divHalfUp_near (gross.toNat * percent.units) (m := 100 * 10 ^ percent.places)
    (by positivity)
  have hGross : (gross.toNat : ℚ) = (gross : ℚ) := by
    exact_mod_cast Int.toNat_of_nonneg hPos
  push_cast at hNear
  rw [hGross] at hNear
  set share : ℚ := gross * percent.units / (100 * 10 ^ percent.places)
  have hExact : gross.rubles * percent.value / 100 = share / 100 := by
    simp only [Money.rubles, CommissionPercent.value, share]
    field_simp
  rw [hExact]
  simp only [Money.rubles, Int.cast_natCast]
  rw [← sub_div, abs_div, abs_of_pos (show (0 : ℚ) < 100 by norm_num), div_le_iff₀ (by norm_num)]
  linarith

/-- A higher price costs no less and leaves no less. -/
theorem sellerCommission_mono {higher : Money} (hPos : 0 ≤ gross) (hLe : gross ≤ higher)
    (hMax : higher ≤ maxUserBalance) :
    sellerCommission percent gross ≤ sellerCommission percent higher ∧
      gross - sellerCommission percent gross ≤ higher - sellerCommission percent higher := by
  rw [sellerCommission_eq hDigits hPos (hLe.trans hMax),
    sellerCommission_eq hDigits (hPos.trans hLe) hMax]
  obtain ⟨n, rfl⟩ := Int.eq_ofNat_of_zero_le hPos
  obtain ⟨d, rfl⟩ := Int.le.dest hLe
  have hNat : ((n : ℤ) + d).toNat = n + d := by omega
  rw [hNat, Int.toNat_natCast]
  set m := 100 * 10 ^ percent.places
  have hLow : divHalfUp (n * percent.units) m ≤ divHalfUp ((n + d) * percent.units) m :=
    divHalfUp_mono (Nat.mul_le_mul_right _ (Nat.le_add_right n d)) m
  have hHigh : divHalfUp ((n + d) * percent.units) m ≤ divHalfUp (n * percent.units) m + d := by
    calc
      divHalfUp ((n + d) * percent.units) m ≤ divHalfUp (n * percent.units + d * m) m := by
        apply divHalfUp_mono
        rw [Nat.add_mul]
        exact Nat.add_le_add_left (Nat.mul_le_mul_left d percent.le_hundred) _
      _ = divHalfUp (n * percent.units) m + d := divHalfUp_add_mul _ _ (by positivity)
  constructor
  · exact_mod_cast hLow
  · have hHigh' : (divHalfUp ((n + d) * percent.units) m : ℤ) ≤ divHalfUp (n * percent.units) m + d := by
      exact_mod_cast hHigh
    linarith

end Fee

/-- What a ledger row added by the session stores: type, amount, balance after. -/
def NewTransaction.stored (tx : NewTransaction) : UserId × TransactionType × Money × Money :=
  (tx.userId, tx.type, quantizeMoney tx.amount, tx.balanceAfter)

/-- What a sale adds to the ledger of the seller: the price and then, if there is
any, the commission. -/
def saleRows (seller : UserId) (balance gross commission : Money) :
    List (UserId × TransactionType × Money × Money) :=
  (seller, .auctionSale, gross, balance + gross) ::
    if 0 < commission then
      [(seller, .commission, commission, balance + (gross - commission))]
    else []

/-- The seller receives the price less the commission, and nothing else changes. -/
structure Credited (work after : UnitOfWork) (seller : UserId) (user : User)
    (gross commission : Money) : Prop where
  users : after.users = Function.update work.users seller
    (some { user with balance := user.balance + (gross - commission) })
  rows : after.added.map NewTransaction.stored =
    work.added.map NewTransaction.stored ++ saleRows seller user.balance gross commission

/-- A balance change writes the new balance and one row of the ledger. -/
theorem applyBalanceDelta_some {work : UnitOfWork} {userId : UserId} {user : User}
    (h : work.users userId = some user) (delta : Money) (txType : TransactionType)
    (description : String) (auctionId : Option LotId) :
    work.applyBalanceDelta userId delta.toDecimal txType description auctionId =
      { users := Function.update work.users userId
          (some { user with balance := user.balance + delta })
        added := work.added ++ [⟨userId, txType, delta.toDecimal.abs, user.balance + delta,
          description, auctionId⟩] } := by
  simp only [UnitOfWork.applyBalanceDelta, h, quantizeMoney_add]

theorem applyBalanceDelta_other (work : UnitOfWork) {userId other : UserId} (h : other ≠ userId)
    (delta : Decimal) (txType : TransactionType) (description : String) (auctionId : Option LotId) :
    (work.applyBalanceDelta userId delta txType description auctionId).users other =
      work.users other := by
  unfold UnitOfWork.applyBalanceDelta
  split
  · rfl
  · exact Function.update_of_ne h _ _

/-- The seller gets the price less the commission, in two rows. -/
theorem creditSeller_credited (percent : CommissionPercent) {work : UnitOfWork} {seller : UserId}
    {user : User} (hUser : work.users seller = some user) {gross : Money} (hPos : 0 ≤ gross)
    (auction : Auction) (description : String)
    (hCommission : 0 ≤ sellerCommission percent gross) :
    Credited work (creditSeller percent work seller gross auction description) seller user gross
      (sellerCommission percent gross) := by
  simp only [creditSeller, quantizeMoney_toDecimal, applyBalanceDelta_some hUser]
  split_ifs with hFee
  · rw [applyBalanceDelta_some (Function.update_self ..)]
    constructor
    · simp only [Function.update_idem]
      congr 2
      ring_nf
    · simp [NewTransaction.stored, saleRows, hFee, abs_of_nonneg hPos, abs_of_nonneg hCommission,
        sub_eq_add_neg, add_assoc]
  · have hNothing : sellerCommission percent gross = 0 := le_antisymm (not_lt.mp hFee) hCommission
    constructor
    · simp [hNothing]
    · simp [NewTransaction.stored, saleRows, hNothing, abs_of_nonneg hPos]

/-- No row is a zero row, and no balance is negative. -/
theorem saleRows_sound {seller : UserId} {balance gross commission : Money} (hBalance : 0 ≤ balance)
    (hGross : 0 < gross) (hCommission : commission ≤ gross) :
    ∀ row ∈ saleRows seller balance gross commission, 0 < row.2.2.1 ∧ 0 ≤ row.2.2.2 := by
  intro row hRow
  unfold saleRows at hRow
  rcases List.mem_cons.mp hRow with rfl | hFee
  · exact ⟨hGross, by show 0 ≤ balance + gross; linarith⟩
  · split_ifs at hFee with hPos
    · rw [List.mem_singleton] at hFee
      subst hFee
      exact ⟨hPos, by show 0 ≤ balance + (gross - commission); linarith⟩
    · cases hFee

/-- The message to the seller in `_build_completion_notifications`. -/
def soldMessage (percent : CommissionPercent) (gross net commission : Money) : String :=
  s!"Лот продан за {gross.format} ₽. На баланс зачислено {net.format} ₽ " ++
    s!"(комиссия платформы {percent.text}% - {commission.format} ₽)."

/-- `_build_completion_notifications`. -/
def buildCompletionNotifications (percent : CommissionPercent) (lastBid : Bid)
    (winner creator : Option Recipient) (bidders : List Recipient) : List Payload :=
  let winnerLabel := match winner with
    | some user => user.username
    | none => "другой участник"
  let pending := bidders.map fun user =>
    if user.id = lastBid.userId then
      ⟨user, .auctionWon, "🎉 Поздравляем! Вы выиграли аукцион!",
        s!"Вы выиграли лот за {lastBid.amount.format} ₽. Средства списаны с вашего баланса."⟩
    else
      ⟨user, .auctionLost, "Аукцион завершён",
        s!"К сожалению, вы не выиграли этот аукцион. Победитель: {winnerLabel}."⟩
  match creator with
  | some user =>
      if user.id ≠ lastBid.userId then
        let commission := sellerCommission percent lastBid.amount
        let net := lastBid.amount - commission
        pending ++ [⟨user, .auctionSold, "💰 Ваш лот продан!",
          soldMessage percent lastBid.amount net commission⟩]
      else pending
  | none => pending

/-- The message of `buy_now` to the seller. -/
def soldNowMessage (percent : CommissionPercent) (buyer title : String)
    (gross net commission : Money) : String :=
  s!"{buyer} купил «{title}» за {gross.format} ₽. На баланс зачислено {net.format} ₽ " ++
    s!"(комиссия платформы {percent.text}% - {commission.format} ₽)."

/-- The notification that `buy_now` sends the seller. -/
def soldNowNotification (percent : CommissionPercent) (currentUser creator : Recipient)
    (auction : Auction) (binPrice : Money) : Payload :=
  let commission := sellerCommission percent binPrice
  let net := binPrice - commission
  ⟨creator, .auctionSold, "✅ Лот куплен по цене BIN",
    soldNowMessage percent currentUser.username auction.title binPrice net commission⟩

/-- What the settlement of a lot with bids changes the balance of its seller by. -/
theorem settleBids_seller (percent : CommissionPercent) {locked : UserId → Option User}
    (hRows : ∀ uid user, locked uid = some user → user.id = uid) {auction : Auction} {lastBid : Bid}
    {seller : User} (hSeller : locked auction.createdBy = some seller)
    (hOther : lastBid.userId ≠ auction.createdBy) (hPos : 0 ≤ lastBid.amount)
    (hCommission : 0 ≤ sellerCommission percent lastBid.amount) :
    (settleBids percent locked auction lastBid).users auction.createdBy =
      some { seller with
        balance := seller.balance + (lastBid.amount - sellerCommission percent lastBid.amount) } := by
  have hId := hRows auction.createdBy seller hSeller
  have hCredit {work : UnitOfWork} (hWork : work.users auction.createdBy = some seller) :
      (creditSeller percent work seller.id lastBid.amount auction
        s!"Продажа лота «{auction.title}»").users auction.createdBy =
      some { seller with
        balance := seller.balance + (lastBid.amount - sellerCommission percent lastBid.amount) } := by
    rw [hId, (creditSeller_credited percent hWork hPos auction _ hCommission).users,
      Function.update_self, hId]
  simp only [settleBids, hSeller]
  cases hWinner : locked lastBid.userId with
  | none => exact hCredit hSeller
  | some winner =>
      apply hCredit
      rw [applyBalanceDelta_other _ _ (-lastBid.amount).toDecimal]
      · exact hSeller
      · rw [hRows lastBid.userId winner hWinner]
        exact hOther.symm

/-- What a purchase changes the balance of the seller by. -/
theorem settleBinPurchase_seller (percent : CommissionPercent) {work : UnitOfWork}
    {auction : Auction} {price : Money} {buyer : UserId} {seller : User} (now : Time)
    (hSeller : work.users seller.id = some seller) (hOther : buyer ≠ seller.id) (hPos : 0 ≤ price)
    (hCommission : 0 ≤ sellerCommission percent price) :
    (settleBinPurchase percent work auction price buyer (some seller) now).1.users seller.id =
      some { seller with balance := seller.balance + (price - sellerCommission percent price) } := by
  simp only [settleBinPurchase]
  rw [(creditSeller_credited percent _ hPos _ _ hCommission).users, Function.update_self]
  rw [applyBalanceDelta_other _ hOther.symm]
  exact hSeller

/-- The commission at every price on the grid: its bounds, its growth with the
price, what the seller is credited with, and what the two notifications quote. -/
theorem commission_arithmetic (percent : CommissionPercent) (hDigits : percent.units < 10 ^ 15)
    {gross : Money} (hPos : 0 < gross) (hMax : gross ≤ maxUserBalance) :
    (0 ≤ sellerCommission percent gross ∧ sellerCommission percent gross ≤ gross ∧
      |(sellerCommission percent gross).rubles - gross.rubles * percent.value / 100| ≤ 5 / 1000) ∧
    (∀ higher, gross ≤ higher → higher ≤ maxUserBalance →
      sellerCommission percent gross ≤ sellerCommission percent higher ∧
      gross - sellerCommission percent gross ≤ higher - sellerCommission percent higher) ∧
    (∀ work seller user auction description, work.users seller = some user → 0 ≤ user.balance →
      Credited work (creditSeller percent work seller gross auction description) seller user gross
        (sellerCommission percent gross) ∧
      (∀ row ∈ saleRows seller user.balance gross (sellerCommission percent gross),
        0 < row.2.2.1 ∧ 0 ≤ row.2.2.2) ∧
      0 ≤ user.balance + (gross - sellerCommission percent gross)) ∧
    (∀ locked auction lastBid seller winner creator bidders,
      (∀ uid user, locked uid = some user → user.id = uid) →
      locked auction.createdBy = some seller → creator.id = auction.createdBy →
      lastBid.userId ≠ auction.createdBy → lastBid.amount = gross →
      ∃ net, (settleBids percent locked auction lastBid).users auction.createdBy =
          some { seller with balance := seller.balance + net } ∧
        ⟨creator, .auctionSold, "💰 Ваш лот продан!",
            soldMessage percent gross net (sellerCommission percent gross)⟩ ∈
          buildCompletionNotifications percent lastBid winner (some creator) bidders) ∧
    ∀ work auction buyer seller now (currentUser creator : Recipient),
      work.users seller.id = some seller → buyer ≠ seller.id →
      ∃ net, (settleBinPurchase percent work auction gross buyer (some seller) now).1.users seller.id =
          some { seller with balance := seller.balance + net } ∧
        (soldNowNotification percent currentUser creator auction gross).message =
          soldNowMessage percent currentUser.username auction.title gross net
            (sellerCommission percent gross) := by
  have hLimit : gross < numericLimit := hMax.trans_lt (by norm_num [maxUserBalance, numericLimit])
  obtain ⟨hNonneg, hLe⟩ := sellerCommission_bounds percent hPos.le hLimit
  refine ⟨⟨hNonneg, hLe, sellerCommission_near hDigits hPos.le hMax⟩, ?_, ?_, ?_, ?_⟩
  · exact fun higher hHigher hMax' => sellerCommission_mono hDigits hPos.le hHigher hMax'
  · intro work seller user auction description hUser hBalance
    refine ⟨creditSeller_credited percent hUser hPos.le auction description hNonneg,
      saleRows_sound hBalance hPos hLe, ?_⟩
    linarith
  · intro locked auction lastBid seller winner creator bidders hRows hSeller hCreator hOther hAmount
    subst hAmount
    refine ⟨_, settleBids_seller percent hRows hSeller hOther hPos.le hNonneg, ?_⟩
    have hSold : creator.id ≠ lastBid.userId := by
      rw [hCreator]
      exact hOther.symm
    simp [buildCompletionNotifications, hSold]
  · intro work auction buyer seller now currentUser creator hSeller hOther
    exact ⟨_, settleBinPurchase_seller percent now hSeller hOther hPos.le hNonneg, rfl⟩

/-- At 12.5 percent, half a kopeck is rounded up. -/
theorem commission_arithmetic_tie :
    sellerCommission ⟨125, 1, "12.5", by decide⟩ 100 = 13 ∧
      |(sellerCommission ⟨125, 1, "12.5", by decide⟩ 100).rubles -
        Money.rubles 100 * CommissionPercent.value ⟨125, 1, "12.5", by decide⟩ / 100| ≤ 5 / 1000 :=
  ⟨by decide +kernel, (commission_arithmetic ⟨125, 1, "12.5", by decide⟩ (by decide) (by decide)
    (by decide)).1.2.2⟩

end OnlineAuction
