import Mathlib.Algebra.Order.Field.Rat
import Mathlib.Algebra.Order.Floor.Div
import Mathlib.Data.Rat.Floor
import OnlineAuction.Library.Latest
import OnlineAuction.Library.Paging
import OnlineAuction.Notifications.Records

/-! Listings in pages: `get_auctions`, `get_auction_bids`, `get_transactions` and
`get_notifications`, each over one content of its tables. The database orders the
rows anew for every page. -/

namespace OnlineAuction

open Arrangements Notifications

abbrev Keyed {ρ : Type} (id : ρ → Nat) := {rows : List ρ // (rows.map id).Nodup}

structure PostedTransaction extends Transaction where
  createdAt : Time
  deriving DecidableEq

structure Notification where
  id : Nat
  userId : UserId
  type : NotificationType
  title : String
  message : String
  auctionId : Option LotId
  auctionTitle : Option String
  isRead : Bool
  createdAt : Time

/-- What `get_auctions` queries: the lots, the user whose name is this one in lower
case, the categories, and the database's `ILIKE`. -/
structure Catalogue where
  lots : Keyed Auction.id
  userNamed : String → Option UserId
  categories : List Category
  ilike : String → String → Bool

/-- `Query(ge=1, le=...)`. -/
abbrev PageSize (most : Nat) := {size : Nat // 1 ≤ size ∧ size ≤ most}

/-- `total_pages_for`. -/
def totalPagesFor (total pageSize : Nat) : Nat :=
  if total ≤ 0 ∨ pageSize ≤ 0 then 0 else (total + pageSize - 1) / pageSize

structure Paginated (ρ : Type) where
  items : List ρ
  total : Nat
  page : Nat
  pageSize : Nat
  totalPages : Nat

inductive StatusFilter where
  | active
  | completed
  | all

inductive SortBy where
  | time
  | priceAsc
  | priceDesc

/-- The parameters of `get_auctions`; the prices in roubles. -/
structure AuctionsQuery where
  status : StatusFilter
  search : Option String
  minPrice : Option ℚ
  maxPrice : Option ℚ
  sortBy : SortBy
  createdBy : Option String
  category : Option String
  auctionType : Option String

/-- Ties are broken by `Auction.id.asc()`. -/
def SortBy.order : SortBy → Auction → Auction → Prop
  | .time => fun a b => Latest.Newer Auction.endTime Auction.id b a
  | .priceAsc => fun a b => Latest.Newer Auction.currentPrice Auction.id b a
  | .priceDesc => fun a b => Latest.Newer (fun row => -row.currentPrice) Auction.id b a

def given (value : Option String) : Option String := value.filter (· ≠ "")

def Catalogue.ofCreator (catalogue : Catalogue) (createdBy : Option String) :
    Option (Auction → Bool) :=
  match given createdBy with
  | none => some fun _ => true
  | some name => (catalogue.userNamed name).map fun userId row => row.createdBy = userId

/-- The lots of a category and its children. -/
def Catalogue.ofCategory (catalogue : Catalogue) (category : Option String) :
    Option (Auction → Bool) :=
  match given category with
  | none => some fun _ => true
  | some slug => (catalogue.categories.find? fun row => row.slug = slug).map fun found row =>
      let children := catalogue.categories.filter fun child => child.parentId = some found.id
      row.categoryId.any fun id => id ∈ found.id :: children.map Category.id

/-- The `WHERE` of `get_auctions`, unless it answers with an empty page at once. -/
def Catalogue.conditions (catalogue : Catalogue) (q : AuctionsQuery) : Option (Auction → Bool) := do
  let ofCreator ← catalogue.ofCreator q.createdBy
  let ofCategory ← catalogue.ofCategory q.category
  some fun row =>
    (match q.status with
      | .active => row.isActive
      | .completed => row.isCompleted
      | .all => true) &&
    (given q.search).all (fun search => catalogue.ilike row.title s!"%{search}%" ||
      catalogue.ilike row.description s!"%{search}%") &&
    q.minPrice.all (fun price => price * 100 ≤ (row.currentPrice : ℚ)) &&
    q.maxPrice.all (fun price => (row.currentPrice : ℚ) ≤ price * 100) &&
    ofCreator row && ofCategory row &&
    (match q.auctionType with
      | some "bid" => row.auctionType = .bid
      | some "bin" => row.auctionType = .bin
      | _ => true)

def Catalogue.selected (catalogue : Catalogue) (q : AuctionsQuery) : List Auction :=
  match catalogue.conditions q with
  | some conditions => catalogue.lots.val.filter conditions
  | none => []

/-- `GET /auctions`, for which the database has arranged the lots as `arranged`. -/
def getAuctions (catalogue : Catalogue) (q : AuctionsQuery) (arranged : List Auction)
    (page pageSize : Nat) : Paginated Auction :=
  match catalogue.conditions q with
  | none => ⟨[], 0, page, pageSize, 0⟩
  | some conditions =>
      let total := (catalogue.lots.val.filter conditions).length
      ⟨Arrangements.page pageSize (page - 1) arranged, total, page, pageSize,
        totalPagesFor total pageSize⟩

def bidsOnLot (bids : Keyed Bid.id) (auctionId : LotId) : List Bid :=
  bids.val.filter fun bid => bid.auctionId = auctionId

/-- `order_by(Bid.timestamp.desc(), Bid.id.desc())`. -/
abbrev NewestBid : Bid → Bid → Prop := Latest.Newer Bid.timestamp Bid.id

/-- `GET /auctions/{auction_id}/bids`. -/
def getAuctionBids (bids : Keyed Bid.id) (auctionId : LotId) (arranged : List Bid)
    (page pageSize : Nat) : Paginated Bid :=
  let total := (bidsOnLot bids auctionId).length
  ⟨Arrangements.page pageSize (page - 1) arranged, total, page, pageSize,
    totalPagesFor total pageSize⟩

abbrev Postings := Keyed fun row : PostedTransaction => row.id

def postedFor (transactions : Postings) (userId : UserId) : List PostedTransaction :=
  transactions.val.filter fun row => row.userId = userId

/-- `order_by(Transaction.created_at.desc())`. -/
def NewestPosting (a b : PostedTransaction) : Prop := b.createdAt ≤ a.createdAt

instance : DecidableRel NewestPosting := fun a b =>
  inferInstanceAs (Decidable (b.createdAt ≤ a.createdAt))

structure TransactionsPage where
  balance : Money
  total : Nat
  page : Nat
  totalPages : Nat
  items : List PostedTransaction

/-- `GET /transactions`. -/
def getTransactions (transactions : Postings) (user : User) (arranged : List PostedTransaction)
    (page pageSize : Nat) : TransactionsPage :=
  let total := (postedFor transactions user.id).length
  ⟨user.balance, total, page, totalPagesFor total pageSize,
    Arrangements.page pageSize (page - 1) arranged⟩

def notificationsOf (notifications : Keyed Notification.id) (userId : UserId)
    (unreadOnly : Bool) : List Notification :=
  notifications.val.filter fun row => row.userId = userId && (!unreadOnly || !row.isRead)

/-- `order_by(Notification.created_at.desc(), Notification.id.desc())`. -/
abbrev NewestNotification : Notification → Notification → Prop :=
  Latest.Newer Notification.createdAt Notification.id

structure NotificationsPage where
  items : List Notification
  total : Nat
  limit : Nat
  offset : Nat

/-- `GET /notifications`. -/
def getNotifications (notifications : Keyed Notification.id) (userId : UserId) (unreadOnly : Bool)
    (arranged : List Notification) (limit offset : Nat) : NotificationsPage :=
  ⟨(arranged.drop offset).take limit, (notificationsOf notifications userId unreadOnly).length,
    limit, offset⟩

abbrev Arranged {ρ : Type} (order : ρ → ρ → Prop) (rows : List ρ) :=
  {sorted : List ρ // Arrangement order rows sorted}

/-- A listing, by its endpoint: over which table, for whom, in pages of which size. -/
inductive Browsing where
  | auctions (catalogue : Catalogue) (q : AuctionsQuery) (size : PageSize 50)
  | bids (table : Keyed Bid.id) (auctionId : LotId) (size : PageSize 50)
  | transactions (table : Postings) (user : User) (size : PageSize 100)
  | notifications (table : Keyed Notification.id) (userId : UserId) (unreadOnly : Bool)
      (limit : PageSize 100)

/-- The pages hold every matching row once, and they are as many as it takes. -/
structure Whole {ρ : Type} (rows : List ρ) (size : Nat) (total totalPages : Nat → Nat)
    (items : Nat → List ρ) : Prop where
  total : ∀ n, total n = rows.length
  totalPages : ∀ n, totalPages n = ⌈(rows.length : ℚ) / size⌉₊
  partition : ((List.range ⌈(rows.length : ℚ) / size⌉₊).flatMap items).Perm rows

/-- However the database arranges the rows for each page. Of notifications the
client counts the pages itself. -/
def Browsing.Partitions : Browsing → Prop
  | .auctions catalogue q size =>
      ∀ arranged : Nat → Arranged q.sortBy.order (catalogue.selected q),
        let fetch n := getAuctions catalogue q (arranged n).val (n + 1) size.val
        Whole (catalogue.selected q) size.val (fun n => (fetch n).total)
          (fun n => (fetch n).totalPages) fun n => (fetch n).items
  | .bids table auctionId size =>
      ∀ arranged : Nat → Arranged NewestBid (bidsOnLot table auctionId),
        let fetch n := getAuctionBids table auctionId (arranged n).val (n + 1) size.val
        Whole (bidsOnLot table auctionId) size.val (fun n => (fetch n).total)
          (fun n => (fetch n).totalPages) fun n => (fetch n).items
  | .transactions table user size =>
      ∀ arranged : Nat → Arranged NewestPosting (postedFor table user.id),
        let fetch n := getTransactions table user (arranged n).val (n + 1) size.val
        Whole (postedFor table user.id) size.val (fun n => (fetch n).total)
          (fun n => (fetch n).totalPages) fun n => (fetch n).items
  | .notifications table userId unreadOnly limit =>
      ∀ arranged : Nat → Arranged NewestNotification (notificationsOf table userId unreadOnly),
        let fetch n := getNotifications table userId unreadOnly (arranged n).val limit.val
          (n * limit.val)
        Whole (notificationsOf table userId unreadOnly) limit.val (fun n => (fetch n).total)
          (fun n => totalPagesFor (fetch n).total limit.val) fun n => (fetch n).items

/-- No two transactions of one time stand on either side of the end of a page. -/
def Browsing.Untied : Browsing → Prop
  | .transactions table user size =>
      Unparted NewestPosting size.val ((postedFor table user.id).insertionSort NewestPosting)
  | _ => True

section Pages

variable {ρ : Type} {rows : List ρ} {order : ρ → ρ → Prop}

/-- The number of pages is the quotient rounded up. -/
theorem totalPagesFor_eq (total : Nat) {pageSize : Nat} (hSize : 1 ≤ pageSize) :
    totalPagesFor total pageSize = ⌈(total : ℚ) / pageSize⌉₊ := by
  have hPos : (0 : ℚ) < pageSize := by exact_mod_cast hSize
  apply eq_of_forall_ge_iff
  intro n
  rw [Nat.ceil_le, div_le_iff₀ hPos]
  norm_cast
  unfold totalPagesFor
  split_ifs with hNone
  · have hTotal : total = 0 := by omega
    simp [hTotal]
  · rw [← Nat.ceilDiv_eq_add_pred_div, ceilDiv_le_iff_le_mul hSize, Nat.mul_comm]

/-- As many pages as it takes have room for all rows. -/
theorem length_le_pages {size : Nat} (hSize : 1 ≤ size) (rows : List ρ) :
    rows.length ≤ ⌈(rows.length : ℚ) / size⌉₊ * size := by
  have hPos : (0 : ℚ) < size := by exact_mod_cast hSize
  have hLe := (div_le_iff₀ hPos).mp (Nat.le_ceil ((rows.length : ℚ) / size))
  exact_mod_cast hLe

/-- Rows that no two tie of are partitioned, however they are arranged. -/
theorem whole_of_untied {size : Nat} (hSize : 1 ≤ size) {total totalPages : Nat → Nat}
    (arranged : Nat → Arranged order rows)
    (hUntied : ∀ a ∈ rows, ∀ b ∈ rows, order a b → order b a → a = b)
    (hTotal : ∀ n, total n = rows.length)
    (hPages : ∀ n, totalPages n = totalPagesFor (total n) size) :
    Whole rows size total totalPages fun n => page size n (arranged n).val where
  total := hTotal
  totalPages n := by rw [hPages, hTotal, totalPagesFor_eq _ hSize]
  partition := pages_perm_of_untied (fun n => (arranged n).property) hUntied
    (length_le_pages hSize rows)

/-- Under a primary key, the key breaks all ties. -/
theorem untied_newer {time : ρ → ℤ} {id : ρ → Nat} {table : Keyed id}
    (hRows : ∀ row ∈ rows, row ∈ table.val) :
    ∀ a ∈ rows, ∀ b ∈ rows, Latest.Newer time id a b → Latest.Newer time id b a → a = b := by
  intro a ha b hb hAB hBA
  have hSame : id a = id b := by
    unfold Latest.Newer at hAB hBA
    omega
  exact List.inj_on_of_nodup_map table.property (hRows a ha) (hRows b hb) hSame

end Pages

theorem mem_of_mem_selected {catalogue : Catalogue} {q : AuctionsQuery} {row : Auction}
    (h : row ∈ catalogue.selected q) : row ∈ catalogue.lots.val := by
  unfold Catalogue.selected at h
  split at h
  · exact List.mem_of_mem_filter h
  · cases h

/-- No two selected lots tie: the identity breaks the last tie of every order. -/
theorem SortBy.untied {catalogue : Catalogue} {q : AuctionsQuery} :
    ∀ a ∈ catalogue.selected q, ∀ b ∈ catalogue.selected q,
      q.sortBy.order a b → q.sortBy.order b a → a = b := by
  intro a ha b hb hAB hBA
  have hRows (row : Auction) (h : row ∈ catalogue.selected q) := mem_of_mem_selected h
  cases hSort : q.sortBy with
  | time =>
      rw [hSort] at hAB hBA
      exact untied_newer hRows a ha b hb hBA hAB
  | priceAsc =>
      rw [hSort] at hAB hBA
      exact untied_newer hRows a ha b hb hBA hAB
  | priceDesc =>
      rw [hSort] at hAB hBA
      let price (row : Auction) : ℤ := -row.currentPrice
      have hBA : Latest.Newer price Auction.id a b := hBA
      exact untied_newer hRows a ha b hb hBA hAB

/-- What the listing answers for a page, read off the arranged selection. -/
theorem getAuctions_eq {catalogue : Catalogue} {q : AuctionsQuery} {arranged : List Auction}
    (hArranged : arranged.Perm (catalogue.selected q)) (n size : Nat) :
    getAuctions catalogue q arranged (n + 1) size =
      ⟨page size n arranged, (catalogue.selected q).length, n + 1, size,
        totalPagesFor (catalogue.selected q).length size⟩ := by
  unfold getAuctions Catalogue.selected at *
  cases hConditions : catalogue.conditions q with
  | some conditions => rfl
  | none =>
      rw [hConditions] at hArranged
      rw [hArranged.eq_nil]
      simp [page, totalPagesFor]

instance : Std.Total NewestPosting := ⟨fun a b => le_total b.createdAt a.createdAt⟩

instance : IsTrans PostedTransaction NewestPosting := ⟨fun _ _ _ hAB hBC => le_trans hBC hAB⟩

/-- Of each listing, over any tables: the pages hold every matching row exactly once
however the database orders ties in each query, unless they are of transactions and
two of one time stand on either side of the end of a page. -/
theorem pages_partition_iff (listing : Browsing) : listing.Partitions ↔ listing.Untied := by
  cases listing with
  | auctions catalogue q size =>
      apply iff_of_true _ trivial
      intro arranged
      simp only [getAuctions_eq (arranged _).property.perm]
      exact whole_of_untied size.property.1 arranged SortBy.untied (fun _ => rfl) fun _ => rfl
  | bids table auctionId size =>
      apply iff_of_true _ trivial
      intro arranged
      have hRows (bid : Bid) (h : bid ∈ bidsOnLot table auctionId) : bid ∈ table.val :=
        List.mem_of_mem_filter h
      exact whole_of_untied size.property.1 arranged (untied_newer hRows) (fun _ => rfl)
        fun _ => rfl
  | notifications table userId unreadOnly limit =>
      apply iff_of_true _ trivial
      intro arranged
      have hRows (row : Notification) (h : row ∈ notificationsOf table userId unreadOnly) :
          row ∈ table.val := List.mem_of_mem_filter h
      exact whole_of_untied limit.property.1 arranged (untied_newer hRows) (fun _ => rfl)
        fun _ => rfl
  | transactions table user size =>
      have hNodup : (postedFor table user.id).Nodup := (table.property.of_map _).filter _
      have hSorted : Arrangement NewestPosting (postedFor table user.id)
          ((postedFor table user.id).insertionSort NewestPosting) := .of_insertionSort _
      have hIff := pages_perm_iff hSorted hNodup size.property.1
        (length_le_pages size.property.1 (postedFor table user.id))
      constructor
      · intro hWhole
        apply hIff.mp
        intro arranged hArranged
        exact (hWhole fun n => ⟨arranged n, hArranged n⟩).partition
      · intro hUntied arranged
        refine ⟨fun _ => rfl, fun _ => totalPagesFor_eq _ size.property.1, ?_⟩
        exact hIff.mpr hUntied (fun n => (arranged n).val) fun n => (arranged n).property

def proceeds : PostedTransaction :=
  ⟨⟨0, 7, .auctionSale, 20000, 120000, "Продажа лота «Chair»", some 0⟩, seconds 600⟩

def commissionOnIt : PostedTransaction :=
  ⟨⟨1, 7, .commission, 1400, 118600, "Комиссия платформы 7%", some 0⟩, seconds 600⟩

def saleAndCommission : Postings := ⟨[proceeds, commissionOnIt], by decide⟩

/-- The second page is cut from the other order. -/
def turned (n : Nat) : Arranged NewestPosting (postedFor saleAndCommission 7) :=
  if n = 1 then ⟨[commissionOnIt, proceeds], by decide, by decide⟩
  else ⟨[proceeds, commissionOnIt], by decide, by decide⟩

/-- Pages of one row each. -/
theorem pages_part_ties : ¬∀ listing : Browsing, listing.Partitions := by
  intro hAll
  have hWhole : Browsing.Partitions (.transactions saleAndCommission ⟨7, 118600⟩ ⟨1, by decide⟩) :=
    hAll _
  have hPages := hWhole turned
  have hPartition := hPages.partition
  rw [← hPages.totalPages 0] at hPartition
  revert hPartition
  decide

end OnlineAuction
