import OnlineAuction.Market.Money

/-! Rows and request payloads: `app/models` and `app/schemas`, as far as the
money and the lots of the marketplace depend on them. -/

namespace OnlineAuction

abbrev UserId := Nat

abbrev LotId := Nat

/-- Points in time and durations, in microseconds. -/
abbrev Time := ℤ

def seconds (n : Nat) : Time := n * 1000000

def minutes (n : Nat) : Time := seconds (60 * n)

def hours (n : Nat) : Time := minutes (60 * n)

structure User where
  id : UserId
  balance : Money
  deriving DecidableEq

inductive AuctionType where
  | bid
  | bin
  deriving DecidableEq

structure Auction where
  id : LotId
  title : String
  description : String
  startingPrice : Money
  currentPrice : Money
  imageUrl : Option String
  startTime : Time
  endTime : Time
  isActive : Bool
  isCompleted : Bool
  winnerId : Option UserId
  createdBy : UserId
  categoryId : Option Nat
  endingSoonNotified : Bool
  auctionType : AuctionType
  binPrice : Option Money
  extensionsCount : Nat
  deriving DecidableEq

structure AuctionImage where
  auctionId : LotId
  url : String
  order : Nat
  deriving DecidableEq

structure Bid where
  id : Nat
  amount : Money
  timestamp : Time
  userId : UserId
  auctionId : LotId
  deriving DecidableEq

inductive TransactionType where
  | deposit
  | withdrawal
  | bidWin
  | auctionSale
  | binPurchase
  | commission
  deriving DecidableEq

structure Transaction where
  id : Nat
  userId : UserId
  type : TransactionType
  amount : Money
  balanceAfter : Money
  description : String
  auctionId : Option LotId
  deriving DecidableEq

structure Category where
  id : Nat
  name : String
  slug : String
  icon : String
  parentId : Option Nat
  deriving DecidableEq

/-- `CheckConstraint`s of the `auctions` table. -/
def Auction.admits (a : Auction) : Bool :=
  decide (0 < a.startingPrice) &&
    match a.binPrice with
    | some price => decide (a.startingPrice ≤ price)
    | none => decide (a.auctionType ≠ .bin)

/-- `ck_users_balance_nonneg`, and the range of the column. -/
def User.admits (u : User) : Bool := decide (0 ≤ u.balance) && decide (u.balance < numericLimit)

/-- `Field(gt=0, le=MAX_USER_BALANCE, decimal_places=2)`. -/
abbrev Price := {price : Money // 0 < price ∧ price ≤ maxUserBalance}

/-- `Field(gt=0, le=Decimal("100000"), decimal_places=2)`. -/
abbrev TransferAmount := {amount : Money // 0 < amount ∧ amount ≤ 10000000}

/-- `Field(gt=0, le=10080)`, a week at most. -/
abbrev DurationMinutes := {n : Nat // 0 < n ∧ n ≤ 10080}

/-- `Field(min_length=1, max_length=300)`. -/
abbrev Title := {title : String // 1 ≤ title.length ∧ title.length ≤ 300}

structure DepositRequest where
  amount : TransferAmount

structure WithdrawRequest where
  amount : TransferAmount

structure BidCreate where
  auctionId : LotId
  amount : Price

structure AuctionCreate where
  title : Title
  description : String
  startingPrice : Price
  durationMinutes : DurationMinutes
  imageUrl : Option String
  imageUrls : Option (List String)
  categoryId : Option Nat
  auctionType : AuctionType
  binPrice : Option Price

/-- A field outside `model_fields_set` is `none`; `some none` is an explicit
null. -/
structure AuctionUpdate where
  title : Option (Option Title)
  description : Option (Option String)
  categoryId : Option (Option Nat)
  startingPrice : Option (Option Price)
  binPrice : Option (Option Price)
  auctionType : Option (Option AuctionType)
  extendMinutes : Option (Option DurationMinutes)
  imageUrls : Option (Option (List String))

/-- `bool(data.model_fields_set)`. -/
def AuctionUpdate.fields (data : AuctionUpdate) : Bool :=
  data.title.isSome || data.description.isSome || data.categoryId.isSome ||
    data.startingPrice.isSome || data.binPrice.isSome || data.auctionType.isSome ||
    data.extendMinutes.isSome || data.imageUrls.isSome

structure HTTPException where
  statusCode : Nat
  detail : String
  deriving DecidableEq

/-- An exception no handler catches. -/
def internalServerError : HTTPException := ⟨500, "Internal Server Error"⟩

def antisnipingWindow : Time := seconds 120

def antisnipingExtend : Time := seconds 120

def maxAntisnipingExtensions : Nat := 30

end OnlineAuction
