import OnlineAuction.Market.Database

/-! The handlers of `app/routers/balance.py`, `bids.py` and `auctions.py` and
the settle path of `app/services/auctions.py`, as programs over the store.
Every `utcnow()`, every query, every row lock and every commit is an effect. -/

namespace OnlineAuction

open RowLocks

def utcnow : Prog market Time := .clock none .pure

def query {α : Type} (select : Db → α) : Prog market α := .read none fun d => .pure (select d)

/-- `select(Auction).where(Auction.id == …).with_for_update()`. Without
`populate_existing` a copy the session has loaded already is returned as it
was: the note and the caller keep it in `identity`. -/
def selectAuctionForUpdate (auctionId : LotId) (identity : Option Auction) :
    Prog market (Option Auction) :=
  .lock (.lot auctionId) identity fun d => .pure (d.auctions.get auctionId)

/-- Commit the session's writes; a violated constraint or a lost connection
surfaces as an unhandled exception. -/
def commit (write : Db → Db) : Prog market Db :=
  .commit none write fun done => Prog.orRaise done internalServerError

/-- The `User` that `get_current_user` loads into the request's session. -/
def getCurrentUser (userId : UserId) : Prog market User := do
  Prog.orRaise (← query fun d => d.users.get userId) ⟨401, "User not found"⟩

def selectUserForUpdate (uid : UserId) : Prog market (Option User) :=
  .lock (.user uid) none fun d => .pure (d.users.get uid)

/-- `if user is not None: locked[uid] = user`. -/
def keepLocked (locked : UserId → Option User) (uid : UserId) : Option User → UserId → Option User
  | some user => Function.update locked uid (some user)
  | none => locked

/-- The loop of `lock_users_by_id`. -/
def lockEach : List UserId → (UserId → Option User) → Prog market (UserId → Option User)
  | [], locked => pure locked
  | uid :: rest, locked => do
      let user ← selectUserForUpdate uid
      lockEach rest (keepLocked locked uid user)

/-- `lock_users_by_id`: row locks in ascending order of id, on refreshed copies. -/
def lockUsersById (userIds : List UserId) : Prog market (UserId → Option User) :=
  lockEach (userIds.dedup.insertionSort (· ≤ ·)) fun _ => none

def selectLastBid (auctionId : LotId) : Prog market (Option Bid) := query (Db.lastBid · auctionId)

def getCommittedBalance (userId : UserId) : Prog market Money :=
  query (Db.getCommittedBalance · userId)

def effectiveCommittedBalance (userId : UserId) (currentAuctionId : LotId)
    (currentPrice : Money) : Prog market Money := do
  let committed ← getCommittedBalance userId
  let lastBid ← selectLastBid currentAuctionId
  if lastBid.map Bid.userId = some userId then pure (committed - currentPrice)
  else pure committed

/-- The session's users: the locked rows, and the request's own user, whose
copy the lock has refreshed. -/
def UnitOfWork.begin (userId : UserId) (user : User) (locked : UserId → Option User) :
    UnitOfWork :=
  ⟨fun uid => if uid = userId then some ((locked uid).getD user) else locked uid, []⟩

/-- The insert of `register`, with a balance of its own. -/
def register : Prog market Unit := do
  let _ ← commit Db.addUser

def deposit (userId : UserId) (data : DepositRequest) : Prog market Money := do
  let loaded ← getCurrentUser userId
  let locked ← lockUsersById [userId]
  let user := (locked userId).getD loaded
  let amount := data.amount.val
  let projected := quantizeMoney (user.balance.toDecimal.add amount.toDecimal)
  Prog.raiseIf (maxUserBalance < projected)
    ⟨400, s!"Максимальный баланс - {maxUserBalance.format} ₽"⟩
  let work := (UnitOfWork.begin userId loaded locked).applyBalanceDelta userId amount.toDecimal .deposit
    "Пополнение баланса" none
  let _ ← commit (Db.flushWork · work)
  pure ((work.users userId).getD user).balance

def withdraw (userId : UserId) (data : WithdrawRequest) : Prog market Money := do
  let loaded ← getCurrentUser userId
  let locked ← lockUsersById [userId]
  let user := (locked userId).getD loaded
  let amount := data.amount.val
  let committed ← getCommittedBalance userId
  let available := user.balance - committed
  Prog.raiseIf (available < amount)
    ⟨400, s!"Недостаточно средств. Доступно: {available.format} ₽ " ++
      s!"({committed.format} ₽ удерживается на активных аукционах)."⟩
  let work := (UnitOfWork.begin userId loaded locked).applyBalanceDelta userId (-amount).toDecimal
    .withdrawal "Вывод средств" none
  let _ ← commit (Db.flushWork · work)
  pure ((work.users userId).getD user).balance

def reservedElsewhere (committedElsewhere : Money) : String :=
  if 0 < committedElsewhere then
    s!" ({committedElsewhere.format} ₽ уже зарезервировано в других активных аукционах)"
  else ""

/-- The lot after an accepted bid, with the anti-sniping extension. -/
def acceptBid (auction : Auction) (amount : Money) (now : Time) : Auction × Bool :=
  let auction := { auction with currentPrice := amount }
  let delta := auction.endTime - now
  if (0 < delta ∧ delta < antisnipingWindow) ∧
      auction.extensionsCount < maxAntisnipingExtensions then
    ({ auction with
        endTime := now + antisnipingExtend
        endingSoonNotified := false
        extensionsCount := auction.extensionsCount + 1 }, true)
  else (auction, false)

/-- `POST /bids`; returns `extended_until`. The default of `Bid.timestamp` is evaluated
when the insert is flushed. -/
def placeBid (userId : UserId) (bid : BidCreate) : Prog market (Option Time) := do
  let loaded ← getCurrentUser userId
  let auction ← Prog.orRaise (← selectAuctionForUpdate bid.auctionId none)
    ⟨404, "Аукцион не найден"⟩
  Prog.raiseIf (¬auction.isActive) ⟨400, "Аукцион неактивен"⟩
  Prog.raiseIf (auction.auctionType = .bin)
    ⟨400, "Это лот с фиксированной ценой - ставки не принимаются, используйте «Купить сразу»"⟩
  Prog.raiseIf (auction.createdBy = userId) ⟨400, "Нельзя делать ставки на свой собственный лот"⟩
  Prog.raiseIf (auction.endTime < (← utcnow)) ⟨400, "Аукцион завершён"⟩
  Prog.raiseIf (bid.amount.val ≤ auction.currentPrice)
    ⟨400, "Ставка должна быть больше текущей цены"⟩
  let previousLeaderBid ← selectLastBid bid.auctionId
  Prog.raiseIf (previousLeaderBid.map Bid.userId = some userId)
    ⟨400, "Вы уже лидируете в этом аукционе - дождитесь чужой ставки"⟩
  let locked ← lockUsersById [userId]
  let user := (locked userId).getD loaded
  let committedElsewhere ← effectiveCommittedBalance userId bid.auctionId auction.currentPrice
  let available := user.balance - committedElsewhere
  Prog.raiseIf (available < bid.amount.val)
    ⟨400, s!"Недостаточно средств на балансе. Доступно {available.format} ₽" ++
      reservedElsewhere committedElsewhere ++ "."⟩
  let (changed, extended) := acceptBid auction bid.amount.val (← utcnow)
  let timestamp ← utcnow
  let _ ← commit fun d =>
    (d.flushAuction bid.auctionId auction changed).addBid bid.amount.val timestamp userId bid.auctionId
  pure (if extended then some changed.endTime else none)

/-- The check of `category_id` shared by creation and update. -/
def checkCategory (categoryId : Option Nat) : Prog market Unit :=
  match categoryId with
  | none => pure ()
  | some category => do
      Prog.raiseIf (category ∉ (← query Db.categories)) ⟨400, "Категория не найдена"⟩

def binPriceRequired : HTTPException :=
  ⟨400, "Для лота с фиксированной ценой обязательно указать bin_price"⟩

def AuctionCreate.seedPrice (data : AuctionCreate) : Price :=
  match data.auctionType, data.binPrice with
  | .bin, some price => price
  | _, _ => data.startingPrice

/-- The row `create_auction` inserts. -/
def newAuction (userId : UserId) (data : AuctionCreate) (startTime : Time) (id : LotId) :
    Auction where
  id := id
  title := data.title.val
  description := data.description
  startingPrice := data.seedPrice.val
  currentPrice := data.seedPrice.val
  imageUrl := data.imageUrl
  startTime := startTime
  endTime := startTime + minutes data.durationMinutes.val
  isActive := true
  isCompleted := false
  winnerId := none
  createdBy := userId
  categoryId := data.categoryId
  endingSoonNotified := false
  auctionType := data.auctionType
  binPrice := data.binPrice.map (·.val)
  extensionsCount := 0

/-- `auction.image_urls or ([auction.image_url] if auction.image_url else [])`. -/
def AuctionCreate.allUrls (data : AuctionCreate) : List String :=
  match data.imageUrls with
  | some (url :: urls) => url :: urls
  | _ => (data.imageUrl.filter (· ≠ "")).toList

/-- `POST /auctions`: the lot is committed first, its images after it. -/
def createAuction (userId : UserId) (data : AuctionCreate) : Prog market Unit := do
  let _ ← getCurrentUser userId
  let startTime ← utcnow
  checkCategory data.categoryId
  Prog.raiseIf (data.auctionType = .bin ∧ data.binPrice = none) binPriceRequired
  let inserted ← commit (Db.addAuction · (newAuction userId data startTime))
  let id := inserted.auctions.serial - 1
  if data.allUrls ≠ [] then
    let _ ← commit fun d =>
      { d with images := d.images ++ data.allUrls.mapIdx fun i url => ⟨id, url, i⟩ }

def endedAuction : HTTPException := ⟨400, "Аукцион завершён"⟩

/-- `_credit_seller`: the gross sale, then the commission. -/
def creditSeller (percent : CommissionPercent) (work : UnitOfWork) (seller : UserId)
    (gross : Money) (auction : Auction) (saleDescription : String) : UnitOfWork :=
  let gross := quantizeMoney gross.toDecimal
  let work := work.applyBalanceDelta seller gross.toDecimal .auctionSale saleDescription
    (some auction.id)
  let commission := sellerCommission percent gross
  if 0 < commission then
    work.applyBalanceDelta seller (-commission).toDecimal .commission
      ("Комиссия платформы " ++ percent.text ++ "%") (some auction.id)
  else work

/-- `settle_bin_purchase`: the session's users after the sale, and the lot. -/
def settleBinPurchase (percent : CommissionPercent) (work : UnitOfWork) (auction : Auction)
    (price : Money) (buyer : UserId) (seller : Option User) (now : Time) :
    UnitOfWork × Auction :=
  let work := work.applyBalanceDelta buyer (-price).toDecimal .binPurchase
    s!"Покупка «{auction.title}» по цене BIN" (some auction.id)
  let auction := { auction with
    currentPrice := price
    isActive := false
    isCompleted := true
    winnerId := some buyer
    endTime := now }
  match seller with
  | some seller =>
      (creditSeller percent work seller.id price auction s!"Продажа «{auction.title}» по цене BIN",
        auction)
  | none => (work, auction)

/-- `POST /auctions/{auction_id}/buy-now`. `not auction.bin_price` holds of a zero price
too. -/
def buyNow (percent : CommissionPercent) (userId : UserId) (auctionId : LotId) :
    Prog market Unit := do
  let loaded ← getCurrentUser userId
  let auction ← Prog.orRaise (← selectAuctionForUpdate auctionId none) ⟨404, "Аукцион не найден"⟩
  Prog.raiseIf (¬auction.isActive) endedAuction
  Prog.raiseIf (auction.endTime < (← utcnow)) endedAuction
  Prog.raiseIf (auction.auctionType ≠ .bin) ⟨400, "Этот аукцион не поддерживает покупку сразу"⟩
  let binPrice ← Prog.orRaise (auction.binPrice.filter (· ≠ 0)) ⟨400, "Цена BIN не установлена"⟩
  Prog.raiseIf (auction.createdBy = userId) ⟨400, "Нельзя купить собственный лот"⟩
  let locked ← lockUsersById [userId, auction.createdBy]
  let user := (locked userId).getD loaded
  let committedElsewhere ← getCommittedBalance userId
  let available := user.balance - committedElsewhere
  Prog.raiseIf (available < binPrice)
    ⟨400, s!"Недостаточно средств. Нужно {binPrice.format} ₽, доступно {available.format} ₽" ++
      reservedElsewhere committedElsewhere ++ "."⟩
  let (work, changed) := settleBinPurchase percent (UnitOfWork.begin userId loaded locked) auction
    binPrice userId (locked auction.createdBy) (← utcnow)
  let _ ← commit fun d => (d.flushAuction auctionId auction changed).flushWork work

/-- Whitespace as `str.strip` sees it. -/
def isSpace (c : Char) : Bool :=
  let n := c.toNat
  (9 ≤ n && n ≤ 13) || (28 ≤ n && n ≤ 32) || (8192 ≤ n && n ≤ 8202) ||
    n ∈ [133, 160, 5760, 8232, 8233, 8239, 8287, 12288]

def strip (s : String) : String :=
  String.ofList ((s.toList.dropWhile isSpace).reverse.dropWhile isSpace).reverse

def ifGiven {α : Type} (field : Option α) (set : α → Auction → Auction) (auction : Auction) :
    Auction :=
  match field with
  | some value => set value auction
  | none => auction

/-- The edits of `update_auction`, field by field. An explicit null clears the
category and the fixed price, and is ignored elsewhere. -/
def AuctionUpdate.edit (data : AuctionUpdate) (auction : Auction) : Auction :=
  let auction := ifGiven data.title.join (fun v a => { a with title := strip v.val }) auction
  let auction := ifGiven data.description.join (fun v a => { a with description := strip v }) auction
  let auction := ifGiven data.categoryId (fun v a => { a with categoryId := v }) auction
  let auction := ifGiven data.startingPrice.join
    (fun v a => { a with startingPrice := v.val, currentPrice := v.val }) auction
  let auction := ifGiven data.binPrice (fun v a => { a with binPrice := v.map (·.val) }) auction
  let auction := ifGiven data.auctionType.join (fun v a => { a with auctionType := v }) auction
  let auction := ifGiven data.extendMinutes.join
    (fun v a => { a with endTime := a.endTime + minutes v.val }) auction
  ifGiven data.imageUrls.join (fun v a => { a with imageUrl := v.head? }) auction

/-- What the set field keeps, the edit keeps, whether the field is given or
not. -/
theorem ifGiven_keeps {α : Type} {P : Auction → Prop} {field : Option α}
    {set : α → Auction → Auction} {auction : Auction} (h : P auction)
    (hSet : ∀ value ∈ field, ∀ a, P a → P (set value a)) : P (ifGiven field set auction) := by
  cases field with
  | none => exact h
  | some value => exact hSet value rfl auction h

/-- An edit keeps what the edit of each given column keeps. -/
theorem AuctionUpdate.edit_keeps {P : Auction → Prop} {data : AuctionUpdate} {auction : Auction}
    (h : P auction)
    (title : ∀ v ∈ data.title.join, ∀ a, P a → P { a with title := strip v.val })
    (description : ∀ v ∈ data.description.join, ∀ a, P a → P { a with description := strip v })
    (categoryId : ∀ v ∈ data.categoryId, ∀ a, P a → P { a with categoryId := v })
    (startingPrice : ∀ v ∈ data.startingPrice.join, ∀ a, P a →
      P { a with startingPrice := v.val, currentPrice := v.val })
    (binPrice : ∀ v ∈ data.binPrice, ∀ a, P a → P { a with binPrice := v.map (·.val) })
    (auctionType : ∀ v ∈ data.auctionType.join, ∀ a, P a → P { a with auctionType := v })
    (extendMinutes : ∀ v ∈ data.extendMinutes.join, ∀ a, P a →
      P { a with endTime := a.endTime + minutes v.val })
    (imageUrls : ∀ v ∈ data.imageUrls.join, ∀ a, P a → P { a with imageUrl := v.head? }) :
    P (data.edit auction) := by
  unfold AuctionUpdate.edit
  apply ifGiven_keeps _ imageUrls
  apply ifGiven_keeps _ extendMinutes
  apply ifGiven_keeps _ auctionType
  apply ifGiven_keeps _ binPrice
  apply ifGiven_keeps _ startingPrice
  apply ifGiven_keeps _ categoryId
  apply ifGiven_keeps _ description
  exact ifGiven_keeps h title

/-- On a fixed-price lot an edited price or type drags the prices along. -/
def AuctionUpdate.dragAlong (data : AuctionUpdate) (auction : Auction) : Auction :=
  match auction.auctionType, auction.binPrice with
  | .bin, some price =>
      if data.binPrice.isSome ∨ data.auctionType.isSome then
        { auction with startingPrice := price, currentPrice := price }
      else auction
  | _, _ => auction

def bidsCount (auctionId : LotId) : Prog market Nat := query fun d => (d.bidsOn auctionId).length

/-- `PATCH /auctions/{auction_id}`. -/
def updateAuction (userId : UserId) (auctionId : LotId) (data : AuctionUpdate) :
    Prog market Unit := do
  let _ ← getCurrentUser userId
  let auction ← Prog.orRaise (← selectAuctionForUpdate auctionId none) ⟨404, "Аукцион не найден"⟩
  Prog.raiseIf (auction.createdBy ≠ userId) ⟨403, "Это не ваш лот"⟩
  Prog.raiseIf (¬auction.isActive) ⟨400, "Лот уже завершён - редактирование недоступно"⟩
  let hasBids ← bidsCount auctionId
  Prog.raiseIf (hasBids ≠ 0 ∧ data.fields)
    ⟨400, "На лоте уже есть ставки - редактирование заблокировано"⟩
  checkCategory data.categoryId.join
  let changed := data.edit auction
  Prog.raiseIf (changed.auctionType = .bin ∧ changed.binPrice = none) binPriceRequired
  let changed := data.dragAlong changed
  Prog.raiseIf (changed.binPrice.any (· < changed.startingPrice))
    ⟨400, "Цена выкупа не может быть ниже стартовой цены"⟩
  let _ ← commit fun d =>
    let d := d.flushAuction auctionId auction changed
    match data.imageUrls.join with
    | some urls => d.replaceImages auctionId urls
    | none => d

/-- `DELETE /auctions/{auction_id}`. -/
def deleteAuction (userId : UserId) (auctionId : LotId) : Prog market Unit := do
  let _ ← getCurrentUser userId
  let auction ← Prog.orRaise (← selectAuctionForUpdate auctionId none) ⟨404, "Аукцион не найден"⟩
  Prog.raiseIf (auction.createdBy ≠ userId) ⟨403, "Это не ваш лот"⟩
  let count ← bidsCount auctionId
  Prog.raiseIf (0 < count) ⟨400, "Нельзя удалить лот, на который уже делали ставки"⟩
  Prog.raiseIf (auction.isCompleted) ⟨400, "Нельзя удалить завершённый лот"⟩
  let _ ← commit (Db.deleteAuction · auctionId)

/-- The session's users after a lot with bids is settled. -/
def settleBids (percent : CommissionPercent) (locked : UserId → Option User) (auction : Auction)
    (lastBid : Bid) : UnitOfWork :=
  let work : UnitOfWork := ⟨locked, []⟩
  let work := match locked lastBid.userId with
    | some winner => work.applyBalanceDelta winner.id (-lastBid.amount).toDecimal .bidWin
        s!"Победа в аукционе «{auction.title}»" (some auction.id)
    | none => work
  match locked auction.createdBy with
  | some creator =>
      creditSeller percent work creator.id lastBid.amount auction s!"Продажа лота «{auction.title}»"
  | none => work

/-- `complete_auction` in a session whose identity map may hold a copy of the
lot. The row lock is granted on the latest row, but that copy is what the
checks read and what the changes are relative to. -/
def completeAuction (percent : CommissionPercent) (auctionId : LotId)
    (identity : Option Auction) : Prog market Unit := do
  match ← selectAuctionForUpdate auctionId identity with
  | none => pure ()
  | some row =>
      let auction := identity.getD row
      if ¬auction.isActive then pure ()
      else
        let now ← utcnow
        if now < auction.endTime then pure ()
        else
          let closed := { auction with isActive := false, isCompleted := true }
          let settlement : Settlement := ⟨auctionId, row.endTime, now⟩
          match ← selectLastBid auctionId with
          | none =>
              let _ ← commit fun d =>
                (d.flushAuction auctionId auction closed).recordSettlement settlement
          | some lastBid =>
              let closed := { closed with winnerId := some lastBid.userId }
              let locked ← lockUsersById [lastBid.userId, auction.createdBy]
              let work := settleBids percent locked auction lastBid
              let _ ← commit fun d =>
                ((d.flushAuction auctionId auction closed).flushWork work).recordSettlement
                  settlement

/-- A tick: what `_wait_and_complete` does once it has slept. The unlocked
copy stays in the session that settles. -/
def waitAndComplete (percent : CommissionPercent) (auctionId : LotId) : Prog market Unit := do
  match ← query fun d => d.auctions.get auctionId with
  | none => pure ()
  | some auction =>
      if ¬auction.isActive then pure ()
      else if (← utcnow) < auction.endTime then pure ()
      else completeAuction percent auctionId (some auction)

inductive Request where
  | register
  | deposit (userId : UserId) (data : DepositRequest)
  | withdraw (userId : UserId) (data : WithdrawRequest)
  | createAuction (userId : UserId) (data : AuctionCreate)
  | updateAuction (userId : UserId) (auctionId : LotId) (data : AuctionUpdate)
  | deleteAuction (userId : UserId) (auctionId : LotId)
  | placeBid (userId : UserId) (bid : BidCreate)
  | buyNow (userId : UserId) (auctionId : LotId)
  | tick (auctionId : LotId)
  | completeAuction (auctionId : LotId)

def handle (percent : CommissionPercent) : Request → Prog market Unit
  | .register => register
  | .deposit userId data => do let _ ← deposit userId data
  | .withdraw userId data => do let _ ← withdraw userId data
  | .createAuction userId data => createAuction userId data
  | .updateAuction userId auctionId data => updateAuction userId auctionId data
  | .deleteAuction userId auctionId => deleteAuction userId auctionId
  | .placeBid userId bid => do let _ ← placeBid userId bid
  | .buyNow userId auctionId => buyNow percent userId auctionId
  | .tick auctionId => waitAndComplete percent auctionId
  | .completeAuction auctionId => completeAuction percent auctionId none

end OnlineAuction
