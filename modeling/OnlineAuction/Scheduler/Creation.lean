import OnlineAuction.Library.Attempts
import OnlineAuction.Market.Validation
import OnlineAuction.Notifications.Dispatch
import OnlineAuction.Scheduler.Election

/-! `create_auction` from its first query to its answer. The lot is committed, its
timers are armed, its images are committed, its subscribers are told and it is read
back, and every one of these calls of the database may raise. -/

namespace OnlineAuction.Scheduler

open Attempts Notifications

/-- The calls of the handler in order; `rollback` is that of a failed fan-out. -/
inductive DatabaseCall where
  | category
  | insert
  | refresh
  | images
  | subscribers
  | notices
  | rollback
  | loaded
  deriving DecidableEq

/-- A call answers or raises. A commit that raises may have `landed`. -/
inductive Answer where
  | answers
  | raises
  | landed
  deriving DecidableEq

abbrev Faults := DatabaseCall → Answer

/-- The committed rows, the two stores of timers, and the session of the request:
the notifications it commits and whether the rows it holds have expired. -/
structure Backend where
  db : Db
  subscribers : UserId → List Recipient
  completion : Registry
  endingSoon : Registry
  notices : Session
  expired : Bool

abbrev Handler := Attempt Backend HTTPException

section

variable (faults : Faults)

def query {α : Type} (call : DatabaseCall) (read : Backend → α) : Handler α := do
  raiseIf (faults call ≠ .answers) internalServerError
  let b ← get
  pure (read b)

/-- A commit of lots or images, refused when a row breaks a constraint or exceeds a column. -/
def commitLots (call : DatabaseCall) (write : Db → Db) : Handler PUnit := do
  let b ← get
  raiseIf (faults call = .raises ∨ ¬(write b.db).lotsAdmit) internalServerError
  modify fun b => { b with db := write b.db }
  raiseIf (faults call = .landed) internalServerError

/-- `schedule_auction` at time `now`. -/
def Backend.scheduleAuction (auction : Auction) (now : Time) (b : Backend) : Backend :=
  { b with
    completion := b.completion.scheduleAuction none auction
    endingSoon := (Call.schedule auction).onEndingSoon now b.endingSoon }

def checkCategory (categoryId : Option Nat) : Handler PUnit :=
  match categoryId with
  | none => pure ⟨⟩
  | some category => do
      let categories ← query faults .category fun b => b.db.categories
      raiseIf (category ∉ categories) ⟨400, "Категория не найдена"⟩

/-- The rows of `auction_images` have a commit of their own. -/
def saveImages (data : AuctionCreate) (id : LotId) : Handler PUnit :=
  if data.allUrls = [] then pure ⟨⟩
  else commitLots faults .images fun d =>
    { d with images := d.images ++ data.allUrls.mapIdx fun i url => ⟨id, url, i⟩ }

variable (html : String → String → String → Option LotId → Option String → String)
  (user : Recipient)

/-- The payloads of `NEW_LOT`. -/
def newLotPayloads (auction : Auction) (subscribers : List Recipient) : List Payload :=
  subscribers.map fun subscriber =>
    ⟨subscriber, .newLot, "Новый лот", s!"@{user.username} выставил новый лот: «{auction.title}»"⟩

/-- `notify_many` with its one commit; the pushes come after it. -/
def notifySubscribers (auction : Auction) (payloads : List Payload) : Handler PUnit := do
  raiseIf (payloads ≠ [] ∧ faults .notices = .raises) internalServerError
  let manager := if faults .notices = .landed then none else some connectionManager
  modify fun b =>
    { b with
      notices := notifyMany html (some auction.id) (some auction.title) manager b.notices payloads }
  raiseIf (payloads ≠ [] ∧ faults .notices = .landed) internalServerError

/-- The fan-out is best-effort, but the rollback expires what the session holds. -/
def broadcastNewLot (auction : Auction) (subscribers : List Recipient) : Handler PUnit :=
  tryCatch (notifySubscribers faults html auction (newLotPayloads user auction subscribers))
    fun _ => do
      query faults .rollback fun _ => ()
      modify fun b => { b with expired := true }

/-- What follows the insert of the lot. `db_auction.id` of an expired row would need a
query outside of the greenlet. -/
def finishCreation (data : AuctionCreate) (id : LotId) (now : Time) : Handler PUnit := do
  let refreshed ← query faults .refresh fun b => b.db.auctions.get id
  let auction ← orRaise refreshed internalServerError
  modify (Backend.scheduleAuction auction now)
  saveImages faults data id
  let subscribers ← query faults .subscribers fun b => b.subscribers user.id
  broadcastNewLot faults html user auction subscribers
  let b ← get
  raiseIf (b.expired = true) internalServerError
  let loaded ← query faults .loaded fun b => b.db.auctions.get id
  let _ ← orRaise loaded internalServerError

/-- `create_auction`. -/
def createAuction (data : AuctionCreate) (startTime now : Time) : Handler PUnit := do
  checkCategory faults data.categoryId
  raiseIf (data.auctionType = .bin ∧ data.binPrice = none) binPriceRequired
  commitLots faults .insert fun d => d.addAuction (newAuction user.id data startTime)
  let b ← get
  finishCreation faults html user data (b.db.auctions.serial - 1) now

end

/-- A request comes upon rows that the database has admitted, and no task is of a lot
that is still to be created. -/
structure Backend.Ready (b : Backend) : Prop where
  admitted : b.db.lotsAdmit = true
  completion : ∀ task t, b.completion.tasks.get task = some t → t.auctionId < b.db.auctions.serial
  endingSoon : ∀ task t, b.endingSoon.tasks.get task = some t → t.auctionId < b.db.auctions.serial
  unexpired : b.expired = false

/-- Of the lot there is no row, and no task of either store is armed. -/
structure NothingLeft (id : LotId) (b : Backend) : Prop where
  absent : b.db.auctions.get id = none
  completion : ∀ task t, b.completion.tasks.get task = some t → t.auctionId = id → t.live = false
  endingSoon : ∀ task t, b.endingSoon.tasks.get task = some t → t.auctionId = id → t.live = false

/-- The lot and its images are committed. Its slot has a task due at its end, and no
other task of the lot is armed. -/
structure Created (data : AuctionCreate) (row : Auction) (before b : Backend) : Prop where
  stored : b.db.auctions.get row.id = some row
  images : b.db.images =
    before.db.images ++ data.allUrls.mapIdx fun i url => ⟨row.id, url, i⟩
  armed : ∃ task, b.completion.completionTasks row.id = some task ∧
    b.completion.tasks.get task = some ⟨row.id, row.endTime, .sleeping⟩ ∧
      ∀ other t, b.completion.tasks.get other = some t → t.auctionId = row.id → t.live = true →
        other = task

/-- The calls after the first commit answer, and the images fit their column. -/
structure Finishes (faults : Faults) (data : AuctionCreate) (subscribers : List Recipient) :
    Prop where
  refresh : faults .refresh = .answers
  images : data.allUrls ≠ [] →
    faults .images = .answers ∧ ∀ url ∈ data.allUrls, url.length ≤ 2000
  queried : faults .subscribers = .answers
  notices : subscribers ≠ [] → faults .notices = .answers
  loaded : faults .loaded = .answers

section

variable (faults : Faults) (html : String → String → String → Option LotId → Option String → String)
  (user : Recipient) (data : AuctionCreate) (startTime now : Time) (b : Backend)

def newRow : Auction := newAuction user.id data startTime b.db.auctions.serial

/-- The request ends with the lot created, or in an error and nothing left of it. -/
def AllOrNothing : Prop :=
  Ends (createAuction faults html user data startTime now)
    (fun _ b' => Created data (newRow user data startTime b) b b')
    (fun _ b' => NothingLeft b.db.auctions.serial b') b

/-- The handler gets as far as its first commit, and this takes effect. -/
structure Inserts : Prop where
  category : ∀ category, data.categoryId = some category →
    faults .category = .answers ∧ category ∈ b.db.categories
  price : ¬(data.auctionType = .bin ∧ data.binPrice = none)
  committed : faults .insert ≠ .raises
  admitted : (newRow user data startTime b).admits = true ∧ (newRow user data startTime b).fits = true

end

section

variable {faults : Faults} {b : Backend} {raised : HTTPException → Backend → Prop}

/-- A read answers or raises, and changes nothing. -/
@[simp] theorem ends_query {α : Type} {returned : α → Backend → Prop} (call : DatabaseCall)
    (read : Backend → α) : Ends (query faults call read) returned raised b ↔
      if faults call = .answers then returned (read b) b else raised internalServerError b := by
  simp [query, ite_not]

/-- A commit lands, fails, or lands and raises nevertheless. -/
@[simp] theorem ends_commitLots {returned : PUnit → Backend → Prop} (call : DatabaseCall)
    (write : Db → Db) : Ends (commitLots faults call write) returned raised b ↔
      if faults call = .raises ∨ ¬(write b.db).lotsAdmit then raised internalServerError b
      else if faults call = .landed then raised internalServerError { b with db := write b.db }
      else returned ⟨⟩ { b with db := write b.db } := by
  simp [commitLots]

variable {html : String → String → String → Option LotId → Option String → String}
  {user : Recipient} {data : AuctionCreate} {startTime now : Time}

def inserted (user : Recipient) (data : AuctionCreate) (startTime : Time) (b : Backend) : Backend :=
  { b with db := b.db.addAuction (newAuction user.id data startTime) }

/-- Short of the insert the request raises, and nothing has changed. -/
theorem ends_of_not_inserts (hReady : b.Ready)
    (h : ¬Inserts faults user data startTime b) :
    Ends (createAuction faults html user data startTime now) (fun _ _ => False)
      (fun _ b' => b' = b) b := by
  have hAdmit := Db.lotsAdmit_addAuction hReady.admitted (newAuction user.id data startTime)
  have hChecks : Ends (checkCategory faults data.categoryId)
      (fun _ b' => b' = b ∧ ∀ category, data.categoryId = some category →
        faults .category = .answers ∧ category ∈ b.db.categories)
      (fun _ b' => b' = b) b := by
    cases data.categoryId with
    | none => exact ⟨rfl, fun _ hIs => by cases hIs⟩
    | some category =>
        simp only [checkCategory, ends_bind, ends_query, ends_raiseIf]
        split_ifs with hAnswers hUnknown
        exact ⟨trivial, fun _ hIs => ⟨hAnswers, Option.some.inj hIs ▸ hUnknown⟩⟩
  rw [createAuction, ends_bind]
  apply hChecks.mono
  · rintro - _ ⟨rfl, hCategory⟩
    simp only [ends_bind, ends_raiseIf]
    split_ifs with hPrice
    rw [ends_commitLots, if_pos]
    by_contra hNot
    rw [not_or, not_not] at hNot
    exact h ⟨hCategory, hPrice, hNot.1, hAdmit.mp hNot.2⟩
  · exact fun _ _ hSame => hSame

/-- How a creation ends once its checks are passed. -/
theorem ends_of_inserts {returned : PUnit → Backend → Prop} (hReady : b.Ready)
    (h : Inserts faults user data startTime b) :
    Ends (createAuction faults html user data startTime now) returned raised b ↔
      if faults .insert = .landed then raised internalServerError (inserted user data startTime b)
      else Ends (finishCreation faults html user data b.db.auctions.serial now) returned raised
        (inserted user data startTime b) := by
  have hAdmit := (Db.lotsAdmit_addAuction hReady.admitted (newAuction user.id data startTime)).mpr
    h.admitted
  have hChecks {returned : PUnit → Backend → Prop} :
      Ends (checkCategory faults data.categoryId) returned raised b ↔ returned ⟨⟩ b := by
    cases hCategory : data.categoryId with
    | none => rfl
    | some category =>
        obtain ⟨hAnswers, hKnown⟩ := h.category category hCategory
        simp [checkCategory, hAnswers, hKnown]
  simp only [createAuction, ends_bind, ends_raiseIf, hChecks, ends_commitLots, ends_get]
  rw [if_neg h.price, if_neg (by simp [h.committed, hAdmit])]
  rfl

/-- Whatever raises after the insert, the lot stays. -/
theorem finishCreation_keeps (id : LotId) (lots : Table Auction) :
    Keeps (fun b => b.db.auctions = lots) (finishCreation faults html user data id now) := by
  have hQuery {α : Type} (call : DatabaseCall) (read : Backend → α) :
      Keeps (fun b => b.db.auctions = lots) (query faults call read) :=
    (keeps_raiseIf _ _).bind fun _ => keeps_get.bind fun _ => keeps_pure _
  have hImages : Keeps (fun b => b.db.auctions = lots) (saveImages faults data id) := by
    unfold saveImages
    split_ifs
    · exact keeps_pure _
    · apply keeps_get.bind fun _ => (keeps_raiseIf _ _).bind fun _ => ?_
      exact Keeps.bind (keeps_modify fun _ hSame => hSame) fun _ => keeps_raiseIf _ _
  have hBroadcast (auction : Auction) (subscribers : List Recipient) :
      Keeps (fun b => b.db.auctions = lots)
        (broadcastNewLot faults html user auction subscribers) := by
    apply Keeps.tryCatch
    · apply (keeps_raiseIf _ _).bind fun _ => ?_
      exact Keeps.bind (keeps_modify fun _ hSame => hSame) fun _ => keeps_raiseIf _ _
    · exact fun _ => (hQuery _ _).bind fun _ => keeps_modify fun _ hSame => hSame
  apply (hQuery _ _).bind fun _ => (keeps_orRaise _ _).bind fun _ => ?_
  apply Keeps.bind (keeps_modify ?_) fun _ => hImages.bind fun _ => ?_
  · exact fun _ hSame => hSame
  apply (hQuery _ _).bind fun _ => (hBroadcast _ _).bind fun _ => ?_
  apply keeps_get.bind fun _ => (keeps_raiseIf _ _).bind fun _ => ?_
  exact (hQuery _ _).bind fun _ => (keeps_orRaise _ _).bind fun _ => keeps_pure _

/-- The images are committed, or the request raises. -/
theorem saveImages_ends (id : LotId) (hAdmitted : b.db.lotsAdmit = true) :
    Ends (saveImages faults data id)
      (fun _ b' => (data.allUrls ≠ [] →
          faults .images = .answers ∧ ∀ url ∈ data.allUrls, url.length ≤ 2000) ∧
        b' = { b with db := { b.db with
          images := b.db.images ++ data.allUrls.mapIdx fun i url => ⟨id, url, i⟩ } })
      (fun _ _ => ¬(data.allUrls ≠ [] →
        faults .images = .answers ∧ ∀ url ∈ data.allUrls, url.length ≤ 2000)) b := by
  have hFit : (∀ image ∈ data.allUrls.mapIdx fun i url => (⟨id, url, i⟩ : AuctionImage),
      image.fits = true) ↔ ∀ url ∈ data.allUrls, url.length ≤ 2000 := by
    simp only [List.mem_mapIdx, AuctionImage.fits]
    constructor
    · intro h url hMem
      obtain ⟨i, hLt, rfl⟩ := List.getElem_of_mem hMem
      exact of_decide_eq_true (h _ ⟨i, hLt, rfl⟩)
    · rintro h _ ⟨i, hLt, rfl⟩
      exact decide_eq_true (h _ (List.getElem_mem hLt))
  have hAdmit := Db.lotsAdmit_addImages hAdmitted
    (data.allUrls.mapIdx fun i url => (⟨id, url, i⟩ : AuctionImage))
  unfold saveImages
  split_ifs with hNone
  · exact ⟨fun hSome => absurd hNone hSome, by simp [hNone]⟩
  · rw [ends_commitLots]
    split_ifs with hRefused hLanded
    · intro hSaved
      obtain ⟨hAnswers, hLengths⟩ := hSaved hNone
      rcases hRefused with hRaises | hNot
      · cases hAnswers.symm.trans hRaises
      · exact hNot (hAdmit.mpr (hFit.mpr hLengths))
    · intro hSaved
      cases (hSaved hNone).1.symm.trans hLanded
    · rw [not_or, not_not] at hRefused
      refine ⟨fun _ => ⟨?_, hFit.mp (hAdmit.mp hRefused.2)⟩, rfl⟩
      cases hAnswer : faults .images with
      | answers => rfl
      | raises => exact absurd hAnswer hRefused.1
      | landed => exact absurd hAnswer hLanded

/-- The batch raises when there is one and its commit does. -/
theorem notifySubscribers_ends (auction : Auction) (payloads : List Payload) :
    Ends (notifySubscribers faults html auction payloads)
      (fun _ b' => (payloads ≠ [] → faults .notices = .answers) ∧
        b' = { b with notices := b'.notices })
      (fun _ b' => ¬(payloads ≠ [] → faults .notices = .answers) ∧
        b' = { b with notices := b'.notices }) b := by
  rw [notifySubscribers, ends_bind, ends_raiseIf]
  by_cases hRaises : payloads ≠ [] ∧ faults .notices = .raises
  · rw [if_pos hRaises]
    refine ⟨fun h => ?_, rfl⟩
    cases hRaises.2.symm.trans (h hRaises.1)
  rw [if_neg hRaises]
  dsimp only
  rw [ends_bind, ends_modify, ends_raiseIf]
  by_cases hLanded : payloads ≠ [] ∧ faults .notices = .landed
  · rw [if_pos hLanded]
    refine ⟨fun h => ?_, rfl⟩
    cases hLanded.2.symm.trans (h hLanded.1)
  · rw [if_neg hLanded]
    refine ⟨fun hSome => ?_, rfl⟩
    cases hAnswer : faults .notices with
    | answers => rfl
    | raises => exact absurd ⟨hSome, hAnswer⟩ hRaises
    | landed => exact absurd ⟨hSome, hAnswer⟩ hLanded

/-- The fan-out is done, or what the session holds has expired. -/
theorem broadcastNewLot_ends (auction : Auction) (subscribers : List Recipient)
    (hUnexpired : b.expired = false) :
    Ends (broadcastNewLot faults html user auction subscribers)
      (fun _ b' => b'.db = b.db ∧ b'.completion = b.completion ∧
        (b'.expired = false ↔ (subscribers ≠ [] → faults .notices = .answers)))
      (fun _ _ => ¬(subscribers ≠ [] → faults .notices = .answers)) b := by
  have hSome : newLotPayloads user auction subscribers ≠ [] ↔ subscribers ≠ [] := by
    simp [newLotPayloads]
  rw [broadcastNewLot, ends_tryCatch]
  apply (notifySubscribers_ends auction (newLotPayloads user auction subscribers)).mono
  · rintro - b' ⟨hNotices, hSame⟩
    rw [hSame]
    rw [hSome] at hNotices
    exact ⟨rfl, rfl, fun _ => hNotices, fun _ => hUnexpired⟩
  · rintro - b' ⟨hNot, hSame⟩
    rw [hSome] at hNot
    simp only [ends_bind, ends_query, ends_modify]
    split_ifs with hRollback
    · rw [hSame]
      refine ⟨rfl, rfl, ?_⟩
      simpa using hNot
    · exact hNot

/-- The request returns when all its calls answer, and only then. -/
theorem finishCreation_ends {id : LotId} {row : Auction} (hRow : b.db.auctions.get id = some row)
    (hAdmitted : b.db.lotsAdmit = true) (hUnexpired : b.expired = false) :
    Ends (finishCreation faults html user data id now)
      (fun _ b' => Finishes faults data (b.subscribers user.id) ∧ b'.db.auctions = b.db.auctions ∧
        b'.db.images = b.db.images ++ (data.allUrls.mapIdx fun i url => ⟨id, url, i⟩) ∧
          b'.completion = b.completion.scheduleAuction none row)
      (fun _ _ => ¬Finishes faults data (b.subscribers user.id)) b := by
  rw [finishCreation, ends_bind, ends_query]
  split_ifs with hRefresh
  rotate_left
  · exact fun h => hRefresh h.refresh
  rw [hRow, ends_bind, ends_orRaise_some, ends_bind, ends_modify, ends_bind]
  apply (saveImages_ends id (by exact hAdmitted)).mono
  rotate_left
  · exact fun _ _ hNot h => hNot h.images
  rintro - _ ⟨hImages, rfl⟩
  rw [ends_bind, ends_query]
  split_ifs with hSubscribers
  rotate_left
  · exact fun h => hSubscribers h.queried
  rw [ends_bind]
  apply (broadcastNewLot_ends row _ (by exact hUnexpired)).mono
  rotate_left
  · exact fun _ _ hNot h => hNot h.notices
  rintro - b' ⟨hDb, hCompletion, hNotices⟩
  rw [ends_bind, ends_get, ends_bind, ends_raiseIf]
  split_ifs with hExpired
  · intro h
    rw [hNotices.mpr h.notices] at hExpired
    cases hExpired
  rw [Bool.not_eq_true] at hExpired
  rw [ends_bind, ends_query]
  split_ifs with hLoaded
  rotate_left
  · exact fun h => hLoaded h.loaded
  have hStored : b'.db.auctions.get id = some row := by
    rw [hDb]
    exact hRow
  rw [hStored, ends_bind, ends_orRaise_some]
  refine ⟨⟨hRefresh, hImages, hSubscribers, hNotices.mp hExpired, hLoaded⟩, ?_, ?_, hCompletion⟩
  · rw [hDb]
    rfl
  · rw [hDb]
    rfl

end

/-- Cancelling leaves every task with its lot. -/
theorem Registry.lot_cancelTask {r : Registry} {cancelled task : Nat} {t' : CompletionTask}
    (h : (r.cancelTask cancelled).tasks.get task = some t') :
    ∃ t, r.tasks.get task = some t ∧ t'.auctionId = t.auctionId := by
  obtain ⟨t, hTask⟩ : ∃ t, r.tasks.get task = some t := by
    rw [← Option.isSome_iff_exists, ← cancelTask_isSome r cancelled, h]
    rfl
  obtain ⟨found, hFound, hLot, -⟩ := cancelTask_kept cancelled hTask
  rw [h, Option.some.injEq] at hFound
  exact ⟨t, hTask, hFound ▸ hLot⟩

theorem Registry.lot_cancelAuction {r : Registry} {auctionId : LotId} {task : Nat}
    {t' : CompletionTask} (h : (r.cancelAuction auctionId).tasks.get task = some t') :
    ∃ t, r.tasks.get task = some t ∧ t'.auctionId = t.auctionId := by
  unfold cancelAuction at h
  split at h
  · exact ⟨t', h, rfl⟩
  · exact lot_cancelTask h

/-- The new task of a lot that had none is the only one. -/
theorem Registry.scheduleAuction_alone {r : Registry} {auction : Auction}
    (hActive : auction.isActive = true)
    (hNew : ∀ task t, r.tasks.get task = some t → t.auctionId ≠ auction.id) :
    ∃ task, (r.scheduleAuction none auction).completionTasks auction.id = some task ∧
      (r.scheduleAuction none auction).tasks.get task =
          some ⟨auction.id, auction.endTime, .sleeping⟩ ∧
        ∀ other t, (r.scheduleAuction none auction).tasks.get other = some t →
          t.auctionId = auction.id → other = task := by
  obtain ⟨middle, hMiddle, hArmed⟩ :=
    (r.cancelAuction auction.id).armCompletionTask_eq none auction.id auction.endTime
  have hLot {task : Nat} {t' : CompletionTask} (hTask : middle.tasks.get task = some t') :
      ∃ t, r.tasks.get task = some t ∧ t'.auctionId = t.auctionId := by
    rcases hMiddle with rfl | ⟨existing, -, rfl⟩
    · exact lot_cancelAuction hTask
    · obtain ⟨t, hEarlier, hSame⟩ := lot_cancelTask hTask
      obtain ⟨first, hFirst, hSame'⟩ := lot_cancelAuction hEarlier
      exact ⟨first, hFirst, hSame.trans hSame'⟩
  have hSerial : middle.tasks.serial = (r.cancelAuction auction.id).tasks.serial := by
    rcases hMiddle with rfl | ⟨existing, -, rfl⟩
    · rfl
    · rfl
  unfold scheduleAuction
  dsimp only
  rw [if_pos hActive, hArmed]
  refine ⟨middle.tasks.serial, ?_, by simp, fun other t hTask hMine => ?_⟩
  · rw [hSerial]
    exact Function.update_self _ _ _
  · by_contra hOther
    rw [Table.get_add, if_neg hOther] at hTask
    obtain ⟨first, hFirst, hSame⟩ := hLot hTask
    exact hNew other first hFirst (hSame.symm.trans hMine)

section

variable (faults : Faults) (html : String → String → String → Option LotId → Option String → String)
  (user : Recipient) (data : AuctionCreate) (startTime now : Time) {b : Backend}

/-- A creation is all or nothing exactly when no call raises once the lot is in. -/
theorem creation_all_or_nothing_iff (hReady : b.Ready) :
    AllOrNothing faults html user data startTime now b ↔
      (Inserts faults user data startTime b →
        faults .insert = .answers ∧ Finishes faults data (b.subscribers user.id)) := by
  have hActive : (newRow user data startTime b).isActive = true := rfl
  by_cases hInserts : Inserts faults user data startTime b
  · have hRow : (inserted user data startTime b).db.auctions.get b.db.auctions.serial =
        some (newRow user data startTime b) := by simp [inserted, Db.addAuction, newRow]
    have hAdmitted : (inserted user data startTime b).db.lotsAdmit = true :=
      (Db.lotsAdmit_addAuction hReady.admitted _).mpr hInserts.admitted
    rw [AllOrNothing, ends_of_inserts hReady hInserts]
    split_ifs with hLanded
    · constructor
      · intro hNothing
        cases hNothing.absent.symm.trans hRow
      · intro h
        cases (h hInserts).1.symm.trans hLanded
    · have hInsert : faults .insert = .answers := by
        cases hAnswer : faults .insert with
        | answers => rfl
        | raises => exact absurd hAnswer hInserts.committed
        | landed => exact absurd hAnswer hLanded
      have hEnds := @finishCreation_ends faults _ html user data now _ _ hRow
        hAdmitted hReady.unexpired
      have hKept := @finishCreation_keeps faults html user data now b.db.auctions.serial _
        (inserted user data startTime b) rfl
      constructor
      · intro h _
        apply ((h.and hEnds).and hKept).elim
        · rintro _ _ ⟨⟨-, hFinishes, -⟩, -⟩
          exact ⟨hInsert, hFinishes⟩
        · rintro _ b' ⟨⟨hNothing, -⟩, hSame⟩
          have hAbsent := hNothing.absent
          rw [hSame, hRow] at hAbsent
          cases hAbsent
      · intro h
        apply hEnds.mono
        · rintro - b' ⟨-, hLots, hImages, hCompletion⟩
          refine ⟨by rw [hLots]; exact hRow, hImages, ?_⟩
          rw [hCompletion]
          have hNew (task : Nat) (t : CompletionTask) (hTask : b.completion.tasks.get task = some t) :
              t.auctionId ≠ (newRow user data startTime b).id :=
            (hReady.completion task t hTask).ne
          obtain ⟨task, hSlot, hTask, hAlone⟩ := Registry.scheduleAuction_alone hActive hNew
          exact ⟨task, hSlot, hTask, fun other t hOther hMine _ => hAlone other t hOther hMine⟩
        · exact fun _ _ hNot => absurd (h hInserts).2 hNot
  · have hEnds := @ends_of_not_inserts faults b html user data startTime now hReady hInserts
    refine ⟨fun _ h => absurd h hInserts, fun _ => ?_⟩
    apply hEnds.mono
    · exact fun _ _ hFalse => hFalse.elim
    · rintro _ _ rfl
      refine ⟨Table.unused _ _ le_rfl, fun task t hTask hMine => ?_, fun task t hTask hMine => ?_⟩
      · exact absurd hMine (hReady.completion task t hTask).ne
      · exact absurd hMine (hReady.endingSoon task t hTask).ne

end

def pictured : AuctionCreate := { chair with imageUrls := some ["/chair.png"] }

def seller : Recipient := ⟨0, "seller", "seller@shop.ru", true, true, true, true, true, true, true⟩

def plainHtml (_ _ message : String) (_ : Option LotId) (_ : Option String) : String := message

def emptyBackend : Backend where
  db := .initial []
  subscribers := fun _ => [⟨1, "buyer", "buyer@shop.ru", true, true, true, true, true, true, true⟩]
  completion := .empty
  endingSoon := .empty
  notices := ⟨[], [], [], [], [], fun n => (n, 0), 0⟩
  expired := false

theorem emptyBackend_ready : emptyBackend.Ready where
  admitted := by decide
  completion _ _ hTask := by cases hTask
  endingSoon _ _ hTask := by cases hTask
  unexpired := rfl

/-- The chair is created whole when every call answers. -/
theorem creation_all_or_nothing_chair :
    AllOrNothing (fun _ => .answers) plainHtml seller pictured 0 0 emptyBackend := by
  apply (creation_all_or_nothing_iff _ _ _ _ _ _ emptyBackend_ready).mpr
  exact fun _ => ⟨rfl, rfl, fun _ => ⟨rfl, by decide⟩, rfl, fun _ => rfl, rfl⟩

/-- The commit of the images raises: the seller is told that it failed, and the lot is up. -/
theorem images_raise_lot_left :
    ¬AllOrNothing (fun call => if call = .images then .raises else .answers) plainHtml seller
      pictured 0 0 emptyBackend := by
  intro h
  have hNothing : NothingLeft 0 _ := h
  cases hNothing.absent

end OnlineAuction.Scheduler
