import OnlineAuction.Library.Failures
import OnlineAuction.Market.LockedCopies
import OnlineAuction.Market.Validation

/-! What `create_auction` and `update_auction` write, against the constraints and
the column lengths of the two tables they write to. -/

namespace OnlineAuction

open RowLocks

variable {percent : CommissionPercent}

def HTTPException.IsClientError (e : HTTPException) : Prop := 400 ≤ e.statusCode ∧ e.statusCode < 500

theorem raises_getCurrentUser (userId : UserId) :
    (getCurrentUser userId).Raises HTTPException.IsClientError := by
  apply Prog.Raises.bind
  · exact fun _ => trivial
  · exact fun user => Prog.raises_orRaise user ⟨by decide, by decide⟩

/-- The category check raises client errors alone. -/
theorem raises_checkCategory (categoryId : Option Nat) :
    (checkCategory categoryId).Raises HTTPException.IsClientError := by
  cases categoryId with
  | none => trivial
  | some category =>
      apply Prog.Raises.bind
      · exact fun _ => trivial
      · exact fun _ => Prog.raises_raiseIf _ ⟨by decide, by decide⟩

theorem raises_commit (write : Db → Db) : (commit write).Raises HTTPException.IsClientError :=
  fun _ => trivial

/-- Whatever `create_auction` raises by itself is a client error. -/
theorem createAuction_raises (userId : UserId) (data : AuctionCreate) :
    (createAuction userId data).Raises HTTPException.IsClientError := by
  apply (raises_getCurrentUser userId).bind
  intro _
  apply Prog.Raises.bind (show utcnow.Raises _ from fun _ => trivial)
  intro startTime
  apply (raises_checkCategory _).bind
  intro _
  apply (Prog.raises_raiseIf _ ⟨by decide, by decide⟩).bind
  intro _
  apply (raises_commit _).bind
  intro inserted
  dsimp only
  split_ifs
  · exact (raises_commit _).bind fun _ => trivial
  · trivial

/-- Whatever `update_auction` raises by itself is a client error. -/
theorem updateAuction_raises (userId : UserId) (auctionId : LotId) (data : AuctionUpdate) :
    (updateAuction userId auctionId data).Raises HTTPException.IsClientError := by
  apply (raises_getCurrentUser userId).bind
  intro _
  apply Prog.Raises.bind
    (show (selectAuctionForUpdate auctionId none).Raises _ from fun _ => trivial)
  intro row
  apply (Prog.raises_orRaise row ⟨by decide, by decide⟩).bind
  intro auction
  apply (Prog.raises_raiseIf _ ⟨by decide, by decide⟩).bind
  intro _
  apply (Prog.raises_raiseIf _ ⟨by decide, by decide⟩).bind
  intro _
  apply Prog.Raises.bind (show (bidsCount auctionId).Raises _ from fun _ => trivial)
  intro hasBids
  apply (Prog.raises_raiseIf _ ⟨by decide, by decide⟩).bind
  intro _
  apply (raises_checkCategory _).bind
  intro _
  apply (Prog.raises_raiseIf _ ⟨by decide, by decide⟩).bind
  intro _
  apply (Prog.raises_raiseIf _ ⟨by decide, by decide⟩).bind
  intro _
  exact (raises_commit _).bind fun _ => trivial

/-- A session of a request: the lot it has inserted and not illustrated yet, and
the row it has locked. -/
structure Lister where
  request : Request
  inserted : Option LotId
  copy : Option Auction

namespace Lister

def begin (request : Request) : Lister := ⟨request, none, none⟩

def lot (w : Lister) : Option LotId :=
  match w.request with
  | .updateAuction _ auctionId _ => some auctionId
  | _ => none

def copyOf (w : Lister) (id : LotId) : Option Auction := if w.lot = some id then w.copy else none

end Lister

/-- The two commits of a creation, and that of an edit. -/
def listing : Typestate market Lister where
  update w _ _ := w.lot = none
  commit w _ write := match w.request, w.inserted with
    | .createAuction userId data, none =>
        ¬(data.auctionType = .bin ∧ data.binPrice = none) ∧
          ∃ startTime, ∀ d, write d = d.addAuction (newAuction userId data startTime)
    | .createAuction _ data, some id =>
        ∀ d, write d = { d with images := d.images ++ data.gallery id }
    | .updateAuction _ auctionId data, _ =>
        ∃ copy changed, w.copy = some copy ∧ changed = data.dragAlong (data.edit copy) ∧
          ¬((data.edit copy).auctionType = .bin ∧ (data.edit copy).binPrice = none) ∧
          ¬changed.binPrice.any (· < changed.startingPrice) ∧
          ∀ d, write d = match data.imageUrls.join with
            | some urls => (d.flushAuction auctionId copy changed).replaceImages auctionId urls
            | none => d.flushAuction auctionId copy changed
    | _, _ => True
  after w
    | .locked (.lot id) d => if w.lot = some id then { w with copy := d.auctions.get id } else w
    | .committed _ d => match w.request, w.inserted with
        | .createAuction _ _, none => ⟨w.request, some (d.auctions.serial - 1), none⟩
        | _, _ => .begin w.request
    | .failed _ => .begin w.request
    | _ => w

theorem listing_request (w : Lister) (answer : Answer market) :
    (listing.after w answer).request = w.request := by
  cases answer with
  | locked key d =>
      cases key with
      | lot id => simp only [listing]; split <;> rfl
      | user => rfl
  | committed note d => simp only [listing]; split <;> rfl
  | _ => rfl

/-- `create_auction` writes one new row, made from its payload. -/
theorem createAuction_listing (userId : UserId) (data : AuctionCreate) :
    listing.Follows (createAuction userId data) (fun _ _ => True)
      (.begin (.createAuction userId data)) := by
  unfold createAuction
  rw [Typestate.follows_bind, follows_getCurrentUser]
  intro d user _
  rw [Typestate.follows_bind, follows_utcnow]
  intro startTime
  rw [Typestate.follows_bind]
  apply follows_checkCategory
  · exact fun _ => rfl
  rw [Typestate.follows_bind, Typestate.follows_raiseIf]
  intro hBin
  rw [Typestate.follows_bind, follows_commit]
  refine ⟨⟨hBin, startTime, fun _ => rfl⟩, fun inserted => ?_⟩
  dsimp only
  split_ifs
  · rw [Typestate.follows_bind, follows_commit]
    exact ⟨fun _ => rfl, fun _ => trivial⟩
  · trivial

/-- `update_auction` writes the row it locked, edited by its payload. -/
theorem updateAuction_listing (userId : UserId) (auctionId : LotId) (data : AuctionUpdate) :
    listing.Follows (updateAuction userId auctionId data) (fun _ _ => True)
      (.begin (.updateAuction userId auctionId data)) := by
  unfold updateAuction
  rw [Typestate.follows_bind, follows_getCurrentUser]
  intro d user _
  rw [Typestate.follows_bind, follows_lockAuction]
  refine ⟨trivial, fun d₁ => ?_⟩
  rw [Typestate.follows_bind, Typestate.follows_orRaise]
  intro copy hCopy
  have hLocked : listing.after (listing.after (.begin (.updateAuction userId auctionId data))
      (.read none d)) (.locked (.lot auctionId) d₁) =
        ⟨.updateAuction userId auctionId data, none, some copy⟩ := by
    simp [listing, Lister.begin, Lister.lot, hCopy]
  rw [hLocked]
  simp only [bidsCount, Typestate.follows_bind, Typestate.follows_raiseIf, follows_query]
  intro _ _ d₂ _
  apply follows_checkCategory
  · exact fun _ => rfl
  simp only [Typestate.follows_bind, Typestate.follows_raiseIf]
  intro hBin hPrice
  rw [follows_commit]
  refine ⟨?_, fun _ => trivial⟩
  exact ⟨copy, _, rfl, rfl, hBin, hPrice, fun _ => rfl⟩

/-- No handler strays from the outline of listing. -/
theorem handle_listing (request : Request) :
    listing.Follows (handle percent request) (fun _ _ => True) (.begin request) := by
  have hOther (hLot : (Lister.begin request).lot = none)
      (hCreate : ∀ userId data, request ≠ .createAuction userId data) :
      listing.Follows (handle percent request) (fun _ _ => True) (.begin request) := by
    apply Typestate.follows_of_closed listing (Q := fun w => w.request = request)
    · exact fun w answer hRequest => (listing_request w answer).trans hRequest
    · exact fun _ _ _ => trivial
    · intro w note write hRequest
      show w.lot = none
      rw [Lister.lot, hRequest]
      exact hLot
    · intro w note write hRequest
      simp only [listing]
      split
      next userId data hIs _ => exact absurd (hRequest.symm.trans hIs) (hCreate userId data)
      next userId data _ hIs _ => exact absurd (hRequest.symm.trans hIs) (hCreate userId data)
      next userId auctionId data hIs =>
        rw [← hRequest, Lister.lot] at hLot
        simp [Lister.begin, hIs] at hLot
      next => trivial
    · rfl
  cases request with
  | createAuction userId data => exact createAuction_listing userId data
  | updateAuction userId auctionId data => exact updateAuction_listing userId auctionId data
  | _ => exact hOther rfl fun _ _ h => by cases h

/-- The copy that an edit starts from is the row that was locked. -/
theorem listing_copies : KeepsCopies listing Lister.begin Lister.copyOf where
  start request id := ite_self none
  read _ _ _ _ _ h := h
  locked w key d id row h := by
    cases key with
    | user => exact .inl h
    | lot other =>
        by_cases hLot : w.lot = some other
        · by_cases hId : other = id
          · subst hId
            simp only [listing, if_pos hLot, Lister.copyOf] at h
            exact .inr ⟨rfl, (Option.ite_none_right_eq_some.mp h).2⟩
          · simp only [listing, if_pos hLot, Lister.copyOf] at h
            have hSame : w.lot = some id := (Option.ite_none_right_eq_some.mp h).1
            rw [hLot, Option.some.injEq] at hSame
            exact absurd hSame hId
        · simp only [listing, if_neg hLot] at h
          exact .inl h
  refused _ _ _ _ h := h
  clock _ _ _ _ h := h
  update w note write id row hMay := by
    have hNone : w.lot = none := hMay
    show w.copyOf id ≠ some row
    simp [Lister.copyOf, hNone]
  committed w note d id := by
    simp only [listing]
    split
    · exact ite_self none
    · exact ite_self none
  failed w note id := ite_self none

/-- A row on which no edit but that of the images can break a constraint, the
two price checks apart. -/
structure Editable (auction : Auction) : Prop where
  startingPrice : 0 < auction.startingPrice
  binPrice : ∀ price, auction.binPrice = some price → 0 < price
  title : auction.title.length ≤ 300

/-- A row that meets the constraints may be edited. -/
theorem Editable.of_admits {auction : Auction} (hAdmits : auction.admits = true)
    (hFits : auction.fits = true) : Editable auction := by
  simp only [Auction.admits, Auction.fits, Bool.and_eq_true, decide_eq_true_eq] at hAdmits hFits
  refine ⟨hAdmits.1, fun price hPrice => ?_, hFits.1.1⟩
  have hBin := hAdmits.2
  rw [hPrice] at hBin
  exact hAdmits.1.trans_le (of_decide_eq_true hBin)

theorem Editable.edit {auction : Auction} (h : Editable auction) (data : AuctionUpdate) :
    Editable (data.edit auction) := by
  apply AuctionUpdate.edit_keeps h
  case title =>
    exact fun title _ a h => { h with title := (strip_length_le title.val).trans title.property.2 }
  case startingPrice => exact fun price _ a h => { h with startingPrice := price.property.1 }
  case binPrice =>
    intro given _ a h
    refine { h with binPrice := fun price hPrice => ?_ }
    obtain ⟨value, _, rfl⟩ := Option.map_eq_some_iff.mp hPrice
    exact value.property.1
  all_goals exact fun _ _ _ h => { h with }

/-- Dragging the current price along keeps the prices positive. -/
theorem Editable.dragAlong {auction : Auction} (h : Editable auction) (data : AuctionUpdate) :
    Editable (data.dragAlong auction) := by
  unfold AuctionUpdate.dragAlong
  split
  next price _ hPrice =>
    split_ifs
    · exact { h with startingPrice := h.binPrice price hPrice }
    · exact h
  next => exact h

/-- What dragging the prices along leaves as it was. -/
theorem AuctionUpdate.dragAlong_kept (data : AuctionUpdate) (auction : Auction) :
    (data.dragAlong auction).id = auction.id ∧
      (data.dragAlong auction).auctionType = auction.auctionType ∧
      (data.dragAlong auction).binPrice = auction.binPrice ∧
      (data.dragAlong auction).imageUrl = auction.imageUrl := by
  unfold AuctionUpdate.dragAlong
  split
  · split_ifs <;> exact ⟨rfl, rfl, rfl, rfl⟩
  · exact ⟨rfl, rfl, rfl, rfl⟩

/-- An edit sets the image of the lot only along with its gallery. -/
theorem AuctionUpdate.edit_imageUrl (data : AuctionUpdate) (auction : Auction) :
    (data.edit auction).imageUrl = match data.imageUrls.join with
      | some urls => urls.head?
      | none => auction.imageUrl := by
  cases hUrls : data.imageUrls.join with
  | some urls => simp [AuctionUpdate.edit, hUrls, ifGiven]
  | none =>
      apply AuctionUpdate.edit_keeps (P := fun a => a.imageUrl = auction.imageUrl) rfl
      case imageUrls =>
        intro urls hGiven
        rw [hUrls] at hGiven
        cases hGiven
      all_goals exact fun _ _ _ h => h

theorem AuctionUpdate.edit_id (data : AuctionUpdate) (auction : Auction) :
    (data.edit auction).id = auction.id := by
  apply AuctionUpdate.edit_keeps (P := fun a => a.id = auction.id) rfl
  all_goals exact fun _ _ _ h => h

theorem AuctionType.value_length_le (auctionType : AuctionType) :
    auctionType.value.length ≤ 10 := by
  cases auctionType <;> decide

/-- A fixed price that is given is no lower than the price the lot starts at. -/
def AuctionCreate.PricesAgree (data : AuctionCreate) : Prop :=
  data.auctionType = .bid → ∀ price ∈ data.binPrice, data.startingPrice.val ≤ price.val

instance (data : AuctionCreate) : Decidable data.PricesAgree := by
  unfold AuctionCreate.PricesAgree
  infer_instance

/-- The row of a new lot, once the handler has asked for the price of a
fixed-price lot. -/
theorem newAuction_admits {userId : UserId} {data : AuctionCreate} (startTime : Time) (id : LotId)
    (hBin : ¬(data.auctionType = .bin ∧ data.binPrice = none)) :
    (newAuction userId data startTime id).admits = true ↔ data.PricesAgree := by
  have hPositive : 0 < (newAuction userId data startTime id).startingPrice :=
    data.seedPrice.property.1
  simp only [Auction.admits, hPositive, decide_true, Bool.true_and]
  cases hPrice : data.binPrice with
  | none =>
      have hBid : data.auctionType ≠ .bin := fun hType => hBin ⟨hType, hPrice⟩
      simp [newAuction, hPrice, hBid, AuctionCreate.PricesAgree]
  | some price =>
      by_cases hType : data.auctionType = .bin
      · simp [newAuction, hPrice, hType, AuctionCreate.seedPrice, AuctionCreate.PricesAgree]
      · have hBid : data.auctionType = .bid := by
          cases h : data.auctionType with
          | bid => rfl
          | bin => exact absurd h hType
        simp [newAuction, hPrice, hBid, AuctionCreate.seedPrice, AuctionCreate.PricesAgree]

/-- An accepted auction fits its columns when its address does. -/
theorem newAuction_fits {userId : UserId} {data : AuctionCreate} (startTime : Time) (id : LotId)
    (hUrl : ∀ url, data.imageUrl = some url → url.length ≤ 2000) :
    (newAuction userId data startTime id).fits = true := by
  simp only [Auction.fits, Bool.and_eq_true, decide_eq_true_eq, Option.all_eq_true]
  exact ⟨⟨data.title.property.2, fun url h => hUrl url h⟩, data.auctionType.value_length_le⟩

/-- The URLs of the gallery. Their length is not checked. -/
def AuctionCreate.UrlsFit (data : AuctionCreate) : Prop :=
  ∀ urls ∈ data.imageUrls, ∀ url ∈ urls, url.length ≤ 2000

/-- What the next commit of a creation needs: that of the lot, or of its images. -/
def AuctionCreate.NextFits (data : AuctionCreate) : Option LotId → Prop
  | none => data.PricesAgree
  | some _ => data.UrlsFit

/-- The image of the lot is among the gallery only when that is empty. -/
theorem gallery_fits {data : AuctionCreate} (id : LotId)
    (hUrl : ∀ url, data.imageUrl = some url → url.length ≤ 2000) :
    (∀ image ∈ data.gallery id, image.fits = true) ↔ data.UrlsFit := by
  have hAll : (∀ image ∈ data.gallery id, image.fits = true) ↔
      ∀ url ∈ data.allUrls, url.length ≤ 2000 := by
    simp only [AuctionCreate.gallery, AuctionImage.fits, decide_eq_true_eq, List.mem_mapIdx]
    constructor
    · intro h url hMem
      obtain ⟨i, hLt, rfl⟩ := List.getElem_of_mem hMem
      exact h _ ⟨i, hLt, rfl⟩
    · rintro h _ ⟨i, hLt, rfl⟩
      exact h _ (List.getElem_mem hLt)
  have hSingle : ∀ url ∈ (data.imageUrl.filter (· ≠ "")).toList, url.length ≤ 2000 := by
    intro url hMem
    obtain ⟨hSome, -⟩ := Option.filter_eq_some_iff.mp (Option.mem_toList.mp hMem)
    exact hUrl url hSome
  rw [hAll]
  unfold AuctionCreate.allUrls AuctionCreate.UrlsFit
  cases hUrls : data.imageUrls with
  | none => simpa using hSingle
  | some urls =>
      cases urls with
      | nil => simpa using hSingle
      | cons url rest => simp

/-- The URLs of an edit that replaces the gallery. Their length is not checked. -/
def AuctionUpdate.UrlsFit (data : AuctionUpdate) : Prop :=
  ∀ urls ∈ data.imageUrls.join, ∀ url ∈ urls, url.length ≤ 2000

/-- The row an edit leaves, once the handler has checked its prices. -/
theorem edited_admits {data : AuctionUpdate} {copy : Auction} (hAdmits : copy.admits = true)
    (hFits : copy.fits = true)
    (hBin : ¬((data.edit copy).auctionType = .bin ∧ (data.edit copy).binPrice = none))
    (hPrice : ¬(data.dragAlong (data.edit copy)).binPrice.any
      (· < (data.dragAlong (data.edit copy)).startingPrice)) :
    (data.dragAlong (data.edit copy)).admits = true := by
  have hPositive := (((Editable.of_admits hAdmits hFits).edit data).dragAlong data).startingPrice
  obtain ⟨-, hType, hBinPrice, -⟩ := data.dragAlong_kept (data.edit copy)
  simp only [Auction.admits, hPositive, decide_true, Bool.true_and]
  cases hGiven : (data.dragAlong (data.edit copy)).binPrice with
  | none =>
      apply decide_eq_true
      rw [hType]
      exact fun hIs => hBin ⟨hIs, hBinPrice ▸ hGiven⟩
  | some price => simpa [hGiven] using hPrice

/-- An edited auction fits its columns when the new addresses do. -/
theorem edited_fits {data : AuctionUpdate} {copy : Auction} (hAdmits : copy.admits = true)
    (hFits : copy.fits = true) (hUrls : data.UrlsFit) :
    (data.dragAlong (data.edit copy)).fits = true := by
  have hTitle := (((Editable.of_admits hAdmits hFits).edit data).dragAlong data).title
  obtain ⟨-, -, -, hImage⟩ := data.dragAlong_kept (data.edit copy)
  simp only [Auction.fits, hTitle, hImage, data.edit_imageUrl, Bool.and_eq_true, decide_eq_true_eq,
    Option.all_eq_true, true_and]
  refine ⟨?_, AuctionType.value_length_le _⟩
  intro url hUrl
  cases hGiven : data.imageUrls.join with
  | none =>
      simp only [Auction.fits, Bool.and_eq_true, decide_eq_true_eq, Option.all_eq_true] at hFits
      rw [hGiven] at hUrl
      exact hFits.1.2 url hUrl
  | some urls =>
      rw [hGiven] at hUrl
      exact hUrls urls hGiven url (List.mem_of_mem_head? hUrl)

/-- The marketplace with what its sessions know of the lots they write. -/
abbrev Listing := Config market × (Nat → Option Lister)

namespace Listing

def initial (categories : List Nat) : Listing := (.initial (Db.initial categories), fun _ => none)

def advance (percent : CommissionPercent) : Listing → Action market Request → Option Listing :=
  Runs.recording (RowLocks.advance (handle percent)) fun listers c a _ =>
    listing.track .begin listers c a

/-- The database refuses what breaks a constraint or exceeds a column length. -/
def Checked (percent : CommissionPercent) (s : Listing) (a : Action market Request) : Prop :=
  (RowLocks.advance (handle percent) s.1 a).all (fun c => c.db.lotsAdmit) = true

instance (percent : CommissionPercent) (s : Listing) (a : Action market Request) :
    Decidable (Checked percent s a) := by
  unfold Checked
  infer_instance

/-- The tables as the pending commit of the session would leave them. -/
def pending (s : Listing) (sid : Nat) : Option Db :=
  match s.1.sessions sid with
  | some (.commit _ write _) => some (write s.1.db)
  | _ => none

structure Underway (percent : CommissionPercent) (s : Listing) : Prop where
  tracked : Tracked percent listing Lister.request Lister.copyOf s
  admitted : s.1.db.lotsAdmit = true

theorem Underway.initial (percent : CommissionPercent) (categories : List Nat) :
    Underway percent (.initial categories) where
  tracked := tracked_initial _ _ _ _ _
  admitted := rfl

/-- Every step keeps the sessions underway and the tables within their
constraints. -/
theorem Underway.advance {s s' : Listing} {a : Action market Request} (h : Underway percent s)
    (moves : advance percent s a = some s') (meets : Checked percent s a) :
    Underway percent s' := by
  obtain ⟨c', hMoves, rfl⟩ := Option.map_eq_some_iff.mp moves
  obtain ⟨hTracked, _⟩ := h.tracked.advance listing_copies handle_listing (fun _ => rfl)
    listing_request hMoves
  refine ⟨hTracked, ?_⟩
  unfold Checked at meets
  rw [hMoves] at meets
  exact meets

theorem Underway.of_reaches {categories : List Nat} {s : Listing}
    (run : Runs.Reaches (Listing.advance percent) (Checked percent) (.initial categories) s) :
    Underway percent s :=
  run.invariant (.initial percent categories) fun _ h moves meets => h.advance moves meets

/-- A pending commit makes the write that its session may make. -/
theorem Underway.pending {s : Listing} (h : Underway percent s) {sid : Nat} {d : Db} {w : Lister}
    (hPending : s.pending sid = some d) (hState : s.2 sid = some w) :
    ∃ p note write, s.1.sessions sid = some p ∧ listing.commit w note write ∧ d = write s.1.db := by
  unfold Listing.pending at hPending
  split at hPending
  next note write next hSession =>
    obtain ⟨before, hBefore, hMay, _⟩ := h.tracked.within sid _ hSession
    obtain rfl : w = before := Option.some.inj (hState.symm.trans hBefore)
    exact ⟨_, note, write, hSession, hMay, (Option.some.inj hPending).symm⟩
  next => cases hPending

/-- A pending creation is admitted exactly when its prices agree. -/
theorem Underway.creates {s : Listing} (h : Underway percent s) {sid : Nat} {d : Db}
    {userId : UserId} {data raw : AuctionCreate} {inserted : Option LotId} {copy : Option Auction}
    (hPending : s.pending sid = some d)
    (hState : s.2 sid = some ⟨.createAuction userId data, inserted, copy⟩)
    (hAccepted : AuctionCreate.validate raw = some data) :
    d.lotsAdmit = true ↔ data.NextFits inserted := by
  obtain ⟨p, note, write, -, hMay, rfl⟩ := h.pending hPending hState
  have hUrl : ∀ url, data.imageUrl = some url → url.length ≤ 2000 :=
    fun url => imageUrl_length_le hAccepted
  cases inserted with
  | none =>
      obtain ⟨hBin, startTime, hWrite⟩ := hMay
      rw [hWrite, Db.lotsAdmit_addAuction h.admitted, newAuction_admits startTime _ hBin]
      exact and_iff_left (newAuction_fits startTime _ hUrl)
  | some id =>
      rw [show write s.1.db = _ from hMay s.1.db, Db.lotsAdmit_addImages h.admitted]
      exact gallery_fits id hUrl

/-- A pending edit is admitted exactly when its addresses fit. -/
theorem Underway.edits {s : Listing} (h : Underway percent s) {sid : Nat} {d : Db}
    {userId : UserId} {auctionId : LotId} {data : AuctionUpdate} {inserted : Option LotId}
    {copy : Option Auction} (hPending : s.pending sid = some d)
    (hState : s.2 sid = some ⟨.updateAuction userId auctionId data, inserted, copy⟩) :
    d.lotsAdmit = true ↔ data.UrlsFit := by
  obtain ⟨p, note, write, hSession, hMay, rfl⟩ := h.pending hPending hState
  obtain ⟨row, changed, hCopy, rfl, hBin, hPrice, hWrite⟩ := hMay
  have hRow : s.1.db.auctions.get auctionId = some row :=
    (h.tracked.copies sid p _ auctionId row hSession hState
      (by simpa [Lister.copyOf, Lister.lot] using hCopy)).2
  obtain ⟨hAdmits, hFits⟩ := (Db.lotsAdmit_iff.mp h.admitted).1 auctionId row hRow
  have hEdited (hUrls : data.UrlsFit) :
      (s.1.db.flushAuction auctionId row (data.dragAlong (data.edit row))).lotsAdmit = true := by
    apply (Db.lotsAdmit_flushAuction h.admitted hRow _).mpr
    · exact ⟨edited_admits hAdmits hFits hBin hPrice, edited_fits hAdmits hFits hUrls⟩
    · exact (data.dragAlong_kept _).1.trans (data.edit_id row)
  rw [hWrite]
  constructor
  · intro hAdmitted urls hGiven
    rw [hGiven] at hAdmitted
    exact Db.url_length_le auctionId hAdmitted
  · intro hUrls
    cases hGiven : data.imageUrls.join with
    | none => exact hEdited hUrls
    | some urls => exact Db.lotsAdmit_replaceImages auctionId (hEdited hUrls) (hUrls urls hGiven)

end Listing

/-- A creation or an edit that the schemas have accepted raises nothing but
client errors, short of a commit that fails. The constraints and the column
lengths admit its commit exactly when the URLs of the gallery fit their column
and, on a new lot of bids, a fixed price is no lower than the starting price. -/
theorem lot_writes_admitted (percent : CommissionPercent) (categories : List Nat) {s : Listing}
    (run : Runs.Reaches (Listing.advance percent) (Listing.Checked percent) (.initial categories) s)
    {sid : Nat} {w : Lister} {d : Db} (hState : s.2 sid = some w) (hAccepted : w.request.Accepted)
    (hPending : s.pending sid = some d) :
    match w.request with
    | .createAuction userId data =>
        (createAuction userId data).Raises HTTPException.IsClientError ∧
          (d.lotsAdmit = true ↔ data.NextFits w.inserted)
    | .updateAuction userId auctionId data =>
        (updateAuction userId auctionId data).Raises HTTPException.IsClientError ∧
          (d.lotsAdmit = true ↔ data.UrlsFit)
    | _ => True := by
  have hUnderway := Listing.Underway.of_reaches run
  obtain ⟨request, inserted, copy⟩ := w
  cases request with
  | createAuction userId data =>
      obtain ⟨raw, hRaw⟩ := hAccepted
      exact ⟨createAuction_raises userId data, hUnderway.creates hPending hState hRaw⟩
  | updateAuction userId auctionId data =>
      exact ⟨updateAuction_raises userId auctionId data, hUnderway.edits hPending hState⟩
  | _ => trivial

/-- User 0 lists a lot that has yet to be committed. -/
def aboutToList (data : AuctionCreate) : List (Action market Request) :=
  [.start 0 .register, .step 0, .start 1 (.createAuction 0 data), .step 1, .clock 1 0]

/-- For every accepted payload there is a run that is about to insert its row. -/
theorem exists_aboutToList (data : AuctionCreate) (admitted : Bool)
    (hServes : ((Runs.perform (Listing.advance defaultCommission)
      (Listing.Checked defaultCommission) (.initial []) (aboutToList data)).bind
        fun s => s.2 1) = some (.begin (.createAuction 0 data)))
    (hWrites : ((Runs.perform (Listing.advance defaultCommission)
      (Listing.Checked defaultCommission) (.initial []) (aboutToList data)).bind
        fun s => (s.pending 1).map Db.lotsAdmit) = some admitted) :
    ∃ s d, Runs.Reaches (Listing.advance defaultCommission) (Listing.Checked defaultCommission)
      (.initial []) s ∧ s.2 1 = some (.begin (.createAuction 0 data)) ∧ s.pending 1 = some d ∧
        d.lotsAdmit = admitted := by
  obtain ⟨s, hPerform, hState⟩ := Option.bind_eq_some_iff.mp hServes
  rw [hPerform, Option.bind_some, Option.map_eq_some_iff] at hWrites
  obtain ⟨d, hPending, hAdmitted⟩ := hWrites
  exact ⟨s, d, Runs.reaches_of_perform .init hPerform, hState, hPending, hAdmitted⟩

/-- The chair is admitted exactly when its prices agree. -/
theorem lot_writes_admitted_chair : ∃ (s : Listing) (d : Db),
    s.pending 1 = some d ∧ (d.lotsAdmit = true ↔ chair.PricesAgree) := by
  obtain ⟨s, d, run, hState, hPending, -⟩ := exists_aboutToList chair true rfl rfl
  have hAccepted : Request.Accepted (.createAuction 0 chair) := ⟨chair, rfl⟩
  exact ⟨s, d, hPending,
    (lot_writes_admitted defaultCommission [] run hState hAccepted hPending).2⟩

/-- A chair for bids from 100.00, to be had for 50.00. -/
def underpriced : AuctionCreate := { chair with binPrice := some ⟨5000, by decide⟩ }

/-- A payload that the schema accepts is refused by a constraint of the table. -/
theorem underpriced_refused : ¬∀ (percent : CommissionPercent) (categories : List Nat)
    (s : Listing) (sid : Nat) (userId : UserId) (data : AuctionCreate) (d : Db),
    Runs.Reaches (Listing.advance percent) (Listing.Checked percent) (.initial categories) s →
      s.2 sid = some (.begin (.createAuction userId data)) →
        Request.Accepted (.createAuction userId data) → s.pending sid = some d →
          d.lotsAdmit = true := by
  intro hAdmitted
  obtain ⟨s, d, run, hState, hPending, hRefused⟩ :=
    exists_aboutToList underpriced false rfl rfl
  have hAccepted : Request.Accepted (.createAuction 0 underpriced) := ⟨underpriced, rfl⟩
  have hHolds := hAdmitted defaultCommission [] s 1 0 underpriced d run hState hAccepted hPending
  rw [hRefused] at hHolds
  cases hHolds

end OnlineAuction
