import OnlineAuction.Market.WellFormed

/-! The validators of `app/schemas/auction.py` that the payload types leave
open, and the constraints and column lengths of `auctions` and
`auction_images`. -/

namespace OnlineAuction

/-- `value.startswith(heads)`. -/
def startsWith (value : String) (heads : List String) : Bool :=
  heads.any fun head => head.toList.isPrefixOf value.toList

/-- `_check_image_url`. -/
def checkImageUrl (value : String) : Except String String :=
  let value := strip value
  if value = "" then .error "URL must be a non-empty string"
  else if startsWith value ["http://", "https://"] then .ok value
  else if startsWith value ["/"] ∧ ¬startsWith value ["//"] then .ok value
  else .error "URL must be http(s):// or a /-relative path"

/-- `image_url`: the empty string passes as it is. -/
def checkedImageUrl : Option String → Option (Option String)
  | none => some none
  | some url =>
      if 2000 < url.length then none
      else if url = "" then some (some url)
      else (checkImageUrl url).toOption.map some

/-- `image_urls`: at most ten, each of any length. -/
def checkedImageUrls : Option (List String) → Option (Option (List String))
  | none => some none
  | some urls =>
      if 10 < urls.length then none
      else (urls.mapM fun url => (checkImageUrl url).toOption).map some

/-- The payload after validation, `none` when it is refused with a 422. -/
def AuctionCreate.validate (raw : AuctionCreate) : Option AuctionCreate := do
  guard (1 ≤ raw.description.length ∧ raw.description.length ≤ 20000)
  let imageUrl ← checkedImageUrl raw.imageUrl
  let imageUrls ← checkedImageUrls raw.imageUrls
  pure { raw with imageUrl := imageUrl, imageUrls := imageUrls }

def AuctionUpdate.validate (raw : AuctionUpdate) : Option AuctionUpdate := do
  guard (raw.description.join.all fun description => description.length ≤ 20000)
  let imageUrls ← checkedImageUrls raw.imageUrls.join
  pure { raw with imageUrls := raw.imageUrls.map fun _ => imageUrls }

def Request.Accepted : Request → Prop
  | .createAuction _ data => ∃ raw, AuctionCreate.validate raw = some data
  | .updateAuction _ _ data => ∃ raw, AuctionUpdate.validate raw = some data
  | _ => True

theorem strip_length_le (s : String) : (strip s).length ≤ s.length := by
  have hFront : (s.toList.dropWhile isSpace).length ≤ s.toList.length :=
    (List.dropWhile_sublist isSpace).length_le
  have hBack : ((s.toList.dropWhile isSpace).reverse.dropWhile isSpace).length ≤
      (s.toList.dropWhile isSpace).reverse.length :=
    (List.dropWhile_sublist isSpace).length_le
  rw [List.length_reverse] at hBack
  rw [String.length_toList] at hFront
  simp only [strip, String.length_ofList, List.length_reverse]
  exact hBack.trans hFront

/-- The checked address is no longer than the one that was sent. -/
theorem checkImageUrl_length_le {value url : String} (h : checkImageUrl value = .ok url) :
    url.length ≤ value.length := by
  have hUrl : strip value = url := by
    simp only [checkImageUrl] at h
    split_ifs at h
    · exact Except.ok.inj h
    · exact Except.ok.inj h
  rw [← hUrl]
  exact strip_length_le value

theorem checkedImageUrl_length_le {raw : Option String} {url : String}
    (h : checkedImageUrl raw = some (some url)) : url.length ≤ 2000 := by
  cases raw with
  | none => cases h
  | some value =>
      simp only [checkedImageUrl] at h
      split_ifs at h with hLong hEmpty
      · obtain rfl : value = url := by simpa using h
        omega
      · obtain ⟨checked, hChecked, hSame⟩ := Option.map_eq_some_iff.mp h
        obtain rfl := Option.some.inj hSame
        cases hResult : checkImageUrl value with
        | error message =>
            rw [hResult] at hChecked
            cases hChecked
        | ok result =>
            rw [hResult] at hChecked
            obtain rfl := Option.some.inj hChecked
            exact (checkImageUrl_length_le hResult).trans (by omega)

/-- The one URL whose length is checked stays within it. -/
theorem imageUrl_length_le {raw data : AuctionCreate} (h : AuctionCreate.validate raw = some data)
    {url : String} (hUrl : data.imageUrl = some url) : url.length ≤ 2000 := by
  obtain ⟨-, -, h⟩ := Option.bind_eq_some_iff.mp h
  obtain ⟨imageUrl, hImageUrl, h⟩ := Option.bind_eq_some_iff.mp h
  obtain ⟨imageUrls, -, h⟩ := Option.bind_eq_some_iff.mp h
  obtain rfl := Option.some.inj h
  obtain rfl : imageUrl = some url := hUrl
  exact checkedImageUrl_length_le hImageUrl

def AuctionType.value : AuctionType → String
  | .bid => "bid"
  | .bin => "bin"

/-- The `String(n)` columns of `auctions`. -/
def Auction.fits (a : Auction) : Bool :=
  decide (a.title.length ≤ 300) && a.imageUrl.all (fun url => decide (url.length ≤ 2000)) &&
    decide (a.auctionType.value.length ≤ 10)

/-- `auction_images.url` is a `String(2000)`. -/
def AuctionImage.fits (image : AuctionImage) : Bool := decide (image.url.length ≤ 2000)

namespace Db

/-- No row of the two tables exceeds the length of a column. -/
def fits (d : Db) : Bool :=
  ((List.range d.auctions.serial).all fun id => (d.auctions.get id).all Auction.fits) &&
    d.images.all AuctionImage.fits

/-- What the database checks of the two tables when they are written. -/
def lotsAdmit (d : Db) : Bool :=
  ((List.range d.auctions.serial).all fun id => (d.auctions.get id).all Auction.admits) && d.fits

/-- A check of the table is one of each of its rows. -/
theorem all_rows {d : Db} {p : Auction → Bool} :
    ((List.range d.auctions.serial).all fun id => (d.auctions.get id).all p) = true ↔
      ∀ id row, d.auctions.get id = some row → p row = true := by
  simp only [List.all_eq_true, List.mem_range, Option.all_eq_true]
  constructor
  · exact fun h id row hRow => h id (Table.lt_serial hRow) row hRow
  · exact fun h id _ row hRow => h id row hRow

/-- The constraints on lots and images, row by row. -/
theorem lotsAdmit_iff {d : Db} :
    d.lotsAdmit = true ↔
      (∀ id row, d.auctions.get id = some row → row.admits = true ∧ row.fits = true) ∧
        ∀ image ∈ d.images, image.fits = true := by
  simp only [lotsAdmit, fits, Bool.and_eq_true, all_rows]
  rw [List.all_eq_true]
  constructor
  · exact fun ⟨hAdmits, hFits, hImages⟩ =>
      ⟨fun id row hRow => ⟨hAdmits id row hRow, hFits id row hRow⟩, hImages⟩
  · exact fun ⟨hRows, hImages⟩ =>
      ⟨fun id row hRow => (hRows id row hRow).1, fun id row hRow => (hRows id row hRow).2, hImages⟩

variable {d : Db}

/-- Adding a lot to tables that meet the constraints is a matter of the new
row. -/
theorem lotsAdmit_addAuction (h : d.lotsAdmit = true) (row : LotId → Auction) :
    (d.addAuction row).lotsAdmit = true ↔
      (row d.auctions.serial).admits = true ∧ (row d.auctions.serial).fits = true := by
  rw [lotsAdmit_iff] at h ⊢
  constructor
  · intro hNew
    exact hNew.1 d.auctions.serial _ (by simp [addAuction])
  · intro hRow
    refine ⟨fun id stored hStored => ?_, h.2⟩
    rcases Table.of_get_add hStored with ⟨hId, rfl⟩ | hStored
    · exact hId ▸ hRow
    · exact h.1 id stored hStored

/-- Rewriting a lot from a copy is a matter of the changed row. -/
theorem lotsAdmit_flushAuction (h : d.lotsAdmit = true) {id : LotId} {copy : Auction}
    (hCopy : d.auctions.get id = some copy) {changed : Auction} (hId : changed.id = copy.id) :
    (d.flushAuction id copy changed).lotsAdmit = true ↔
      changed.admits = true ∧ changed.fits = true := by
  rw [flushAuction_eq hCopy, Auction.flush_loaded _ _ hId]
  rw [lotsAdmit_iff] at h ⊢
  constructor
  · intro hNew
    exact hNew.1 id _ (get_setAuction_self hCopy _)
  · intro hRow
    refine ⟨fun other stored hStored => ?_, h.2⟩
    by_cases hOther : other = id
    · subst hOther
      rw [get_setAuction_self hCopy] at hStored
      obtain rfl := Option.some.inj hStored
      exact hRow
    · rw [get_setAuction_other _ _ hOther] at hStored
      exact h.1 other stored hStored

theorem lotsAdmit_addImages (h : d.lotsAdmit = true) (images : List AuctionImage) :
    ({ d with images := d.images ++ images } : Db).lotsAdmit = true ↔
      ∀ image ∈ images, image.fits = true := by
  rw [lotsAdmit_iff] at h ⊢
  constructor
  · exact fun hNew image hMem => hNew.2 image (List.mem_append_right _ hMem)
  · intro hImages
    refine ⟨h.1, fun image hMem => ?_⟩
    rcases List.mem_append.mp hMem with hOld | hNew
    · exact h.2 image hOld
    · exact hImages image hNew

/-- After the images of a lot are replaced, its images are the new ones in
their order. -/
theorem mem_replaceImages {image : AuctionImage} {id : LotId} {urls : List String} :
    image ∈ (d.replaceImages id urls).images ↔
      image ∈ d.images ∧ image.auctionId ≠ id ∨
        ∃ i, urls[i]? = some image.url ∧ image = ⟨id, image.url, i⟩ := by
  simp only [replaceImages, List.mem_append, List.mem_filter, decide_eq_true_eq, List.mem_mapIdx]
  constructor
  · rintro (hOld | ⟨i, hLt, rfl⟩)
    · exact .inl hOld
    · exact .inr ⟨i, List.getElem?_eq_getElem hLt, rfl⟩
  · rintro (hOld | ⟨i, hUrl, hImage⟩)
    · exact .inl hOld
    · obtain ⟨hLt, hGet⟩ := List.getElem?_eq_some_iff.mp hUrl
      exact .inr ⟨i, hLt, by rw [hGet, ← hImage]⟩

/-- Images that meet the constraints have addresses that fit their column. -/
theorem url_length_le (id : LotId) {urls : List String}
    (h : (d.replaceImages id urls).lotsAdmit = true) : ∀ url ∈ urls, url.length ≤ 2000 := by
  intro url hMem
  obtain ⟨i, hUrl⟩ := List.getElem?_of_mem hMem
  exact of_decide_eq_true
    ((lotsAdmit_iff.mp h).2 ⟨id, url, i⟩ (mem_replaceImages.mpr (.inr ⟨i, hUrl, rfl⟩)))

/-- Images whose addresses fit may replace those of a lot. -/
theorem lotsAdmit_replaceImages (id : LotId) {urls : List String} (h : d.lotsAdmit = true)
    (hUrls : ∀ url ∈ urls, url.length ≤ 2000) : (d.replaceImages id urls).lotsAdmit = true := by
  rw [lotsAdmit_iff] at h ⊢
  refine ⟨h.1, fun image hMem => ?_⟩
  rcases mem_replaceImages.mp hMem with ⟨hOld, -⟩ | ⟨i, hUrl, -⟩
  · exact h.2 image hOld
  · exact decide_eq_true (hUrls _ (List.mem_of_getElem? hUrl))

end Db

end OnlineAuction
