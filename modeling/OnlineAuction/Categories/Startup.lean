import Mathlib.Data.List.Nodup
import OnlineAuction.Categories.Seeding
import OnlineAuction.Library.OptimisticCommits

/-! Workers that seed the categories as they start, any number of them at a time and
each possibly cut short. A call raises exactly when it commits to a table that it has
not seen, and as long as none does, a call that returns leaves every category there. -/

namespace OnlineAuction.Categories

open RowLocks

def listed : List (Entry × Option String) :=
  parents.map (fun p => (p, none)) ++
    subsMap.flatMap fun (parentSlug, children) => children.map fun child => (child, some parentSlug)

variable {numbering : Numbering}

/-- A row is the first with its number or slug where these are distinct. -/
theorem find?_of_nodup_map {β : Type} [DecidableEq β] {f : Category → β} {rows : List Category}
    (hNodup : (rows.map f).Nodup) {c : Category} (hC : c ∈ rows) :
    (rows.find? fun row => f row = f c) = some c := by
  cases hFound : rows.find? fun row => f row = f c with
  | none => exact absurd (decide_eq_true rfl) (List.find?_eq_none.mp hFound c hC)
  | some found =>
      have hSame : f found = f c := by simpa using List.find?_some hFound
      rw [List.inj_on_of_nodup_map hNodup (List.mem_of_find?_eq_some hFound) hC hSame]

/-- Among distinct slugs a slug has the number of its row. -/
theorem idsBySlug_of_nodup {rows : List Category} (hNodup : (rows.map Category.slug).Nodup)
    {c : Category} (hC : c ∈ rows) : idsBySlug rows c.slug = some c.id := by
  have hReversed : (rows.reverse.map Category.slug).Nodup := by
    rwa [List.map_reverse, List.nodup_reverse]
  rw [idsBySlug, find?_of_nodup_map hReversed (List.mem_reverse.mpr hC)]
  rfl

namespace CategoryTable

/-- What is listed for a row, whose parent is looked up by its number. -/
def listedAs (rows : List Category) (c : Category) : Entry × Option String :=
  (⟨c.name, c.slug, c.icon⟩,
    c.parentId.bind fun id => (rows.find? fun parent => parent.id = id).map Category.slug)

def shown (d : CategoryTable numbering) : List (Entry × Option String) :=
  d.rows.map (listedAs d.rows)

def Complete (d : CategoryTable numbering) : Prop := ∀ entry ∈ listed, d.shown.count entry = 1

theorem shown_names (d : CategoryTable numbering) :
    d.shown.map (fun entry => entry.1.name) = d.rows.map Category.name := by
  simp [shown, listedAs, Function.comp_def]

theorem shown_slugs (d : CategoryTable numbering) :
    d.shown.map (fun entry => entry.1.slug) = d.rows.map Category.slug := by
  simp [shown, listedAs, Function.comp_def]

/-- The new rows, in what does not depend on their numbers. -/
theorem map_addAll {β : Type} {f : Category → β} {g : NewCategory → β}
    (d : CategoryTable numbering) (news : List NewCategory)
    (h : ∀ new ∈ news, ∀ id, f (new.stored id) = g new) :
    (d.addAll news).rows.map f = d.rows.map f ++ news.map g := by
  rw [addAll, List.map_append, List.append_cancel_left_eq]
  apply List.ext_getElem (by simp)
  intro i hi hi'
  simpa using h _ (List.getElem_mem _) _

theorem slugs_addAll (d : CategoryTable numbering) (news : List NewCategory) :
    (d.addAll news).rows.map Category.slug = d.rows.map Category.slug ++ news.map NewCategory.slug :=
  d.map_addAll news fun _ _ _ => rfl

/-- A row of the table after an insert was there before or is new. -/
theorem mem_addAll {d : CategoryTable numbering} {news : List NewCategory} {c : Category}
    (hC : c ∈ (d.addAll news).rows) : c ∈ d.rows ∨ ∃ new ∈ news, ∃ id, c = new.stored id := by
  rcases List.mem_append.mp hC with hOld | hNew
  · exact .inl hOld
  · obtain ⟨i, hi, rfl⟩ := List.mem_mapIdx.mp hNew
    exact .inr ⟨news[i], List.getElem_mem hi, _, rfl⟩

/-- The rows bear the first numbers of the sequence that are used. -/
def Numbered (d : CategoryTable numbering) : Prop :=
  d.rows.map Category.id = (List.range d.rows.length).map numbering.number

theorem Numbered.addAll {d : CategoryTable numbering} (h : Numbered d) (news : List NewCategory) :
    Numbered (d.addAll news) := by
  unfold Numbered at h ⊢
  rw [CategoryTable.addAll, List.map_append, List.length_append, List.range_add, List.map_append, h,
    List.append_cancel_left_eq]
  apply List.ext_getElem (by simp)
  intro i hi hi'
  simp [NewCategory.stored]

theorem Numbered.ids_nodup {d : CategoryTable numbering} (h : Numbered d) :
    (d.rows.map Category.id).Nodup := by
  rw [h]
  exact List.nodup_range.map numbering.increasing.injective

theorem Numbered.id_pos {d : CategoryTable numbering} (h : Numbered d) {c : Category}
    (hC : c ∈ d.rows) : 0 < c.id := by
  have hId : c.id ∈ d.rows.map Category.id := List.mem_map_of_mem hC
  rw [h] at hId
  obtain ⟨n, _, hN⟩ := List.mem_map.mp hId
  exact hN ▸ numbering.positive n

/-- A slug that is taken is not admitted again. -/
theorem admits_addAll_of_taken {d : CategoryTable numbering} {news : List NewCategory}
    {new : NewCategory} (hNew : new ∈ news) (hTaken : new.slug ∈ d.rows.map Category.slug) :
    (d.addAll news).admits = false := by
  have hTwice : ¬((d.addAll news).rows.map Category.slug).Nodup := by
    intro hNodup
    rw [slugs_addAll] at hNodup
    exact (List.nodup_append.mp hNodup).2.2 _ hTaken _ (List.mem_map_of_mem hNew) rfl
  simp [admits, hTwice]

end CategoryTable

open CategoryTable

theorem names_nodup : (listed.map fun entry => entry.1.name).Nodup := by decide +kernel

theorem slugs_nodup : (listed.map fun entry => entry.1.slug).Nodup := by decide +kernel

/-- Every listed subcategory has its slug in the list. -/
theorem slug_mem_listed {parentSlug : String} {children : List Entry} {child : Entry}
    (hChildren : (parentSlug, children) ∈ subsMap) (hChild : child ∈ children) :
    child.slug ∈ listed.map fun entry => entry.1.slug := by
  apply List.mem_map.mpr
  refine ⟨(child, some parentSlug), ?_, rfl⟩
  apply List.mem_append_right
  exact List.mem_flatMap.mpr ⟨_, hChildren, List.mem_map_of_mem hChild⟩

/-- No child has the slug of a parent. -/
theorem slug_not_mem_parents {parentSlug : String} {children : List Entry} {child : Entry}
    (hChildren : (parentSlug, children) ∈ subsMap) (hChild : child ∈ children) :
    child.slug ∉ parents.map Entry.slug := by
  intro hMem
  have hNodup := slugs_nodup
  rw [listed, List.map_append, List.map_map] at hNodup
  apply (List.nodup_append.mp hNodup).2.2 _ hMem _ ?_ rfl
  apply List.mem_map.mpr
  refine ⟨(child, some parentSlug), ?_, rfl⟩
  exact List.mem_flatMap.mpr ⟨_, hChildren, List.mem_map_of_mem hChild⟩

/-- Where no child exists, none is filtered out. -/
theorem buildNewSubs_of_absent {parentMap : String → Option Nat} {existingSlugs : List String}
    (h : ∀ entry ∈ subsMap, ∀ child ∈ entry.2, child.slug ∉ existingSlugs) :
    buildNewSubs parentMap existingSlugs = buildNewSubs parentMap [] := by
  apply List.flatMap_congr
  intro ⟨parentSlug, children⟩ hEntry
  have hFilter : (children.filter fun child => child.slug ∉ existingSlugs) =
      children.filter fun child => child.slug ∉ [] :=
    List.filter_congr fun child hChild => by simp [h _ hEntry child hChild]
  simp only [hFilter]

/-- Where all children exist, none is left. -/
theorem buildNewSubs_of_present {parentMap : String → Option Nat} {existingSlugs : List String}
    (h : ∀ entry ∈ subsMap, ∀ child ∈ entry.2, child.slug ∈ existingSlugs) :
    buildNewSubs parentMap existingSlugs = [] := by
  apply List.flatMap_eq_nil_iff.mpr
  intro ⟨parentSlug, children⟩ hEntry
  have hFilter : (children.filter fun child => child.slug ∉ existingSlugs) = [] :=
    List.filter_eq_nil_iff.mpr fun child hChild => by simp [h _ hEntry child hChild]
  simp only [hFilter, List.map_nil]
  split <;> rfl

/-- How far the table has come: the two commits of a fresh install, or the one
that tops up what an interrupted install has left. -/
inductive Stage where
  | unseeded
  | parentsOnly
  | seeded
  deriving DecidableEq

namespace Stage

def rank : Stage → Nat
  | .unseeded => 0
  | .parentsOnly => 1
  | .seeded => 2

instance : Preorder Stage := Preorder.lift rank

def newParents : List NewCategory := parents.map fun p => ⟨p.name, p.slug, p.icon, none⟩

variable (numbering) in
def withParents : CategoryTable numbering := empty.addAll newParents

variable (numbering) in
/-- The rows of the commit after it, under the numbers that the parents have got. -/
def newSubs : List NewCategory := buildNewSubs (idsBySlug (withParents numbering).rows) []

variable (numbering) in
def table : Stage → CategoryTable numbering
  | .unseeded => empty
  | .parentsOnly => withParents numbering
  | .seeded => (withParents numbering).addAll (newSubs numbering)

theorem numbered_table (i : Stage) : Numbered (table numbering i) := by
  have hEmpty : Numbered (empty : CategoryTable numbering) := rfl
  have hParents : Numbered (withParents numbering) := hEmpty.addAll newParents
  cases i with
  | unseeded => rfl
  | parentsOnly => exact hParents
  | seeded => exact hParents.addAll _

/-- The first insert writes the parents in their order. -/
theorem slugs_withParents :
    (withParents numbering).rows.map Category.slug = parents.map Entry.slug := by
  rw [withParents, slugs_addAll, newParents, List.map_map]
  rfl

theorem slugs_withParents_nodup : ((withParents numbering).rows.map Category.slug).Nodup := by
  rw [slugs_withParents]
  decide +kernel

theorem parentId_withParents {c : Category} (hC : c ∈ (withParents numbering).rows) :
    c.parentId = none := by
  rcases mem_addAll hC with hNone | ⟨new, hNew, id, rfl⟩
  · cases hNone
  · obtain ⟨p, _, rfl⟩ := List.mem_map.mp hNew
    rfl

variable (numbering) in
/-- Each key of `_SUBS_MAP` is the slug of a parent, which `parent_map` gives. -/
theorem parent_of_key {parentSlug : String} {children : List Entry}
    (hEntry : (parentSlug, children) ∈ subsMap) :
    ∃ p ∈ (withParents numbering).rows, p.slug = parentSlug ∧
      idsBySlug (withParents numbering).rows parentSlug = some p.id ∧ 0 < p.id := by
  have hKeys : ∀ entry ∈ subsMap, entry.1 ∈ parents.map Entry.slug := by decide +kernel
  have hSlug := hKeys _ hEntry
  rw [← @slugs_withParents numbering] at hSlug
  obtain ⟨p, hP, rfl⟩ := List.mem_map.mp hSlug
  exact ⟨p, hP, rfl, idsBySlug_of_nodup slugs_withParents_nodup hP,
    (numbered_table .parentsOnly).id_pos hP⟩

/-- The second insert gives each subcategory the number of its parent. -/
theorem newSubs_eq : newSubs numbering = subsMap.flatMap fun (parentSlug, children) =>
    children.map fun child =>
      ⟨child.name, child.slug, child.icon, idsBySlug (withParents numbering).rows parentSlug⟩ := by
  apply List.flatMap_congr
  intro ⟨parentSlug, children⟩ hEntry
  obtain ⟨p, _, _, hMap, hPos⟩ := parent_of_key numbering hEntry
  obtain ⟨n, hN⟩ := Nat.exists_eq_succ_of_ne_zero hPos.ne'
  simp only [hMap, hN]
  simp

theorem slugs_newSubs : (newSubs numbering).map NewCategory.slug =
    subsMap.flatMap fun entry => entry.2.map Entry.slug := by
  rw [newSubs_eq, List.map_flatMap]
  apply List.flatMap_congr
  intro entry _
  simp [Function.comp_def]

theorem newSubs_ne_nil : newSubs numbering ≠ [] := by
  intro hNone
  have hSlugs := @slugs_newSubs numbering
  rw [hNone] at hSlugs
  revert hSlugs
  decide +kernel

/-- The number of each child's parent is that of a stored one. -/
theorem parent_of_newSub {new : NewCategory} (hNew : new ∈ newSubs numbering) :
    ∃ p ∈ (withParents numbering).rows, new.parentId = some p.id := by
  rw [newSubs_eq] at hNew
  obtain ⟨⟨parentSlug, children⟩, hEntry, hChild⟩ := List.mem_flatMap.mp hNew
  obtain ⟨child, _, rfl⟩ := List.mem_map.mp hChild
  obtain ⟨p, hP, _, hMap, _⟩ := parent_of_key numbering hEntry
  exact ⟨p, hP, hMap⟩

/-- The parents are still there once all is seeded. -/
theorem mem_seeded {c : Category} (hC : c ∈ (withParents numbering).rows) :
    c ∈ (table numbering .seeded).rows := List.mem_append_left _ hC

/-- Every row is a parent, or bears the number of one. -/
theorem parent_of_row {i : Stage} {c : Category} (hC : c ∈ (table numbering i).rows) {pid : Nat}
    (hPid : c.parentId = some pid) :
    ∃ p ∈ (table numbering i).rows, p.id = pid ∧ p.parentId = none := by
  cases i with
  | unseeded => cases hC
  | parentsOnly => cases (parentId_withParents hC).symm.trans hPid
  | seeded =>
      rcases mem_addAll hC with hParent | ⟨new, hNew, id, rfl⟩
      · cases (parentId_withParents hParent).symm.trans hPid
      · obtain ⟨p, hP, hId⟩ := parent_of_newSub hNew
        exact ⟨p, mem_seeded hP, Option.some.inj (hId.symm.trans hPid), parentId_withParents hP⟩

/-- The seeded table shows what the lists of the source say. -/
theorem shown_seeded : (table numbering .seeded).shown = listed := by
  set rows := (table numbering .seeded).rows with hRows
  let entryOf (new : NewCategory) : Entry := ⟨new.name, new.slug, new.icon⟩
  let parentOf (new : NewCategory) : Option String := new.parentId.bind fun id =>
    (rows.find? fun parent => parent.id = id).map Category.slug
  have hParents : (withParents numbering).rows.map (listedAs rows) =
      newParents.map fun new => (entryOf new, none) := by
    have hRoot : ∀ new ∈ newParents, ∀ id, listedAs rows (new.stored id) = (entryOf new, none) := by
      intro new hNew id
      obtain ⟨p, _, rfl⟩ := List.mem_map.mp hNew
      rfl
    exact map_addAll (empty : CategoryTable numbering) newParents hRoot
  have hSubs : rows.map (listedAs rows) = (withParents numbering).rows.map (listedAs rows) ++
      (newSubs numbering).map fun new => (entryOf new, parentOf new) :=
    map_addAll _ _ fun _ _ _ => rfl
  show rows.map (listedAs rows) = listed
  rw [hSubs, hParents, listed, newSubs_eq, newParents, List.map_map, List.map_flatMap]
  congr 1
  apply List.flatMap_congr
  intro ⟨parentSlug, children⟩ hEntry
  obtain ⟨p, hP, rfl, hMap, _⟩ := parent_of_key numbering hEntry
  have hFound : (rows.find? fun parent => parent.id = p.id) = some p :=
    find?_of_nodup_map (numbered_table .seeded).ids_nodup (mem_seeded hP)
  rw [List.map_map]
  apply List.map_congr_left
  intro child _
  simp [entryOf, parentOf, hMap, hFound]

theorem complete_seeded : Complete (table numbering .seeded) := by
  intro entry hEntry
  rw [shown_seeded]
  exact List.count_eq_one_of_mem (List.Nodup.of_map _ slugs_nodup) hEntry

theorem slugs_seeded : (table numbering .seeded).rows.map Category.slug =
    listed.map fun entry => entry.1.slug := by
  rw [← shown_slugs, shown_seeded]

theorem slugs_nodup_table (i : Stage) : ((table numbering i).rows.map Category.slug).Nodup := by
  cases i with
  | unseeded => exact List.nodup_nil
  | parentsOnly => exact slugs_withParents_nodup
  | seeded =>
      rw [slugs_seeded]
      exact slugs_nodup

theorem slug_ne_empty {i : Stage} {c : Category} (hC : c ∈ (table numbering i).rows) :
    c.slug ≠ "" := by
  have hNamed : ∀ slug ∈ listed.map fun entry => entry.1.slug, slug ≠ "" := by decide +kernel
  have hSeeded : c ∈ (table numbering .seeded).rows := by
    cases i with
    | unseeded => cases hC
    | parentsOnly => exact mem_seeded hC
    | seeded => exact hC
  apply hNamed
  rw [← @slugs_seeded numbering]
  exact List.mem_map_of_mem hSeeded

/-- The seeded table meets the unique constraints. -/
theorem admits_seeded : (table numbering .seeded).admits = true := by
  have hNames : ((table numbering .seeded).rows.map Category.name).Nodup := by
    rw [← shown_names, shown_seeded]
    exact names_nodup
  simp only [admits, hNames, slugs_nodup_table, decide_true, Bool.true_and, List.all_eq_true,
    Option.all_eq_true, List.any_eq_true, decide_eq_true_eq]
  intro c hC pid hPid
  obtain ⟨p, hP, hId, _⟩ := parent_of_row hC hPid
  exact ⟨p, hP, hId⟩

theorem admits_parentsOnly : (table numbering .parentsOnly).admits = true := by
  have hNames : ((table numbering .parentsOnly).rows.map Category.name).Nodup := by
    have hEarlier : (table numbering .parentsOnly).rows.Sublist (table numbering .seeded).rows :=
      List.sublist_append_left ..
    apply List.Nodup.sublist (hEarlier.map Category.name)
    rw [← shown_names, shown_seeded]
    exact names_nodup
  simp only [admits, hNames, slugs_nodup_table, decide_true, Bool.true_and, List.all_eq_true]
  intro c hC
  rw [parentId_withParents hC]
  rfl

def unchanged (d : CategoryTable numbering) (lastSeen : List Category) : Bool :=
  decide (d.rows = lastSeen)

variable (numbering) in
/-- From here, a program raises only where its commit finds the table changed. -/
abbrev Safe (i : Stage) (p : Prog (seeding numbering) Unit) : Prop :=
  Steady (table numbering) unchanged (· = .seeded) i p

/-- The rule of reading the categories: the table may have gone on to a later
stage. -/
theorem safe_selectCategories {i : Stage} {f : List Category → Prog (seeding numbering) Unit} :
    Safe numbering i (selectCategories >>= f) ↔
      ∀ j, i ≤ j → Safe numbering j (f (table numbering j).rows) := Iff.rfl

/-- The rule of an insert: it fails unless the table is as last read, and leads
to a later stage then. -/
theorem safe_commitAll {i : Stage} {lastSeen : List Category} {news : List NewCategory}
    {f : CategoryTable numbering → Prog (seeding numbering) Unit} :
    Safe numbering i (commitAll lastSeen news >>= f) ↔ ∀ j, i ≤ j →
      ((table numbering j).addAll news).admits = unchanged (table numbering j) lastSeen ∧
      (unchanged (table numbering j) lastSeen = true →
        ∃ k, j ≤ k ∧ (table numbering j).addAll news = table numbering k ∧
          Safe numbering k (f (table numbering k))) := by
  constructor
  · exact fun h => h.2
  · exact fun h => ⟨rfl, h⟩

/-- Rows that stay where they are are found again. -/
theorem safe_refreshEach {i : Stage} {rows : List Category}
    {f : List Category → Prog (seeding numbering) Unit}
    (hFound : ∀ j, i ≤ j → ∀ row ∈ rows,
      ((table numbering j).rows.find? fun c => c.id = row.id) = some row)
    (h : ∀ j, i ≤ j → Safe numbering j (f rows)) : Safe numbering i (refreshEach rows >>= f) := by
  induction rows generalizing i f with
  | nil => exact h i le_rfl
  | cons row rest ih =>
      intro j hLater
      have hRow := hFound j hLater row List.mem_cons_self
      show Safe numbering j ((do
        let row ← Prog.orRaise ((table numbering j).rows.find? fun c => c.id = row.id) .invalidRequest
        let rest ← refreshEach rest
        pure (row :: rest)) >>= f)
      rw [hRow]
      show Safe numbering j (((refreshEach rest).bind fun rest => .pure (row :: rest)).bind f)
      rw [Prog.bind_assoc]
      apply ih
      · exact fun k hK other hOther =>
          hFound k (le_trans hLater hK) other (List.mem_cons_of_mem _ hOther)
      · exact fun k hK => h k (le_trans hLater hK)

theorem le_seeded (i : Stage) : i ≤ .seeded := by
  cases i <;> decide

/-- Once the parents are there, they are not admitted again. -/
theorem refuses_newParents {i : Stage} (hInstalled : .parentsOnly ≤ i) :
    ((table numbering i).addAll newParents).admits = unchanged (table numbering i) [] ∧
      unchanged (table numbering i) [] = false := by
  have hTaken : ∃ new ∈ newParents, new.slug ∈ (table numbering i).rows.map Category.slug := by
    have hSlugs : newParents.map NewCategory.slug = parents.map Entry.slug := by
      rw [newParents, List.map_map]
      rfl
    obtain ⟨new, hNew⟩ : ∃ new, new ∈ newParents := ⟨_, List.mem_cons_self⟩
    have hSlug : new.slug ∈ (withParents numbering).rows.map Category.slug := by
      rw [slugs_withParents, ← hSlugs]
      exact List.mem_map_of_mem hNew
    refine ⟨new, hNew, ?_⟩
    cases i with
    | unseeded => exact absurd hInstalled (by decide)
    | parentsOnly => exact hSlug
    | seeded =>
        obtain ⟨c, hC, hSame⟩ := List.mem_map.mp hSlug
        exact hSame ▸ List.mem_map_of_mem (mem_seeded hC)
  obtain ⟨new, hNew, hSlug⟩ := hTaken
  have hSeen : unchanged (table numbering i) [] = false := by
    rw [unchanged, decide_eq_false_iff_not]
    intro hEmpty
    rw [hEmpty] at hSlug
    cases hSlug
  exact ⟨(admits_addAll_of_taken hNew hSlug).trans hSeen.symm, hSeen⟩

/-- The commit that completes the table. -/
theorem safe_commit_newSubs {i : Stage} (hInstalled : .parentsOnly ≤ i) :
    Safe numbering i (commitAll (table numbering .parentsOnly).rows (newSubs numbering) >>=
      fun _ => pure ()) := by
  apply safe_commitAll.mpr
  intro j hLater
  cases j with
  | unseeded => exact absurd (hInstalled.trans hLater) (by decide)
  | parentsOnly =>
      constructor
      · exact admits_seeded.trans (by simp [unchanged])
      · exact fun _ => ⟨.seeded, le_seeded _, rfl, rfl⟩
  | seeded =>
      obtain ⟨new, hNew⟩ := List.exists_mem_of_ne_nil _ (@newSubs_ne_nil numbering)
      have hSlug : new.slug ∈ (table numbering .seeded).rows.map Category.slug := by
        rw [table, slugs_addAll]
        exact List.mem_append_right _ (List.mem_map_of_mem hNew)
      have hChanged : unchanged (table numbering .seeded) (table numbering .parentsOnly).rows =
          false := by
        simp [unchanged, table, addAll, newSubs_ne_nil]
      rw [hChanged]
      exact ⟨admits_addAll_of_taken hNew hSlug, fun hSeen => by cases hSeen⟩

/-- Seeding an empty table is safe, at whatever stage it is by then. -/
theorem safe_seedFresh {i : Stage} : Safe numbering i seedFresh := by
  apply safe_commitAll.mpr
  intro j _
  cases j with
  | unseeded =>
      constructor
      · exact admits_parentsOnly
      · intro _
        refine ⟨.parentsOnly, by decide, rfl, ?_⟩
        have hStored : (table numbering .parentsOnly).rows.drop
            ((table numbering .parentsOnly).rows.length - parents.length) =
              (table numbering .parentsOnly).rows := by
          have hLength : (withParents numbering).rows.length = parents.length := by
            simpa using congrArg List.length (@slugs_withParents numbering)
          show (withParents numbering).rows.drop _ = _
          rw [table, hLength, Nat.sub_self, List.drop_zero]
        show Safe numbering .parentsOnly (refreshEach ((table numbering .parentsOnly).rows.drop _) >>= _)
        rw [hStored]
        apply safe_refreshEach
        · intro j hLater row hRow
          apply find?_of_nodup_map (numbered_table j).ids_nodup
          cases j with
          | unseeded => exact absurd hLater (by decide)
          | parentsOnly => exact hRow
          | seeded => exact mem_seeded hRow
        · exact fun j hLater => safe_commit_newSubs hLater
  | parentsOnly =>
      obtain ⟨hRefused, hSeen⟩ := refuses_newParents (i := .parentsOnly) le_rfl
      exact ⟨hRefused, fun hUnchanged => absurd hUnchanged (by simp [hSeen])⟩
  | seeded =>
      obtain ⟨hRefused, hSeen⟩ := refuses_newParents (i := .seeded) (le_seeded _)
      exact ⟨hRefused, fun hUnchanged => absurd hUnchanged (by simp [hSeen])⟩

/-- What is missing while only the parents are there. -/
theorem missing_of_parentsOnly :
    buildNewSubs (idsBySlug ((table numbering .parentsOnly).rows.filter fun c =>
      c.slug ∈ parents.map Entry.slug)) ((table numbering .parentsOnly).rows.map Category.slug) =
      newSubs numbering := by
  have hParents : (table numbering .parentsOnly).rows.map Category.slug = parents.map Entry.slug :=
    slugs_withParents
  have hAll : ((table numbering .parentsOnly).rows.filter fun c => c.slug ∈ parents.map Entry.slug) =
      (table numbering .parentsOnly).rows := by
    apply List.filter_eq_self.mpr
    intro c hC
    rw [← hParents, decide_eq_true_eq]
    exact List.mem_map_of_mem hC
  rw [hAll, hParents]
  exact buildNewSubs_of_absent fun _ hEntry _ hChild => slug_not_mem_parents hEntry hChild

theorem missing_of_seeded (parentMap : String → Option Nat) :
    buildNewSubs parentMap ((table numbering .seeded).rows.map Category.slug) = [] := by
  rw [slugs_seeded]
  exact buildNewSubs_of_present fun _ hEntry _ hChild => slug_mem_listed hEntry hChild

/-- Topping up is safe once the parents are there. -/
theorem safe_topUp {i : Stage} (hInstalled : .parentsOnly ≤ i) : Safe numbering i topUp := by
  apply safe_selectCategories.mpr
  intro j hLater
  cases j with
  | unseeded => exact absurd (hInstalled.trans hLater) (by decide)
  | parentsOnly =>
      show Safe numbering .parentsOnly (if (buildNewSubs _ _).isEmpty then pure ()
        else commitAll _ (buildNewSubs _ _) >>= fun _ => pure ())
      rw [missing_of_parentsOnly, if_neg (by simp [newSubs_ne_nil])]
      exact safe_commit_newSubs le_rfl
  | seeded =>
      show Safe numbering .seeded (if (buildNewSubs _ _).isEmpty then pure ()
        else commitAll _ (buildNewSubs _ _) >>= fun _ => pure ())
      rw [missing_of_seeded]
      rfl

theorem safe_seedCategories (i : Stage) : Safe numbering i seedCategories := by
  apply safe_selectCategories.mpr
  intro j _
  cases j with
  | unseeded => exact safe_seedFresh
  | parentsOnly => exact safe_topUp le_rfl
  | seeded => exact safe_topUp (le_seeded .parentsOnly)

theorem seeded_of_le {i j : Stage} (hLater : i ≤ j) (hSeeded : i = .seeded) : j = .seeded := by
  subst hSeeded
  cases j with
  | seeded => rfl
  | _ => exact absurd hLater (by decide)

end Stage

/-- What `lifespan` runs in every worker. -/
def lifespan : Unit → Prog (seeding numbering) Unit := fun _ => seedCategories

abbrev startup : Config (seeding numbering) × Chronicle → Action (seeding numbering) Unit →
    Option (Config (seeding numbering) × Chronicle) :=
  chronicled lifespan Stage.unchanged

/-- From every table that earlier runs have left: no call raises, and once one has
returned the table is complete, in exactly those runs in which each commit finds the
table as its call has last read or left it. -/
theorem seeding_safe_iff {earlier : Config (seeding numbering)}
    {s : Config (seeding numbering) × Chronicle}
    (hEarlier : Reaches lifespan (fun _ _ _ => True) empty earlier)
    (run : Runs.Reaches startup (fun _ _ => True) (.initial earlier.db, .empty) s) :
    (s.2.raised = false ∧ (s.2.returned = true → Complete s.1.db)) ↔ s.2.disturbed = false := by
  have hEarlier : Reaches lifespan (fun _ _ _ => True) (Stage.table numbering .unseeded) earlier :=
    hEarlier
  obtain ⟨i, hTable⟩ := stage_of_reaches Stage.seeded_of_le
    (fun i _ => Stage.safe_seedCategories i) hEarlier
  rw [hTable] at run
  obtain ⟨j, hAt, hReturned, hRaised⟩ := chronicle_of_run Stage.seeded_of_le
    (fun i _ => Stage.safe_seedCategories i) run
  have hComplete : s.2.returned = true → Complete s.1.db := by
    intro hNow
    rw [hAt.db, hReturned hNow]
    exact Stage.complete_seeded
  rw [← hRaised]
  exact ⟨fun h => h.1, fun h => ⟨h, hComplete⟩⟩

/-- Every other number is skipped. -/
def oddNumbers : Numbering where
  number n := 2 * n + 1
  increasing n m h := by dsimp only; omega
  positive n := by omega

/-- A worker is stopped once it has committed the parents. -/
def interrupted : List (Action (seeding oddNumbers) Unit) :=
  [.start 0 (), .step 0, .step 0, .close 0]

/-- Two workers start together. One tops the table up before the other reads it. -/
def toppedUp : List (Action (seeding oddNumbers) Unit) :=
  [.start 1 (), .start 2 (), .step 1, .step 2, .step 1, .step 1, .step 2]

/-- Two workers find the table empty. -/
def bothFresh : List (Action (seeding oddNumbers) Unit) :=
  [.start 1 (), .start 2 (), .step 1, .step 2, .step 1, .step 2]

/-- A worker that stops between the two inserts is made up for by the next. -/
theorem seeding_safe_interrupted : ∃ s : Config (seeding oddNumbers) × Chronicle,
    s.2.disturbed = false ∧ s.2.returned = true ∧ s.2.raised = false ∧ Complete s.1.db := by
  obtain ⟨earlier, hEarlier, hLeft⟩ := exists_reaches lifespan (fun _ _ _ => True) empty
    interrupted (fun c => c.db = Stage.table oddNumbers .parentsOnly) (by decide +kernel)
  obtain ⟨s, run, hQuiet, hReturned⟩ := Runs.exists_reaches startup (fun _ _ => True)
    (.initial (Stage.table oddNumbers .parentsOnly), .empty) toppedUp
    (fun s => s.2.disturbed = false ∧ s.2.returned = true) (by decide +kernel)
  rw [← hLeft] at run
  obtain ⟨hRaised, hComplete⟩ := (seeding_safe_iff hEarlier run).mpr hQuiet
  exact ⟨s, hQuiet, hReturned, hRaised, hComplete hReturned⟩

/-- The second commit of the parents violates a unique constraint. -/
theorem seeding_raises : ¬∀ (numbering : Numbering) (earlier : Config (seeding numbering))
    (s : Config (seeding numbering) × Chronicle),
    Reaches lifespan (fun _ _ _ => True) empty earlier →
    Runs.Reaches startup (fun _ _ => True) (.initial earlier.db, .empty) s →
      s.2.raised = false ∧ (s.2.returned = true → Complete s.1.db) := by
  intro hSafe
  obtain ⟨s, run, hRaised⟩ := Runs.exists_reaches startup (fun _ _ => True)
    (.initial empty, .empty) bothFresh (fun s => s.2.raised = true) (by decide +kernel)
  have hQuiet := (hSafe oddNumbers (.initial empty) s .init run).1
  rw [hRaised] at hQuiet
  cases hQuiet

end OnlineAuction.Categories
