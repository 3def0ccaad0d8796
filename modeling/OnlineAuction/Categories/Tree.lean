import Mathlib.Data.List.Nodup
import OnlineAuction.Categories.Startup
import OnlineAuction.Market.Pages

/-! The tree of `app/routers/categories.py`, by which a visitor chooses the category
that `get_auctions` filters by. -/

namespace OnlineAuction.Categories

open RowLocks

structure Leaf where
  id : Nat
  name : String
  slug : String
  icon : String
  deriving DecidableEq

structure Node extends Leaf where
  children : List Leaf
  deriving DecidableEq

def leafOf (c : Category) : Leaf := ⟨c.id, c.name, c.slug, c.icon⟩

/-- `children_map`. No row is put under a parent whose number is zero, which is falsy. -/
def childrenMap (allCats : List Category) : Nat → List Category :=
  allCats.foldl (fun map c =>
    match c.parentId with
    | none => map
    | some pid => if pid = 0 then map else Function.update map pid (map pid ++ [c])) fun _ => []

def getCategories (rows : List Category) : List Node :=
  let allCats := rows.insertionSort fun a b => a.id ≤ b.id
  let parents := allCats.filter fun c => c.parentId = none
  parents.map fun p => ⟨leafOf p, (childrenMap allCats p.id).map leafOf⟩

def Node.shown (node : Node) : List Nat := node.id :: node.children.map Leaf.id

structure Planted (rows : List Category) : Prop where
  ids : (rows.map Category.id).Nodup
  slugs : (rows.map Category.slug).Nodup
  numbered : ∀ c ∈ rows, c.id ≠ 0
  named : ∀ c ∈ rows, c.slug ≠ ""
  parent : ∀ c ∈ rows, ∀ pid ∈ c.parentId, ∃ p ∈ rows, p.id = pid ∧ p.parentId = none

/-- The children of a category are the rows that name it as their parent. -/
theorem childrenMap_eq (rows : List Category) {pid : Nat} (hPid : pid ≠ 0) :
    childrenMap rows pid = rows.filter fun c => c.parentId = some pid := by
  unfold childrenMap
  suffices ∀ map : Nat → List Category, rows.foldl (fun map c =>
      match c.parentId with
      | none => map
      | some pid => if pid = 0 then map else Function.update map pid (map pid ++ [c])) map pid =
      map pid ++ rows.filter fun c => c.parentId = some pid from this _
  intro map
  induction rows generalizing map with
  | nil => simp
  | cons c rest ih =>
      rw [List.foldl_cons, ih]
      cases hParent : c.parentId with
      | none => simp [hParent]
      | some other =>
          by_cases hOther : other = pid
          · subst hOther
            simp [hParent, hPid]
          · have hKept : (if other = 0 then map
                else Function.update map other (map other ++ [c])) pid = map pid := by
              split_ifs
              · rfl
              · exact Function.update_of_ne (Ne.symm hOther) _ _
            simp only [hKept]
            simp [hParent, hOther]

namespace Planted

variable {rows : List Category}

/-- The rows under a parent, by number. -/
theorem getCategories_eq (h : Planted rows) : getCategories rows =
    ((rows.insertionSort fun a b => a.id ≤ b.id).filter fun c => c.parentId = none).map fun p =>
      ⟨leafOf p, ((rows.insertionSort fun a b => a.id ≤ b.id).filter fun c =>
        c.parentId = some p.id).map leafOf⟩ := by
  apply List.map_congr_left
  intro p hP
  have hRow : p ∈ rows := (List.perm_insertionSort _ _).mem_iff.mp (List.mem_of_mem_filter hP)
  rw [childrenMap_eq _ (h.numbered p hRow)]

theorem of_perm {rows' : List Category} (h : Planted rows) (hPerm : rows'.Perm rows) :
    Planted rows' where
  ids := (hPerm.map _).nodup_iff.mpr h.ids
  slugs := (hPerm.map _).nodup_iff.mpr h.slugs
  numbered c hC := h.numbered c (hPerm.mem_iff.mp hC)
  named c hC := h.named c (hPerm.mem_iff.mp hC)
  parent c hC pid hPid := by
    obtain ⟨p, hP, hParent⟩ := h.parent c (hPerm.mem_iff.mp hC) pid hPid
    exact ⟨p, hPerm.mem_iff.mpr hP, hParent⟩

theorem eq_of_id (h : Planted rows) {c c' : Category} (hC : c ∈ rows) (hC' : c' ∈ rows)
    (hId : c.id = c'.id) : c = c' :=
  List.inj_on_of_nodup_map h.ids hC hC' hId

/-- Each row stands once in the tree. -/
theorem perm_families (h : Planted rows) :
    ((rows.filter fun c => c.parentId = none).flatMap fun p =>
      p :: rows.filter fun c => c.parentId = some p.id).Perm rows := by
  have hRows : rows.Nodup := h.ids.of_map
  rw [List.perm_ext_iff_of_nodup _ hRows]
  · intro c
    simp only [List.mem_flatMap, List.mem_filter, decide_eq_true_eq, List.mem_cons]
    constructor
    · rintro ⟨p, ⟨hP, _⟩, rfl | ⟨hC, _⟩⟩
      · exact hP
      · exact hC
    · intro hC
      cases hParent : c.parentId with
      | none => exact ⟨c, ⟨hC, hParent⟩, .inl rfl⟩
      | some pid =>
          obtain ⟨p, hP, hId, hTop⟩ := h.parent c hC pid hParent
          exact ⟨p, ⟨hP, hTop⟩, .inr ⟨hC, by rw [hId]⟩⟩
  · rw [List.nodup_flatMap]
    constructor
    · intro p hP
      obtain ⟨_, hTop⟩ := List.mem_filter.mp hP
      rw [List.nodup_cons]
      refine ⟨fun hMem => ?_, hRows.filter _⟩
      simp [of_decide_eq_true hTop] at hMem
    · refine (hRows.filter _).imp_of_mem ?_
      intro p q hP hQ hNe
      simp only [List.mem_filter, decide_eq_true_eq] at hP hQ
      intro c hC hC'
      simp only [List.mem_cons, List.mem_filter, decide_eq_true_eq] at hC hC'
      rcases hC with rfl | ⟨_, hC⟩
      · rcases hC' with rfl | ⟨_, hC'⟩
        · exact hNe rfl
        · rw [hP.2] at hC'
          cases hC'
      · rcases hC' with rfl | ⟨_, hC'⟩
        · rw [hQ.2] at hC
          cases hC
        · rw [hC, Option.some.injEq] at hC'
          exact hNe (h.eq_of_id hP.1 hQ.1 hC')

theorem perm_shown (h : Planted rows) :
    ((getCategories rows).flatMap Node.shown).Perm (rows.map Category.id) := by
  have hSorted : (rows.insertionSort fun a b => a.id ≤ b.id).Perm rows := List.perm_insertionSort _ _
  have hFamilies := (h.of_perm hSorted).perm_families.map Category.id
  refine List.Perm.trans ?_ (hFamilies.trans (hSorted.map _))
  rw [h.getCategories_eq, List.flatMap_map, List.map_flatMap]
  simp [Node.shown, leafOf, Function.comp_def]

theorem find?_slug (h : Planted rows) {c : Category} (hC : c ∈ rows) :
    (rows.find? fun row => row.slug = c.slug) = some c := find?_of_nodup_map h.slugs hC

/-- The numbers of a row and of those under it, as the filter of the lots selects them. -/
def family (rows : List Category) (c : Category) : List Nat :=
  c.id :: (rows.filter fun child => child.parentId = some c.id).map Category.id

/-- A node shows the family of the row that has its slug. -/
theorem family_of_node (h : Planted rows) {node : Node} (hNode : node ∈ getCategories rows) :
    ∃ p ∈ rows, p.parentId = none ∧ p.slug = node.slug ∧ p.id = node.id ∧
      ∀ id, id ∈ family rows p ↔ id ∈ node.shown := by
  rw [h.getCategories_eq] at hNode
  obtain ⟨p, hP, rfl⟩ := List.mem_map.mp hNode
  obtain ⟨hMem, hTop⟩ := List.mem_filter.mp hP
  refine ⟨p, (List.mem_insertionSort _).mp hMem, of_decide_eq_true hTop, rfl, rfl, fun id => ?_⟩
  simp [family, Node.shown, leafOf, Function.comp_def]

/-- Under a child there is nothing more. -/
theorem family_of_child (h : Planted rows) {node : Node} (hNode : node ∈ getCategories rows)
    {child : Leaf} (hChild : child ∈ node.children) :
    ∃ c ∈ rows, c.slug = child.slug ∧ family rows c = [child.id] := by
  rw [h.getCategories_eq] at hNode
  obtain ⟨p, hP, rfl⟩ := List.mem_map.mp hNode
  obtain ⟨c, hC, rfl⟩ := List.mem_map.mp hChild
  obtain ⟨hMem, hParent⟩ := List.mem_filter.mp hC
  have hRow : c ∈ rows := (List.mem_insertionSort _).mp hMem
  refine ⟨c, hRow, rfl, ?_⟩
  have hNone : (rows.filter fun grandchild => grandchild.parentId = some c.id) = [] := by
    rw [List.filter_eq_nil_iff]
    intro grandchild hGrandchild hUnder
    obtain ⟨parent, hParentRow, hId, hTop⟩ :=
      h.parent grandchild hGrandchild c.id (of_decide_eq_true hUnder)
    rw [h.eq_of_id hParentRow hRow hId, of_decide_eq_true hParent] at hTop
    cases hTop
  rw [family, hNone]
  rfl

end Planted

section Filter

variable {catalogue : Catalogue} {q : AuctionsQuery}

/-- The lots of a category are those of its family among the lots that match otherwise. -/
theorem selected_of_category {rows : List Category} (h : Planted rows) {c : Category}
    (hC : c ∈ rows) :
    ({ catalogue with categories := rows }).selected { q with category := some c.slug } =
      (({ catalogue with categories := rows }).selected { q with category := none }).filter
        fun lot => lot.categoryId.any fun id => id ∈ Planted.family rows c := by
  have hGiven : given (some c.slug) = some c.slug := by simp [given, h.named c hC]
  have hAny : given none = none := rfl
  simp only [Catalogue.selected, Catalogue.conditions, Catalogue.ofCategory, hGiven, hAny,
    h.find?_slug hC, Option.map_some]
  cases hCreator : ({ catalogue with categories := rows }).ofCreator q.createdBy with
  | none => rfl
  | some ofCreator =>
      simp only [Option.bind_eq_bind, Option.bind_some, List.filter_filter]
      apply List.filter_congr
      intro lot _
      have hFamily : (lot.categoryId.any fun id => id ∈ c.id :: (rows.filter fun child =>
          child.parentId = some c.id).map Category.id) =
          lot.categoryId.any fun id => id ∈ Planted.family rows c := rfl
      rw [hFamily]
      generalize (lot.categoryId.any fun id => id ∈ Planted.family rows c) = inFamily
      cases inFamily
      · simp
      · simp

structure Browsable (catalogue : Catalogue) (q : AuctionsQuery) (tree : List Node) : Prop where
  parents : ∀ node ∈ tree, catalogue.selected { q with category := some node.slug } =
    (catalogue.selected { q with category := none }).filter fun lot =>
      lot.categoryId.any fun id => id ∈ node.shown
  children : ∀ node ∈ tree, ∀ child ∈ node.children,
    catalogue.selected { q with category := some child.slug } =
      (catalogue.selected { q with category := none }).filter fun lot =>
        lot.categoryId = some child.id
  partition : ∀ lot ∈ catalogue.selected { q with category := none },
    (∃ id ∈ catalogue.categories.map Category.id, lot.categoryId = some id) →
      ∃! node, node ∈ tree ∧ lot ∈ catalogue.selected { q with category := some node.slug }

/-- The filter of a top category selects its lots and those of its children. -/
theorem Planted.selected_of_node {rows : List Category} (h : Planted rows) {node : Node}
    (hNode : node ∈ getCategories rows) :
    ({ catalogue with categories := rows }).selected { q with category := some node.slug } =
      (({ catalogue with categories := rows }).selected { q with category := none }).filter
        fun lot => lot.categoryId.any fun id => id ∈ node.shown := by
  obtain ⟨p, hP, _, hSlug, _, hShown⟩ := h.family_of_node hNode
  rw [← hSlug, selected_of_category h hP]
  simp only [hShown]

theorem Planted.browsable {rows : List Category} (h : Planted rows) :
    Browsable { catalogue with categories := rows } q (getCategories rows) where
  parents node hNode := h.selected_of_node hNode
  children node hNode child hChild := by
    obtain ⟨c, hC, hSlug, hFamily⟩ := h.family_of_child hNode hChild
    rw [← hSlug, selected_of_category h hC, hFamily]
    apply List.filter_congr
    intro lot _
    cases lot.categoryId with
    | none => rfl
    | some id => simp
  partition lot hLot hCategory := by
    obtain ⟨id, hId, hLotId⟩ := hCategory
    have hPerm := h.perm_shown
    have hOnce := hPerm.nodup_iff.mpr h.ids
    have hFiltered {node : Node} (hNode : node ∈ getCategories rows) :
        lot ∈ ({ catalogue with categories := rows }).selected
          { q with category := some node.slug } ↔ id ∈ node.shown := by
      rw [h.selected_of_node hNode, List.mem_filter]
      simp [hLot, hLotId]
    obtain ⟨node, hNode, hShown⟩ := List.mem_flatMap.mp (hPerm.mem_iff.mpr hId)
    refine ⟨node, ⟨hNode, (hFiltered hNode).mpr hShown⟩, fun other hOther => ?_⟩
    obtain ⟨hOtherNode, hOtherLot⟩ := hOther
    have hOtherShown := (hFiltered hOtherNode).mp hOtherLot
    by_contra hNe
    have : Std.Symm (Function.onFun List.Disjoint Node.shown) := ⟨fun _ _ h => List.Disjoint.symm h⟩
    exact (List.nodup_flatMap.mp hOnce).2.forall hOtherNode hNode hNe hOtherShown hShown

end Filter

variable {numbering : Numbering}

theorem planted_table (i : Stage) : Planted (Stage.table numbering i).rows where
  ids := (Stage.numbered_table i).ids_nodup
  slugs := Stage.slugs_nodup_table i
  numbered _ hC := ((Stage.numbered_table i).id_pos hC).ne'
  named _ hC := Stage.slug_ne_empty hC
  parent _ hC _ hPid := Stage.parent_of_row hC hPid

/-- However many workers have started, in whatever order of steps and wherever they were
cut off: the tree shows every stored category once; the lots of a node are those of the
categories that the tree shows there, the lots of a child its own; and a lot that has a
category is found under one node, whatever else is asked for. -/
theorem tree_browses_lots {c : Config (seeding numbering)}
    (run : Reaches lifespan (fun _ _ _ => True) CategoryTable.empty c)
    (catalogue : Catalogue) (q : AuctionsQuery) :
    ((getCategories c.db.rows).flatMap Node.shown).Perm (c.db.rows.map Category.id) ∧
      Browsable { catalogue with categories := c.db.rows } q (getCategories c.db.rows) := by
  have run : Reaches lifespan (fun _ _ _ => True) (Stage.table numbering .unseeded) c := run
  obtain ⟨i, hTable⟩ := stage_of_reaches Stage.seeded_of_le
    (fun i _ => Stage.safe_seedCategories i) run
  rw [hTable]
  exact ⟨(planted_table i).perm_shown, (planted_table i).browsable⟩

/-- Also the table of the parents alone can be browsed. -/
theorem tree_browses_lots_interrupted : ∃ c : Config (seeding oddNumbers),
    c.db = Stage.table oddNumbers .parentsOnly ∧ ∀ (catalogue : Catalogue) (q : AuctionsQuery),
      Browsable { catalogue with categories := c.db.rows } q (getCategories c.db.rows) := by
  obtain ⟨c, run, hLeft⟩ := exists_reaches lifespan (fun _ _ _ => True) CategoryTable.empty
    interrupted (fun c => c.db = Stage.table oddNumbers .parentsOnly) (by decide +kernel)
  exact ⟨c, hLeft, fun catalogue q => (tree_browses_lots run catalogue q).2⟩

end OnlineAuction.Categories
