import Mathlib.Order.Monotone.Defs
import OnlineAuction.Library.RowLocks
import OnlineAuction.Market.Records

/-! `app/services/seed_data.py`: the seeding of the `categories` table, which every
worker runs as it starts. -/

namespace OnlineAuction.Categories

open RowLocks

structure Entry where
  name : String
  slug : String
  icon : String
  deriving DecidableEq

def parents : List Entry :=
  [ ⟨"Электроника", "electronics", "💻"⟩,
    ⟨"Авто", "auto", "🚗"⟩,
    ⟨"Одежда", "clothing", "👗"⟩,
    ⟨"Искусство", "art", "🎨"⟩,
    ⟨"Коллекционное", "collectibles", "🏺"⟩,
    ⟨"Спорт", "sport", "⚽"⟩,
    ⟨"Дом и сад", "home", "🏡"⟩,
    ⟨"Животные", "animals", "🐾"⟩,
    ⟨"Другое", "other", "📦"⟩ ]

def subsMap : List (String × List Entry) :=
  [ ("electronics", [
      ⟨"Смартфоны", "phones", "📱"⟩,
      ⟨"Ноутбуки", "laptops", "💻"⟩,
      ⟨"Фото и видео", "photo", "📷"⟩,
      ⟨"Аудио", "audio", "🎧"⟩,
      ⟨"Игры и консоли", "gaming", "🎮"⟩,
      ⟨"ТВ и мониторы", "tv", "🖥️"⟩ ]),
    ("auto", [
      ⟨"Легковые", "cars", "🚗"⟩,
      ⟨"Мотоциклы", "motos", "🏍️"⟩,
      ⟨"Запчасти", "parts", "🔧"⟩,
      ⟨"Грузовые", "trucks", "🚛"⟩ ]),
    ("clothing", [
      ⟨"Мужская", "men", "👔"⟩,
      ⟨"Женская", "women", "👗"⟩,
      ⟨"Детская", "kids", "🧒"⟩,
      ⟨"Обувь", "shoes", "👟"⟩,
      ⟨"Аксессуары", "accessory", "💍"⟩ ]),
    ("art", [
      ⟨"Живопись", "painting", "🖼️"⟩,
      ⟨"Скульптура", "sculpture", "🗿"⟩,
      ⟨"Фотоарт", "photoart", "📸"⟩,
      ⟨"Цифровое", "digital", "💾"⟩ ]),
    ("sport", [
      ⟨"Велоспорт", "cycling", "🚴"⟩,
      ⟨"Фитнес", "fitness", "🏋️"⟩,
      ⟨"Зимние виды", "winter", "⛷️"⟩,
      ⟨"Командные виды", "team", "⚽"⟩ ]),
    ("home", [
      ⟨"Мебель", "furniture", "🛋️"⟩,
      ⟨"Инструменты", "tools", "🔨"⟩,
      ⟨"Сад", "garden", "🌿"⟩,
      ⟨"Декор", "decor", "🕯️"⟩ ]) ]

structure NewCategory where
  name : String
  slug : String
  icon : String
  parentId : Option Nat
  deriving DecidableEq

def NewCategory.stored (new : NewCategory) (id : Nat) : Category :=
  ⟨id, new.name, new.slug, new.icon, new.parentId⟩

/-- The numbers of the rows that stay, in the order of insertion. The sequence of the
table is not reset by a rollback, so it may skip any numbers. -/
structure Numbering where
  number : Nat → Nat
  increasing : StrictMono number
  positive : ∀ n, 0 < number n

/-- The table in the order of insertion. -/
structure CategoryTable (numbering : Numbering) where
  rows : List Category
  deriving DecidableEq

variable {numbering : Numbering}

namespace CategoryTable

def empty : CategoryTable numbering := ⟨[]⟩

def addAll (d : CategoryTable numbering) (news : List NewCategory) : CategoryTable numbering where
  rows := d.rows ++ news.mapIdx fun i new => new.stored (numbering.number (d.rows.length + i))

def admits (d : CategoryTable numbering) : Bool :=
  decide (d.rows.map Category.name).Nodup && decide (d.rows.map Category.slug).Nodup &&
    d.rows.all fun c => c.parentId.all fun id => d.rows.any fun parent => parent.id = id

end CategoryTable

inductive SeedError where
  | integrityError
  | invalidRequest
  deriving DecidableEq

/-- The table locks no row. A note holds the rows that the call has last read, or
left itself. -/
abbrev seeding (numbering : Numbering) : Store where
  State := CategoryTable numbering
  Key := Empty
  Time := Unit
  Note := List Category
  Error := SeedError
  keyEq := inferInstance
  hasRow _ _ := false
  admits := CategoryTable.admits
  readable _ _ := true
  observe _ _ d := d

/-- A dict of ids by slug: of rows that share one, the last counts. -/
def idsBySlug (rows : List Category) (slug : String) : Option Nat :=
  (rows.reverse.find? fun c => c.slug = slug).map Category.id

def buildNewSubs (parentMap : String → Option Nat) (existingSlugs : List String) :
    List NewCategory :=
  subsMap.flatMap fun (parentSlug, children) =>
    match parentMap parentSlug with
    | none => []
    | some 0 => []
    | some pid => (children.filter fun child => child.slug ∉ existingSlugs).map fun child =>
        ⟨child.name, child.slug, child.icon, some pid⟩

def selectCategories : Prog (seeding numbering) (List Category) := .read [] fun d => .pure d.rows

/-- `add_all` and `commit`; the table that the commit has left. -/
def commitAll (lastSeen : List Category) (news : List NewCategory) :
    Prog (seeding numbering) (CategoryTable numbering) :=
  .commit lastSeen (·.addAll news) fun done => Prog.orRaise done .integrityError

def refreshEach : List Category → Prog (seeding numbering) (List Category)
  | [] => pure []
  | row :: rest => .read [] fun d => do
      let row ← Prog.orRaise (d.rows.find? fun c => c.id = row.id) .invalidRequest
      let rest ← refreshEach rest
      pure (row :: rest)

def seedFresh : Prog (seeding numbering) Unit := do
  let stored ← commitAll [] (parents.map fun p => ⟨p.name, p.slug, p.icon, none⟩)
  let saved ← refreshEach (stored.rows.drop (stored.rows.length - parents.length))
  let parentMap := idsBySlug saved
  let _ ← commitAll stored.rows (buildNewSubs parentMap [])

def topUp : Prog (seeding numbering) Unit := do
  let existing ← selectCategories
  let existingSlugs := existing.map Category.slug
  let parentSlugs := parents.map Entry.slug
  let parentMap := idsBySlug (existing.filter fun c => c.slug ∈ parentSlugs)
  let newSubs := buildNewSubs parentMap existingSlugs
  if newSubs.isEmpty then pure ()
  else do
    let _ ← commitAll existing newSubs

def seedCategories : Prog (seeding numbering) Unit := do
  let existing ← selectCategories
  match existing.head? with
  | none => seedFresh
  | some _ => topUp

end OnlineAuction.Categories
