import Mathlib.Data.List.Dedup
import OnlineAuction.Accounts.Handlers
import OnlineAuction.Accounts.ResetRequests

/-! `register` of `app/routers/auth.py` with the schemas of `app/schemas/user.py`,
and the migration that lower-cases the usernames of older accounts. -/

namespace OnlineAuction.Accounts

/-- `str.lower`, with which `lower` of the database agrees. -/
structure Lowering where
  lower : String → String
  lower_lower : ∀ s, lower (lower s) = lower s

def isCapital (n : Nat) : Bool :=
  ('A'.toNat ≤ n && n ≤ 'Z'.toNat) || ('А'.toNat ≤ n && n ≤ 'Я'.toNat)

def lowerChar (c : Char) : Char :=
  if c = 'Ё' then 'ё' else if isCapital c.toNat then Char.ofNat (c.toNat + 32) else c

theorem lowerChar_lowerChar (c : Char) : lowerChar (lowerChar c) = lowerChar c := by
  by_cases hYo : c = 'Ё'
  · subst hYo
    decide
  · by_cases hCapital : isCapital c.toNat = true
    · have hRange : c.toNat < 1072 ∧ ¬isCapital (c.toNat + 32) = true ∧ c.toNat + 32 ≠ 1025 := by
        simp only [isCapital, Char.reduceToNat, Bool.or_eq_true, Bool.and_eq_true,
          decide_eq_true_eq] at hCapital ⊢
        omega
      have hNat : (Char.ofNat (c.toNat + 32)).toNat = c.toNat + 32 := by
        have hValid : (c.toNat + 32).isValidChar := .inl (by omega)
        rw [Char.ofNat, dif_pos hValid]
        rfl
      have hNotYo : Char.ofNat (c.toNat + 32) ≠ 'Ё' := by
        intro hSame
        rw [hSame] at hNat
        exact hRange.2.2 hNat.symm
      have hLower : lowerChar c = Char.ofNat (c.toNat + 32) := by
        simp [lowerChar, hYo, hCapital]
      rw [hLower, lowerChar, if_neg hNotYo, hNat, if_neg hRange.2.1]
    · have hLower : lowerChar c = c := by simp [lowerChar, hYo, hCapital]
      rw [hLower, hLower]

/-- On the letters that a username may have. -/
def latinCyrillic : Lowering where
  lower s := s.map lowerChar
  lower_lower s := by
    have hTwice : lowerChar ∘ lowerChar = lowerChar := funext lowerChar_lowerChar
    rw [String.map_map, hTwice]

variable (L : Lowering)

def normalizeUsername (value : String) : String := L.lower value

/-- `_normalize_email`, of an address as `EmailStr` returns it. -/
def normalizeEmail (value : String) : String := L.lower value

def isLetterOrDigit (c : Char) : Bool :=
  ('A' ≤ c && c ≤ 'Z') || ('a' ≤ c && c ≤ 'z') || ('А' ≤ c && c ≤ 'Я') || ('а' ≤ c && c ≤ 'я') ||
    c = 'Ё' || c = 'ё' || ('0' ≤ c && c ≤ '9')

def usernamePattern (value : String) : Bool :=
  match value.toList with
  | [] => false
  | first :: rest => isLetterOrDigit first &&
      rest.all fun c => isLetterOrDigit c || c = '_' || c = '-'

/-- What the field `username` is checked for before it is normalised. -/
abbrev NewUsername := {username : String //
  (3 ≤ username.length ∧ username.length ≤ 32) ∧ usernamePattern username = true}

/-- The salt is what the handler draws when it hashes the password. -/
structure UserCreate where
  username : NewUsername
  email : String
  password : NewPassword
  salt : Nat

/-- A table that the schema admits: names and addresses are unique as they are
written, and numbers begin at one. -/
structure UsersTable where
  rows : Table User
  ids : ∀ id row, rows.get id = some row → row.id = id ∧ 0 < id
  started : 0 < rows.serial
  usernames : ∀ id id' row row', rows.get id = some row → rows.get id' = some row' →
    row.username = row'.username → id = id'
  emails : ∀ id id' row row', rows.get id = some row → rows.get id' = some row' →
    row.email = row'.email → id = id'

namespace UsersTable

def stored (users : UsersTable) : List User :=
  (List.range users.rows.serial).filterMap users.rows.get

def backend (users : UsersTable) : Backend := { Backend.initial [] with users := users.rows }

/-- What `password_reset_request` reads, for any times at which links were sent. -/
def resets (users : UsersTable) (S : Settings) (sentAt : UserId → Option Time) :
    Resets.State S where
  users :=
    { get := fun id => (users.rows.get id).map fun user => ⟨user, sentAt id⟩
      serial := users.rows.serial
      unused := fun id h => by simp [users.rows.unused id h] }
  emailOutbox := .empty

def selectId (users : UsersTable) (condition : User → Bool) : Option UserId :=
  (users.stored.find? condition).map User.id

def isFree (users : UsersTable) (username email : String) : Bool :=
  users.stored.all fun row => row.username ≠ username && row.email ≠ email

/-- A row found by its number is one of the stored rows. -/
theorem mem_stored {users : UsersTable} {id : UserId} {row : User}
    (h : users.rows.get id = some row) : row ∈ users.stored :=
  List.mem_filterMap.mpr ⟨id, List.mem_range.mpr (Table.lt_serial h), h⟩

/-- A free name and address differ from those of every row. -/
theorem ne_of_isFree {users : UsersTable} {username email : String}
    (hFree : users.isFree username email = true) {id : UserId} {row : User}
    (h : users.rows.get id = some row) : row.username ≠ username ∧ row.email ≠ email := by
  simpa [isFree] using List.all_eq_true.mp hFree row (mem_stored h)

def insert (users : UsersTable) (username email hashedPassword : String)
    (hFree : users.isFree username email = true) : UsersTable where
  rows := users.rows.add fun id => ⟨id, username, email, hashedPassword, 0, 0, none⟩
  ids id row hRow := by
    rw [Table.get_add] at hRow
    split_ifs at hRow with hNew
    · cases hRow
      exact ⟨rfl, hNew ▸ users.started⟩
    · exact users.ids id row hRow
  started := Nat.succ_pos _
  usernames id id' row row' hRow hRow' hSame := by
    rw [Table.get_add] at hRow hRow'
    split_ifs at hRow hRow' with hNew hNew' hNew'
    · exact hNew.trans hNew'.symm
    · cases hRow
      exact absurd hSame.symm (ne_of_isFree hFree hRow').1
    · cases hRow'
      exact absurd hSame (ne_of_isFree hFree hRow).1
    · exact users.usernames id id' row row' hRow hRow' hSame
  emails id id' row row' hRow hRow' hSame := by
    rw [Table.get_add] at hRow hRow'
    split_ifs at hRow hRow' with hNew hNew' hNew'
    · exact hNew.trans hNew'.symm
    · cases hRow
      exact absurd hSame.symm (ne_of_isFree hFree hRow').2
    · cases hRow'
      exact absurd hSame (ne_of_isFree hFree hRow).2
    · exact users.emails id id' row row' hRow hRow' hSame

end UsersTable

def userExistsDetail : String := "Пользователь с таким username или email уже существует"

/-- `POST /register`, up to the row that it stores. A number in boolean position is taken
to be false when it is zero. -/
def register (S : Settings) (users : UsersTable) (user : UserCreate) :
    Except HTTPException UsersTable := do
  let username := normalizeUsername L user.username
  let email := normalizeEmail L user.email
  let usernameTaken := users.selectId fun row => row.username = username
  let emailTaken := users.selectId fun row => row.email = email
  if usernameTaken.any (· ≠ 0) || emailTaken.any (· ≠ 0) then .error ⟨400, userExistsDetail⟩
  else
    let hashedPassword ← hashPassword S user.salt user.password
    if hFree : users.isFree username email = true then
      pure (users.insert username email hashedPassword hFree)
    else .error ⟨400, userExistsDetail⟩

namespace UsersTable

/-- The groups of usernames that are one in lower case. -/
def collisions (users : UsersTable) : List (String × List String) :=
  let usernames := users.stored.map User.username
  let groups := (usernames.map L.lower).dedup.map fun folded =>
    (folded, usernames.filter fun username => L.lower username = folded)
  groups.filter fun group => 1 < group.2.length

/-- `UPDATE users SET username = lower(username) WHERE username != lower(username)`. -/
def foldUsername (row : User) : User :=
  if row.username ≠ L.lower row.username then { row with username := L.lower row.username } else row

@[simp] theorem foldUsername_username (row : User) :
    (foldUsername L row).username = L.lower row.username := by
  unfold foldUsername
  split_ifs with hSame
  · rfl
  · exact not_not.mp hSame

@[simp] theorem foldUsername_id (row : User) : (foldUsername L row).id = row.id := by
  unfold foldUsername
  split_ifs <;> rfl

@[simp] theorem foldUsername_email (row : User) : (foldUsername L row).email = row.email := by
  unfold foldUsername
  split_ifs <;> rfl

/-- Usernames of two accounts that are one in lower case make a group. -/
theorem same_of_no_collisions {users : UsersTable} (h : users.collisions L = []) {id id' : UserId}
    {row row' : User} (hRow : users.rows.get id = some row) (hRow' : users.rows.get id' = some row')
    (hSame : L.lower row.username = L.lower row'.username) : id = id' := by
  by_contra hApart
  have hOther : row.username ≠ row'.username := fun hName =>
    hApart (users.usernames id id' row row' hRow hRow' hName)
  let group := (users.stored.map User.username).filter fun username =>
    L.lower username = L.lower row.username
  have hOne : row.username ∈ group := by
    simpa [group] using ⟨row, mem_stored hRow, rfl⟩
  have hTwo : row'.username ∈ group := by
    simpa [group, hSame] using ⟨row', mem_stored hRow', rfl⟩
  have hGroup : 1 < group.length := by
    cases hSplit : group with
    | nil => simp [hSplit] at hOne
    | cons first rest =>
        cases rest with
        | cons => simp
        | nil =>
            rw [hSplit, List.mem_singleton] at hOne hTwo
            exact absurd (hOne.trans hTwo.symm) hOther
  have hFound : (L.lower row.username, group) ∈ users.collisions L := by
    simp only [collisions, List.mem_filter, List.mem_map, List.mem_dedup, decide_eq_true_eq]
    exact ⟨⟨_, ⟨_, ⟨row, mem_stored hRow, rfl⟩, rfl⟩, rfl⟩, hGroup⟩
  rw [h] at hFound
  cases hFound

/-- `upgrade`: the migration aborts on usernames that are one in lower case. -/
def upgrade (users : UsersTable) : Except (List (String × List String)) UsersTable :=
  if hApart : users.collisions L = [] then .ok {
    rows := users.rows.mapRows fun _ row => foldUsername L row
    ids := fun id row hRow => by
      obtain ⟨old, hOld, rfl⟩ := Option.map_eq_some_iff.mp hRow
      simpa using users.ids id old hOld
    started := users.started
    usernames := fun id id' row row' hRow hRow' hSame => by
      obtain ⟨old, hOld, rfl⟩ := Option.map_eq_some_iff.mp hRow
      obtain ⟨old', hOld', rfl⟩ := Option.map_eq_some_iff.mp hRow'
      exact same_of_no_collisions L hApart hOld hOld' (by simpa using hSame)
    emails := fun id id' row row' hRow hRow' hSame => by
      obtain ⟨old, hOld, rfl⟩ := Option.map_eq_some_iff.mp hRow
      obtain ⟨old', hOld', rfl⟩ := Option.map_eq_some_iff.mp hRow'
      exact users.emails id id' old old' hOld hOld' (by simpa using hSame) }
  else .error (users.collisions L)

end UsersTable

end OnlineAuction.Accounts
