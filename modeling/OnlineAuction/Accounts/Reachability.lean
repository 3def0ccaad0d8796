import OnlineAuction.Accounts.Registration

/-! Whether every account can still be reached once the usernames are lower-cased:
`login`, `password_reset_request` and `register` all look up what they have
lower-cased, and the migration has left the addresses as they were. -/

namespace OnlineAuction.Accounts

variable (L : Lowering) (S : Settings)

/-- Whatever case is typed, the lookups find the account, and nobody else takes its
username or its address. -/
structure Reachable (users : UsersTable) : Prop where
  login : ∀ id row, users.rows.get id = some row →
    ∀ typed, L.lower typed = L.lower row.username →
      users.backend.userByUsername (normalizeUsername L typed) = some row
  passwordReset : ∀ id row, users.rows.get id = some row → ∀ sentAt,
    ∀ typed, L.lower typed = L.lower row.email →
      (users.resets S sentAt).userByEmail (normalizeEmail L typed) = some ⟨row, sentAt id⟩
  register : ∀ id row, users.rows.get id = some row → ∀ user : UserCreate,
    L.lower user.username = L.lower row.username ∨ L.lower user.email = L.lower row.email →
      register L S users user = .error ⟨400, userExistsDetail⟩

namespace UsersTable

variable {L} {users : UsersTable} {id : UserId} {row : User}

/-- The login finds a user under the stored name. -/
theorem userByUsername_backend (h : users.rows.get id = some row) :
    users.backend.userByUsername row.username = some row := by
  apply Table.find?_of_sole h (decide_eq_true rfl)
  intro other found hOther hSame
  exact users.usernames other id found row hOther h (of_decide_eq_true hSame)

/-- The reset finds a user under the stored address. -/
theorem userByEmail_resets (h : users.rows.get id = some row) (sentAt : UserId → Option Time) :
    (users.resets S sentAt).userByEmail row.email = some ⟨row, sentAt id⟩ := by
  have hStored : (users.resets S sentAt).users.get id = some ⟨row, sentAt id⟩ := by
    simp [resets, h]
  apply Table.find?_of_sole hStored (decide_eq_true rfl)
  intro other found hOther hSame
  obtain ⟨user, hUser, rfl⟩ := Option.map_eq_some_iff.mp hOther
  exact users.emails other id user row hUser h (of_decide_eq_true hSame)

theorem email_of_userByEmail {d : Resets.State S} {email : String} {found : Resets.Account}
    (h : d.userByEmail email = some found) : found.user.email = email := by
  simpa using List.find?_some h

/-- A condition that some account meets is answered with a number, which is not zero. -/
theorem selectId_truthy (h : users.rows.get id = some row) {condition : User → Bool}
    (hRow : condition row = true) : (users.selectId condition).any (· ≠ 0) = true := by
  obtain ⟨found, hFound⟩ :=
    Option.isSome_iff_exists.mp (List.find?_isSome.mpr ⟨row, mem_stored h, hRow⟩)
  obtain ⟨other, _, hOther⟩ := List.mem_filterMap.mp (List.mem_of_find?_eq_some hFound)
  obtain ⟨hId, hPos⟩ := users.ids other found hOther
  have hNonzero : found.id ≠ 0 := hId ▸ Nat.pos_iff_ne_zero.mp hPos
  simp [selectId, hFound, hNonzero]

/-- The migration succeeds exactly when no two names collide. -/
theorem upgrade_succeeds_iff : (∃ after, users.upgrade L = .ok after) ↔ users.collisions L = [] := by
  unfold upgrade
  split_ifs with hApart
  · exact iff_of_true ⟨_, rfl⟩ hApart
  · exact iff_of_false (fun ⟨_, hOk⟩ => by cases hOk) hApart

theorem rows_upgrade {before after : UsersTable} (h : before.upgrade L = .ok after) :
    after.rows = before.rows.mapRows fun _ row => foldUsername L row := by
  unfold upgrade at h
  split_ifs at h
  cases h
  rfl

end UsersTable

/-- After a migration that succeeds, every account can be reached exactly where all
addresses were in lower case before. -/
theorem accounts_reachable_iff {before after : UsersTable} (h : before.upgrade L = .ok after) :
    Reachable L S after ↔
      ∀ id row, before.rows.get id = some row → L.lower row.email = row.email := by
  have hRows := UsersTable.rows_upgrade h
  constructor
  · intro hReach id row hRow
    have hFolded : after.rows.get id = some (UsersTable.foldUsername L row) := by
      simp [hRows, hRow]
    have hFound := hReach.passwordReset id _ hFolded (fun _ => none) row.email (by simp)
    simpa [normalizeEmail] using (UsersTable.email_of_userByEmail S hFound).symm
  · intro hLower
    have hNormal : ∀ id row, after.rows.get id = some row →
        L.lower row.username = row.username ∧ L.lower row.email = row.email := by
      intro id row hRow
      rw [hRows] at hRow
      obtain ⟨old, hOld, rfl⟩ := Option.map_eq_some_iff.mp hRow
      simpa [L.lower_lower] using hLower id old hOld
    constructor
    · intro id row hRow typed hTyped
      rw [normalizeUsername, hTyped, (hNormal id row hRow).1]
      exact UsersTable.userByUsername_backend hRow
    · intro id row hRow sentAt typed hTyped
      rw [normalizeEmail, hTyped, (hNormal id row hRow).2]
      exact UsersTable.userByEmail_resets S hRow sentAt
    · intro id row hRow user hSame
      have hTaken : ((after.selectId fun other =>
            other.username = normalizeUsername L user.username).any (· ≠ 0) ||
          (after.selectId fun other => other.email = normalizeEmail L user.email).any (· ≠ 0)) =
          true := by
        rw [Bool.or_eq_true]
        cases hSame with
        | inl hUsername =>
            left
            apply UsersTable.selectId_truthy hRow
            rw [normalizeUsername, hUsername, (hNormal id row hRow).1, decide_eq_true rfl]
        | inr hEmail =>
            right
            apply UsersTable.selectId_truthy hRow
            rw [normalizeEmail, hEmail, (hNormal id row hRow).2, decide_eq_true rfl]
      simp only [register, hTaken, if_true]

def UsersTable.single (user : User) : UsersTable :=
  have hOnly {id : UserId} {row : User} (hRow : (Backend.initial [user]).users.get id = some row) :
      id = 1 ∧ row.id = 1 := by
    cases id with
    | zero => cases hRow
    | succ n =>
        cases n with
        | zero =>
            cases hRow
            exact ⟨rfl, rfl⟩
        | succ n => cases hRow
  { rows := (Backend.initial [user]).users
    ids := fun id row hRow => by
      obtain ⟨rfl, hId⟩ := hOnly hRow
      exact ⟨hId, Nat.one_pos⟩
    started := Nat.succ_pos _
    usernames := fun _ _ _ _ hRow hRow' _ => (hOnly hRow).1.trans (hOnly hRow').1.symm
    emails := fun _ _ _ _ hRow hRow' _ => (hOnly hRow).1.trans (hOnly hRow').1.symm }

/-- Registered before names and addresses were lower-cased. -/
def erin : User := ⟨1, "Erin", "erin@example.org", "hash", 0, 0, none⟩

/-- The table with Erin alone is reachable after the migration. -/
theorem accounts_reachable_erin : ∃ after : UsersTable,
    (UsersTable.single erin).upgrade latinCyrillic = .ok after ∧
      Reachable latinCyrillic plainSettings after := by
  obtain ⟨after, hUpgrade⟩ : ∃ after, (UsersTable.single erin).upgrade latinCyrillic = .ok after :=
    UsersTable.upgrade_succeeds_iff.mpr (by decide +kernel)
  refine ⟨after, hUpgrade, (accounts_reachable_iff latinCyrillic plainSettings hUpgrade).mpr ?_⟩
  have hLower : ∀ id < (UsersTable.single erin).rows.serial,
      ∀ row ∈ (UsersTable.single erin).rows.get id,
        latinCyrillic.lower row.email = row.email := by
    decide +kernel
  exact fun id row hRow => hLower id (Table.lt_serial hRow) row hRow

def capitalErin : User := { erin with email := "Erin@example.org" }

/-- A link is asked for with the very address that is stored. -/
theorem accounts_unreachable : ¬∀ (L : Lowering) (S : Settings) (before after : UsersTable),
    before.upgrade L = .ok after → Reachable L S after := by
  intro hAll
  obtain ⟨after, hUpgrade⟩ :
      ∃ after, (UsersTable.single capitalErin).upgrade latinCyrillic = .ok after :=
    UsersTable.upgrade_succeeds_iff.mpr (by decide +kernel)
  have hReach := hAll latinCyrillic plainSettings _ after hUpgrade
  have hStored : after.rows.get 1 = some (UsersTable.foldUsername latinCyrillic capitalErin) := by
    rw [UsersTable.rows_upgrade hUpgrade]
    rfl
  have hFound := hReach.passwordReset 1 _ hStored (fun _ => none) "Erin@example.org"
    (by rw [UsersTable.foldUsername_email]; rfl)
  have hEmail := UsersTable.email_of_userByEmail plainSettings hFound
  rw [UsersTable.foldUsername_email] at hEmail
  revert hEmail
  decide +kernel

end OnlineAuction.Accounts
