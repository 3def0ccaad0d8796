import OnlineAuction.Accounts.Logins
import OnlineAuction.Transactions.LockOrder

/-! All transactions that lock rows by `SELECT … FOR UPDATE`, over one database:
the lots and the users that they lock are the same rows. Whatever they do at the
same time, none of them waits for itself. -/

namespace OnlineAuction.Transactions

open RowLocks Accounts Uploads

inductive RowKey where
  | auction (id : LotId)
  | user (id : ℤ)
  deriving DecidableEq

/-- The tables, and the columns of `users`, as each group of handlers models
them. -/
structure Database where
  market : Db
  accounts : Backend
  uploads : UserId → Option UploadWindow

def marketKey : Key → RowKey
  | .lot id => .auction id
  | .user id => .user id

def Database.hasUser (d : Database) : ℤ → Bool
  | .ofNat id => (d.market.users.get id).isSome || (d.accounts.users.get id).isSome ||
      (d.uploads id).isSome
  | .negSucc _ => false

abbrev database : Store where
  State := Database
  Key := RowKey
  Time := Time
  Note := Unit
  Error := HTTPException
  keyEq := inferInstance
  hasRow d
    | .auction id => (d.market.auctions.get id).isSome
    | .user id => d.hasUser id
  admits d := d.market.admits
  readable _ _ := true
  observe held t d :=
    { d with market := OnlineAuction.market.observe (fun key => held (marketKey key)) t d.market }

def inMarket : Embedding market database where
  view := Database.market
  put m d := { d with market := m }
  key := marketKey
  time := id
  note _ := ()
  error := id

def inAccounts : Embedding accounts database where
  view := Database.accounts
  put b d := { d with accounts := b }
  key := RowKey.user
  time := id
  note _ := ()
  error := id

def inUploads : Embedding Uploads.uploads database where
  view := Database.uploads
  put u d := { d with uploads := u }
  key userId := RowKey.user userId
  time := id
  note _ := ()
  error := id

/-- A transaction that calls `lock_users_by_id` with any arguments. -/
def lockUsers (userIds : List (Option UserId)) : Prog market Unit := do
  let _ ← lockUsersById userIds.reduceOption
  let _ ← OnlineAuction.commit id

inductive Transaction (S : Settings) where
  | market (request : Request)
  | account (process : Nat) (operation : Operation S)
  | upload (userId : UserId) (size : Nat)
  | lockUsers (userIds : List (Option UserId))

variable {S : Settings} {percent : CommissionPercent}

def run (S : Settings) (percent : CommissionPercent) : Transaction S → Prog database Unit
  | .market request => (OnlineAuction.handle percent request).embed inMarket
  | .account process operation => (Accounts.handle S process operation).embed inAccounts
  | .upload userId size => (Uploads.upload userId size).embed inUploads
  | .lockUsers userIds => (lockUsers userIds).embed inMarket

/-- A lot before any user, a user before the users with a larger id. -/
inductive RowKey.Before : RowKey → RowKey → Prop where
  | auctionUser (auctionId : LotId) (userId : ℤ) : RowKey.Before (.auction auctionId) (.user userId)
  | userUser {userId userId' : ℤ} (hLess : userId < userId') :
      RowKey.Before (.user userId) (.user userId')

namespace RowKey.Before

theorem irrefl (key : RowKey) : ¬key.Before key := by
  intro h
  cases h with
  | userUser hLess => exact lt_irrefl _ hLess

theorem trans (a b d : RowKey) (h : a.Before b) (h' : b.Before d) : a.Before d := by
  cases h with
  | auctionUser auctionId userId =>
      cases h' with
      | userUser => exact .auctionUser auctionId _
  | userUser hLess =>
      cases h' with
      | userUser hLess' => exact .userUser (hLess.trans hLess')

/-- The order of the marketplace is part of the order of all rows. -/
theorem of_market {key key' : Key} (h : key.Before key') :
    (marketKey key).Before (marketKey key') := by
  cases h with
  | lotUser auctionId userId => exact .auctionUser auctionId userId
  | userUser hLess => exact .userUser (Int.ofNat_lt.mpr hLess)

/-- Rows in this order: at most one lot, then users in strictly ascending order. -/
theorem split {keys : List RowKey} (h : keys.Pairwise RowKey.Before) :
    ∃ (auctions : List LotId) (users : List ℤ),
      keys = auctions.map RowKey.auction ++ users.map RowKey.user ∧ auctions.length ≤ 1 ∧
        users.Pairwise (· < ·) := by
  induction keys with
  | nil => exact ⟨[], [], rfl, Nat.zero_le 1, .nil⟩
  | cons key rest ih =>
      obtain ⟨hFirst, hRest⟩ := List.pairwise_cons.mp h
      obtain ⟨auctions, users, rfl, _, hUsers⟩ := ih hRest
      have hNone : auctions = [] := by
        cases auctions with
        | nil => rfl
        | cons auctionId _ => cases hFirst (.auction auctionId) (by simp)
      subst hNone
      cases key with
      | auction auctionId => exact ⟨[auctionId], users, rfl, le_rfl, hUsers⟩
      | user userId =>
          refine ⟨[], userId :: users, rfl, Nat.zero_le 1, List.pairwise_cons.mpr ⟨?_, hUsers⟩⟩
          intro other hOther
          cases hFirst (.user other) (by simp [hOther]) with
          | userUser hLess => exact hLess

end RowKey.Before

theorem lockUsers_follows (userIds : List (Option UserId)) :
    (ascending Key.Before).Follows (lockUsers userIds) (fun _ _ => True) [] := by
  unfold lockUsers
  rw [Typestate.follows_bind]
  apply follows_lockUsersById _ (.inl rfl)
  intro locked requested
  rw [Typestate.follows_bind, OnlineAuction.follows_commit]
  exact ⟨trivial, fun _ => trivial⟩

/-- Every transaction locks in ascending order. -/
theorem run_follows (transaction : Transaction S) :
    (ascending RowKey.Before).Follows (run S percent transaction) (fun _ _ => True) [] := by
  cases transaction with
  | market request => exact follows_embed inMarket .of_market (OnlineAuction.handle_ascends request)
  | account process operation =>
      exact follows_embed inAccounts .userUser (Accounts.handle_ascends process operation)
  | upload userId size =>
      exact follows_embed inUploads (fun hLess => .userUser (Int.ofNat_lt.mpr hLess))
        (upload_follows userId size)
  | lockUsers userIds => exact follows_embed inMarket .of_market (lockUsers_follows userIds)

/-- The database with the rows that each session has requested in the
transaction it is in. -/
abbrev Transacting := Config database × (Nat → Option (List RowKey))

def Transacting.initial (d : Database) : Transacting := (.initial d, fun _ => none)

def transact (S : Settings) (percent : CommissionPercent) :
    Transacting → Action database (Transaction S) → Option Transacting :=
  Runs.recording (advance (run S percent)) fun requested c a _ =>
    (ascending RowKey.Before).track (fun _ => []) requested c a

/-- Who waits for whom, what each session has requested and what it holds. -/
structure Orderly (S : Settings) (percent : CommissionPercent) (s : Transacting) : Prop where
  noDeadlock : ∀ sid, ¬Relation.TransGen (WaitsFor s.1) sid sid
  ordered : ∀ sid key note next, s.1.sessions sid = some (.lock key note next) →
    ∃ (auctions : List LotId) (users : List ℤ),
      (s.2 sid).getD [] ++ [key] = auctions.map RowKey.auction ++ users.map RowKey.user ∧
        auctions.length ≤ 1 ∧ users.Pairwise (· < ·)
  requested : ∀ sid key, s.1.locks key = some sid → key ∈ (s.2 sid).getD []
  kept : ∀ a s', transact S percent s a = some s' → ∀ sid key, s.1.locks key = some sid →
    s'.1.locks key = some sid ∨ Ends s.1 a sid

/-- Of any number of transactions, however they interleave, none waits for itself
through others: each requests at most one lot, before any user, then users in
strictly ascending order of their ids, and keeps what it was granted until it
commits or rolls back. -/
theorem transactions_orderly {start : Database} {s : Transacting}
    (reached : Runs.Reaches (transact S percent) (fun _ _ => True) (.initial start) s) :
    Orderly S percent s := by
  have hKnows : (ascending RowKey.Before).Knows (fun _ => True) Requested s.2 s.1 :=
    (Typestate.Knows.run (V := id) (J := fun _ => True) (fun _ _ _ _ => rfl)
      (ascending_outline RowKey.Before) run_follows (fun _ _ _ _ => trivial) (.initial trivial)
      trivial reached).1
  constructor
  · exact not_waitsFor_self RowKey.Before.irrefl RowKey.Before.trans hKnows
  · intro sid key note next hSession
    obtain ⟨requested, hState, hFollows⟩ := hKnows.within sid _ hSession
    rw [hState]
    exact RowKey.Before.split hFollows.1
  · intro sid key hLock
    have hHeld : s.1.held sid key = true := by simpa [Config.held] using hLock
    cases hSession : s.1.sessions sid with
    | none =>
        rw [hKnows.idle sid hSession] at hHeld
        cases hHeld
    | some p =>
        obtain ⟨requested, hState, _⟩ := hKnows.within sid p hSession
        rw [hState]
        exact hKnows.holds sid p requested hSession hState key hHeld
  · intro a s' hMoves sid key hLock
    obtain ⟨c', moves, rfl⟩ := Option.map_eq_some_iff.mp hMoves
    have hOutline : (ascending (S := database) RowKey.Before).Outline
        (fun _ : Transaction S => []) (fun _ => True) Requested := ascending_outline _
    exact lock_kept_or_ends (hKnows.turn hOutline run_follows moves).1 hLock

/-- An account that has uploaded nothing yet. -/
def start : Database := ⟨Db.initial [], Backend.initial [alice], fun _ => some ⟨0, none⟩⟩

/-- Session 1 locks Alice's row to reset her password. Session 2 waits for it to
charge an upload, and session 3, which locks two users, to go on to the second. -/
def waiting : List (Action database (Transaction plainSettings)) :=
  [.start 1 (.account 0 (.passwordResetConfirm
      ⟨createPasswordResetToken plainSettings 0 alice, newPassword, 0⟩)), .clock 1 0, .step 1,
    .start 2 (.upload 1 100), .step 2,
    .start 3 (.lockUsers [some 1, none, some 0, some 1]), .step 3]

/-- Session 1 holds the row of user 1 while session 3 has asked for that of
user 0. -/
theorem transactions_orderly_waiting : ∃ s : Transacting,
    (s.1.locks (.user 1) = some 1 ∧ s.2 3 = some [.user 0]) ∧
      Orderly plainSettings defaultCommission s := by
  obtain ⟨s, reached, hWaiting⟩ := Runs.exists_reaches (transact plainSettings defaultCommission)
    (fun _ _ => True) (.initial start) waiting
    (fun s => s.1.locks (.user 1) = some 1 ∧ s.2 3 = some [.user 0]) (by decide +kernel)
  exact ⟨s, hWaiting, transactions_orderly reached⟩

end OnlineAuction.Transactions
