import OnlineAuction.Library.Runs
import OnlineAuction.Library.Table
import OnlineAuction.Market.Records

/-! The registry of `app/services/websocket_manager.py`. A fan-out keeps the list
it has found and yields at every send, so a list is an object here and a key names one. -/

namespace OnlineAuction.Realtime

/-- A key of `active_connections` or of `user_connections`. -/
inductive Channel where
  | auction (auctionId : LotId)
  | user (userId : UserId)
  deriving DecidableEq

/-- The two dictionaries, and every list ever made. -/
structure ConnectionManager (Socket : Type) where
  connections : Channel → Option Nat
  lists : Table (List Socket)

/-- A call of `_fan_out` between two sends. `waiting` is what is left of its snapshot. -/
structure FanOut (Socket Message : Type) where
  key : Channel
  list : Nat
  message : Message
  waiting : List Socket
  dead : List Socket

variable {Socket Message : Type}

namespace ConnectionManager

def initial : ConnectionManager Socket := ⟨fun _ => none, .empty⟩

def bucket (m : ConnectionManager Socket) (key : Channel) : List Socket :=
  ((m.connections key).bind m.lists.get).getD []

/-- `registry.setdefault(key, []).append(websocket)`. -/
def append (m : ConnectionManager Socket) (websocket : Socket) (key : Channel) :
    ConnectionManager Socket :=
  match m.connections key with
  | some list => { m with lists := m.lists.modify list fun sockets => sockets ++ [websocket] }
  | none =>
      { connections := Function.update m.connections key (some m.lists.serial)
        lists := m.lists.add fun _ => [websocket] }

/-- `if not bucket: registry.pop(key, None)`, for whichever list the caller holds. -/
def popIfEmpty (m : ConnectionManager Socket) (key : Channel) (list : Nat) :
    ConnectionManager Socket :=
  if ((m.lists.get list).getD []).isEmpty then
    { m with connections := Function.update m.connections key none }
  else m

variable [DecidableEq Socket]

def remove (m : ConnectionManager Socket) (websocket : Socket) (key : Channel) :
    ConnectionManager Socket :=
  match m.connections key with
  | none => m
  | some list =>
      if (m.bucket key).isEmpty then m
      else
        let m := { m with lists := m.lists.modify list fun sockets => sockets.erase websocket }
        m.popIfEmpty key list

def connect (m : ConnectionManager Socket) (websocket : Socket) (auctionId : LotId) :
    ConnectionManager Socket := m.append websocket (.auction auctionId)

def connectUser (m : ConnectionManager Socket) (websocket : Socket) (userId : UserId) :
    ConnectionManager Socket := m.append websocket (.user userId)

def disconnect (m : ConnectionManager Socket) (websocket : Socket) (auctionId : LotId) :
    ConnectionManager Socket := m.remove websocket (.auction auctionId)

def disconnectUser (m : ConnectionManager Socket) (websocket : Socket) (userId : UserId) :
    ConnectionManager Socket := m.remove websocket (.user userId)

/-- `_fan_out` up to its first send; it returns at once when nobody is connected. -/
def fanOut (m : ConnectionManager Socket) (key : Channel) (message : Message) :
    Option (FanOut Socket Message) :=
  match m.connections key with
  | none => none
  | some list =>
      if (m.bucket key).isEmpty then none else some ⟨key, list, message, m.bucket key, []⟩

def broadcast (m : ConnectionManager Socket) (message : Message) (auctionId : LotId) :
    Option (FanOut Socket Message) := m.fanOut (.auction auctionId) message

def sendNotification (m : ConnectionManager Socket) (userId : UserId) (message : Message) :
    Option (FanOut Socket Message) := m.fanOut (.user userId) message

def pruned (m : ConnectionManager Socket) (f : FanOut Socket Message) : List Socket :=
  f.dead.foldl List.erase ((m.lists.get f.list).getD [])

/-- The end of `_fan_out`, after its last send. -/
def prune (m : ConnectionManager Socket) (f : FanOut Socket Message) : ConnectionManager Socket :=
  let m := { m with lists := m.lists.modify f.list fun sockets => f.dead.foldl List.erase sockets }
  m.popIfEmpty f.key f.list

end ConnectionManager

/-- The next send has been answered, or has raised or timed out. -/
def FanOut.next (f : FanOut Socket Message) (sent : Bool) : FanOut Socket Message :=
  { f with
    waiting := f.waiting.tail
    dead := if sent then f.dead else f.dead ++ f.waiting.head?.toList }

namespace ConnectionManager

/-- A registered list is not empty, and is registered under one key. -/
structure Sound (m : ConnectionManager Socket) : Prop where
  filled : ∀ key list, m.connections key = some list →
    ∃ sockets, m.lists.get list = some sockets ∧ sockets ≠ []
  apart : ∀ key key' list, m.connections key = some list → m.connections key' = some list →
    key = key'

variable {m : ConnectionManager Socket}

theorem bucket_of_connections {key : Channel} {list : Nat} (hKey : m.connections key = some list) :
    m.bucket key = (m.lists.get list).getD [] := by
  simp [bucket, hKey]

theorem bucket_of_none {key : Channel} (hKey : m.connections key = none) : m.bucket key = [] := by
  simp [bucket, hKey]

theorem Sound.bucket_ne_nil (h : m.Sound) {key : Channel} {list : Nat}
    (hKey : m.connections key = some list) : m.bucket key ≠ [] := by
  obtain ⟨sockets, hList, hFilled⟩ := h.filled key list hKey
  rw [bucket_of_connections hKey, hList]
  exact hFilled

/-- A list that no key names may change without any bucket changing. -/
theorem bucket_modify_other {key : Channel} {list : Nat} (hKey : m.connections key ≠ some list)
    (write : List Socket → List Socket) (connections : Channel → Option Nat)
    (hSame : connections key = m.connections key) :
    (ConnectionManager.mk connections (m.lists.modify list write)).bucket key = m.bucket key := by
  cases hFound : m.connections key with
  | none => simp [bucket, hSame, hFound]
  | some other =>
      have hOther : other ≠ list := fun hEq => hKey (hFound.trans (congrArg some hEq))
      simp [bucket, hSame, hFound, Table.get_modify_other _ _ hOther]

theorem initial_sound : (initial : ConnectionManager Socket).Sound where
  filled _ _ hKey := by cases hKey
  apart _ _ _ hKey := by cases hKey

theorem append_connections (websocket : Socket) {key key' : Channel} {list : Nat}
    (hKey : (m.append websocket key).connections key' = some list) :
    m.connections key' = some list ∨ key' = key ∧ m.connections key = none ∧
      list = m.lists.serial := by
  cases hFound : m.connections key with
  | some found =>
      simp only [append, hFound] at hKey
      exact .inl hKey
  | none =>
      simp only [append, hFound] at hKey
      by_cases hSame : key' = key
      · subst hSame
        rw [Function.update_self, Option.some.injEq] at hKey
        exact .inr ⟨rfl, rfl, hKey.symm⟩
      · rw [Function.update_of_ne hSame] at hKey
        exact .inl hKey

/-- A new socket is the last of its bucket. -/
theorem Sound.bucket_append (h : m.Sound) (websocket : Socket) (key key' : Channel) :
    (m.append websocket key).bucket key' =
      if key' = key then m.bucket key ++ [websocket] else m.bucket key' := by
  cases hFound : m.connections key with
  | some list =>
      simp only [append, hFound]
      split_ifs with hSame
      · subst hSame
        obtain ⟨sockets, hList, _⟩ := h.filled key' list hFound
        simp [bucket, hFound, hList]
      · apply bucket_modify_other _ _ _ rfl
        exact fun hKey' => hSame (h.apart key' key list hKey' hFound)
  | none =>
      simp only [append, hFound]
      split_ifs with hSame
      · subst hSame
        simp [bucket, hFound]
      · cases hKey' : m.connections key' with
        | none => simp [bucket, hSame, hKey']
        | some list =>
            obtain ⟨sockets, hList, _⟩ := h.filled key' list hKey'
            have hOld : list ≠ m.lists.serial := (Table.lt_serial hList).ne
            simp [bucket, hSame, hKey', hList, hOld]

/-- A new socket keeps the registry sound. -/
theorem Sound.append (h : m.Sound) (websocket : Socket) (key : Channel) :
    (m.append websocket key).Sound where
  filled key' list hKey' := by
    cases hFound : m.connections key with
    | some found =>
        simp only [ConnectionManager.append, hFound] at hKey' ⊢
        obtain ⟨sockets, hList, hFilled⟩ := h.filled key' list hKey'
        by_cases hSame : list = found
        · subst hSame
          exact ⟨sockets ++ [websocket], by simp [hList], by simp⟩
        · exact ⟨sockets, by rw [Table.get_modify_other _ _ hSame, hList], hFilled⟩
    | none =>
        rcases append_connections websocket hKey' with hOld | ⟨rfl, _, rfl⟩
        · obtain ⟨sockets, hList, hFilled⟩ := h.filled key' list hOld
          simp only [ConnectionManager.append, hFound]
          exact ⟨sockets, Table.get_add_old hList _, hFilled⟩
        · simp only [ConnectionManager.append, hFound]
          exact ⟨[websocket], by simp, by simp⟩
  apart key' key'' list hKey' hKey'' := by
    have hNew {k : Channel} (hOld : m.connections k = some m.lists.serial) : False := by
      obtain ⟨sockets, hList, _⟩ := h.filled k _ hOld
      exact absurd (Table.lt_serial hList) (lt_irrefl _)
    rcases append_connections websocket hKey' with hOld' | ⟨hSame', _, hSerial'⟩
    · rcases append_connections websocket hKey'' with hOld'' | ⟨_, _, rfl⟩
      · exact h.apart _ _ _ hOld' hOld''
      · exact (hNew hOld').elim
    · rcases append_connections websocket hKey'' with hOld'' | ⟨hSame'', _⟩
      · exact (hNew (hSerial' ▸ hOld'')).elim
      · exact hSame'.trans hSame''.symm

/-- A list is rewritten, and `key` dropped when that leaves it empty. -/
def rewrite (m : ConnectionManager Socket) (key : Channel) (list : Nat)
    (write : List Socket → List Socket) : ConnectionManager Socket :=
  popIfEmpty { m with lists := m.lists.modify list write } key list

theorem rewrite_connections {key key' : Channel} {list list' : Nat}
    {write : List Socket → List Socket}
    (hKey : (m.rewrite key list write).connections key' = some list') :
    m.connections key' = some list' := by
  simp only [rewrite, popIfEmpty] at hKey
  split_ifs at hKey
  · by_cases hSame : key' = key
    · subst hSame
      simp at hKey
    · simpa [hSame] using hKey
  · exact hKey

@[simp] theorem rewrite_serial (key : Channel) (list : Nat) (write : List Socket → List Socket) :
    (m.rewrite key list write).lists.serial = m.lists.serial := by
  simp only [rewrite, popIfEmpty]
  split_ifs <;> rfl

/-- The caller's list is the one its key names, or no other is lost by dropping it. -/
theorem bucket_rewrite {key : Channel} {list : Nat}
    {write : List Socket → List Socket} (hNil : write [] = [])
    (hOwner : ∀ key', m.connections key' = some list → key' = key)
    (hOwn : write ((m.lists.get list).getD []) = [] →
      ∀ named, m.connections key = some named → named = list)
    (key' : Channel) :
    (m.rewrite key list write).bucket key' =
      if m.connections key' = some list then write (m.bucket key') else m.bucket key' := by
  have hWritten : ((m.lists.modify list write).get list).getD [] =
      write ((m.lists.get list).getD []) := by
    cases hList : m.lists.get list <;> simp [hList, hNil]
  split_ifs with hKey
  · obtain rfl := hOwner key' hKey
    rw [bucket_of_connections hKey]
    simp only [rewrite, popIfEmpty, hWritten]
    split_ifs with hEmpty
    · simp [bucket, List.isEmpty_iff.mp hEmpty]
    · rw [bucket_of_connections (by exact hKey), hWritten]
  · simp only [rewrite, popIfEmpty, hWritten]
    split_ifs with hEmpty
    · by_cases hSame : key' = key
      · subst hSame
        cases hFound : m.connections key' with
        | none => simp [bucket, hFound]
        | some named => exact absurd (hOwn (List.isEmpty_iff.mp hEmpty) named hFound ▸ hFound) hKey
      · exact bucket_modify_other hKey write _ (Function.update_of_ne hSame _ _)
    · exact bucket_modify_other hKey write _ rfl

/-- Whatever a rewrite takes out or drops, it adds nobody to a bucket. -/
theorem bucket_rewrite_sublist {key : Channel} {list : Nat} {write : List Socket → List Socket}
    (hWrite : ∀ sockets, (write sockets).Sublist sockets) (key' : Channel) :
    ((m.rewrite key list write).bucket key').Sublist (m.bucket key') := by
  cases hKey : (m.rewrite key list write).connections key' with
  | none =>
      rw [bucket_of_none hKey]
      exact List.nil_sublist _
  | some list' =>
      have hLists : (m.rewrite key list write).lists = m.lists.modify list write := by
        simp only [rewrite, popIfEmpty]
        split_ifs <;> rfl
      rw [bucket_of_connections hKey, bucket_of_connections (rewrite_connections hKey), hLists]
      by_cases hSame : list' = list
      · subst hSame
        rw [Table.get_modify_self]
        cases m.lists.get list' with
        | none => exact List.Sublist.refl _
        | some sockets => exact hWrite sockets
      · rw [Table.get_modify_other _ _ hSame]

/-- Rewriting a list of one key keeps the registry sound. -/
theorem Sound.rewrite (h : m.Sound) {key : Channel} {list : Nat}
    {write : List Socket → List Socket}
    (hOwner : ∀ key', m.connections key' = some list → key' = key) :
    (m.rewrite key list write).Sound where
  filled key' list' hKey' := by
    have hNamed := rewrite_connections hKey'
    obtain ⟨sockets, hList, hFilled⟩ := h.filled key' list' hNamed
    simp only [ConnectionManager.rewrite, popIfEmpty] at hKey' ⊢
    split_ifs at hKey' ⊢ with hEmpty
    · have hOther : list' ≠ list := by
        rintro rfl
        obtain rfl := hOwner key' hNamed
        simp at hKey'
      exact ⟨sockets, by rw [Table.get_modify_other _ _ hOther, hList], hFilled⟩
    · by_cases hSame : list' = list
      · subst hSame
        refine ⟨write sockets, by simp [hList], fun hNone => hEmpty ?_⟩
        simp [hList, hNone]
      · exact ⟨sockets, by rw [Table.get_modify_other _ _ hSame, hList], hFilled⟩
  apart key' key'' list' hKey' hKey'' :=
    h.apart key' key'' list' (rewrite_connections hKey') (rewrite_connections hKey'')

variable [DecidableEq Socket]

theorem Sound.remove_eq (h : m.Sound) (websocket : Socket) (key : Channel) :
    m.remove websocket key = match m.connections key with
      | none => m
      | some list => m.rewrite key list fun sockets => sockets.erase websocket := by
  cases hKey : m.connections key with
  | none => simp only [remove, hKey]
  | some list =>
      have hFilled : ¬(m.bucket key).isEmpty = true := by
        rw [List.isEmpty_iff]
        exact h.bucket_ne_nil hKey
      simp only [remove, hKey, if_neg hFilled]
      rfl

/-- A removed socket is gone from its bucket alone. -/
theorem Sound.bucket_remove (h : m.Sound) (websocket : Socket) (key key' : Channel) :
    (m.remove websocket key).bucket key' =
      if key' = key then (m.bucket key).erase websocket else m.bucket key' := by
  rw [h.remove_eq]
  cases hKey : m.connections key with
  | none =>
      split_ifs with hSame
      · simp [hSame, bucket_of_none hKey]
      · rfl
  | some list =>
      have hOwner : ∀ k, m.connections k = some list → k = key :=
        fun k hk => h.apart k key list hk hKey
      simp only []
      rw [bucket_rewrite rfl hOwner fun _ named hNamed => by simpa [hKey] using hNamed.symm]
      by_cases hSame : key' = key
      · simp [hSame, hKey]
      · rw [if_neg fun hk => hSame (hOwner key' hk), if_neg hSame]

/-- A removed socket keeps the registry sound. -/
theorem Sound.remove (h : m.Sound) (websocket : Socket) (key : Channel) :
    (m.remove websocket key).Sound := by
  rw [h.remove_eq]
  cases hKey : m.connections key with
  | none => exact h
  | some list => exact h.rewrite fun k hk => h.apart k key list hk hKey

theorem Sound.remove_connections (h : m.Sound) {websocket : Socket} {key key' : Channel}
    {list : Nat} (hKey' : (m.remove websocket key).connections key' = some list) :
    m.connections key' = some list := by
  rw [h.remove_eq] at hKey'
  cases hKey : m.connections key with
  | none => simpa [hKey] using hKey'
  | some found =>
      simp only [hKey] at hKey'
      exact rewrite_connections hKey'

theorem Sound.remove_serial (h : m.Sound) (websocket : Socket) (key : Channel) :
    (m.remove websocket key).lists.serial = m.lists.serial := by
  rw [h.remove_eq]
  cases m.connections key with
  | none => rfl
  | some list => exact rewrite_serial _ _ _

/-- Pruning removes the dead sockets from the list of the fan-out. -/
theorem prune_eq (f : FanOut Socket Message) :
    m.prune f = m.rewrite f.key f.list fun sockets => f.dead.foldl List.erase sockets := rfl

theorem foldl_erase_nil (dead : List Socket) : dead.foldl List.erase ([] : List Socket) = [] := by
  induction dead with
  | nil => rfl
  | cons connection rest ih => exact ih

theorem foldl_erase_sublist (dead sockets : List Socket) :
    (dead.foldl List.erase sockets).Sublist sockets := by
  induction dead generalizing sockets with
  | nil => exact List.Sublist.refl _
  | cons connection rest ih => exact (ih _).trans List.erase_sublist

/-- Sockets that are not dead stay. -/
theorem mem_foldl_erase {dead sockets : List Socket} {socket : Socket} (hIn : socket ∈ sockets)
    (hNot : socket ∉ dead) : socket ∈ dead.foldl List.erase sockets := by
  induction dead generalizing sockets with
  | nil => exact hIn
  | cons connection rest ih =>
      obtain ⟨hNe, hRest⟩ := (not_or.mp (List.mem_cons.not.mp hNot))
      apply ih _ hRest
      exact (List.mem_erase_of_ne hNe).mpr hIn

end ConnectionManager

end OnlineAuction.Realtime
