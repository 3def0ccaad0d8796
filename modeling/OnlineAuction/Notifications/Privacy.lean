import OnlineAuction.Library.Noninterference
import OnlineAuction.Notifications.Feed

/-! What a user sees of his notifications does not depend on what the other users do
with theirs. -/

namespace OnlineAuction.Notifications.Feed

open RowLocks

variable {d d' : State} {userId other : UserId} {id : Nat}

/-- Of the other users' notifications he sees how many there have been: his own are
numbered among them. -/
structure Inbox where
  users : Nat
  serial : Nat
  rows : Nat → Option Notification
  answers : List Answer

def State.inbox (userId : UserId) (d : State) : Inbox where
  users := d.users
  serial := d.notifications.serial
  rows id := d.find id userId
  answers := (d.answers.filter fun row => row.1 = userId).map (·.2)

/-- An update that changes no owner is seen by whoever saw the row. -/
theorem find_updateRows {f : Nat → Notification → Notification}
    (hOwner : ∀ id row, (f id row).userId = row.userId) (d : State) (id : Nat) (userId : UserId) :
    (d.updateRows f).find id userId = (d.find id userId).map (f id) := by
  unfold State.find State.updateRows
  rw [Table.get_mapRows]
  cases d.notifications.get id with
  | none => rfl
  | some row =>
      rw [Option.map_some, Option.filter_some, Option.filter_some, hOwner]
      split_ifs <;> rfl

/-- An update that changes no owner changes every inbox row by row. -/
theorem inbox_updateRows {f : Nat → Notification → Notification}
    (hOwner : ∀ id row, (f id row).userId = row.userId) (d : State) (userId : UserId) :
    (d.updateRows f).inbox userId =
      { d.inbox userId with rows := fun id => ((d.inbox userId).rows id).map (f id) } := by
  unfold State.inbox
  simp only [find_updateRows hOwner]
  rfl

/-- An update that leaves a user's rows as they are. -/
theorem inbox_updateRows_same {f : Nat → Notification → Notification}
    (hOwner : ∀ id row, (f id row).userId = row.userId)
    (hSame : ∀ id row, d.find id userId = some row → f id row = row) :
    (d.updateRows f).inbox userId = d.inbox userId := by
  have hRows : (fun id => ((d.inbox userId).rows id).map (f id)) = (d.inbox userId).rows := by
    funext id
    show (d.find id userId).map (f id) = d.find id userId
    cases hRow : d.find id userId with
    | none => rfl
    | some row => rw [Option.map_some, hSame id row hRow]
  rw [inbox_updateRows hOwner, hRows]

/-- A new row is seen in the inbox of its owner alone. -/
theorem inbox_insert (d : State) (row : NewNotification) (createdAt : Time) (userId : UserId) :
    (d.insert row createdAt).inbox userId =
      { d.inbox userId with
        serial := (d.inbox userId).serial + 1
        rows := fun id =>
          if id = (d.inbox userId).serial then
            (some ⟨row, id, false, createdAt⟩ : Option Notification).filter fun row =>
              row.userId = userId
          else (d.inbox userId).rows id } := by
  unfold State.inbox State.insert State.find
  simp only [Table.get_add, Table.serial_add, apply_ite (Option.filter _)]

/-- A deletion is seen in the inbox of the owner alone. -/
theorem inbox_delete (d : State) (key : Nat) (userId : UserId) :
    (d.delete key).inbox userId =
      { d.inbox userId with rows := fun id => if id = key then none else (d.inbox userId).rows id } := by
  unfold State.inbox State.delete State.find
  simp only [Table.get_erase, apply_ite (Option.filter _), Option.filter_none]
  rfl

/-- An answer is seen by the one who asked. -/
theorem inbox_answer (d : State) (answer : Answer) (userId other : UserId) :
    (d.answer userId answer).inbox other =
      { d.inbox other with
        answers := (d.inbox other).answers ++ if userId = other then [answer] else [] } := by
  unfold State.inbox State.answer
  by_cases hMine : userId = other
  · simp [hMine, State.find]
  · simp [hMine, State.find]

/-- What a user selects is read off the user's inbox. -/
theorem selected_eq (unreadOnly : Bool) (h : d.inbox userId = d'.inbox userId) :
    d.selected userId unreadOnly = d'.selected userId unreadOnly := by
  have hSerial : d.notifications.serial = d'.notifications.serial := congrArg Inbox.serial h
  have hRows : (fun id => d.find id userId) = fun id => d'.find id userId := congrArg Inbox.rows h
  unfold State.selected
  rw [hSerial, hRows]

/-- Inserted rows change equal inboxes equally. -/
theorem insertAll_eq (rows : List (NewNotification × Time)) (h : d.inbox userId = d'.inbox userId) :
    (d.insertAll rows).inbox userId = (d'.insertAll rows).inbox userId := by
  unfold State.insertAll
  induction rows generalizing d d' with
  | nil => exact h
  | cons row rest ih =>
      apply ih
      rw [inbox_insert, inbox_insert, h]

/-- A row keeps its owner, and its number is not given out again. -/
structure Keeps (d d' : State) : Prop where
  serial : d.notifications.serial ≤ d'.notifications.serial
  owner : ∀ id row', id < d.notifications.serial → d'.notifications.get id = some row' →
    ∃ row, d.notifications.get id = some row ∧ row.userId = row'.userId

structure Mine (userId : UserId) (id : Nat) (d : State) : Prop where
  numbered : id < d.notifications.serial
  owner : ∀ row, d.notifications.get id = some row → row.userId = userId

/-- Without a write every row keeps its owner. -/
theorem Keeps.of_same (h : d'.notifications = d.notifications) : Keeps d d' := by
  refine ⟨h ▸ le_rfl, fun id row' _ hRow => ⟨row', ?_, rfl⟩⟩
  rwa [← h]

/-- Owners kept twice are kept. -/
theorem Keeps.trans {d'' : State} (h : Keeps d d') (h' : Keeps d' d'') : Keeps d d'' := by
  refine ⟨h.serial.trans h'.serial, fun id row'' hId hRow'' => ?_⟩
  obtain ⟨row', hRow', hOwner'⟩ := h'.owner id row'' (hId.trans_le h.serial) hRow''
  obtain ⟨row, hRow, hOwner⟩ := h.owner id row' hId hRow'
  exact ⟨row, hRow, hOwner.trans hOwner'⟩

/-- An update that changes no owner keeps the owners. -/
theorem keeps_updateRows {f : Nat → Notification → Notification}
    (hOwner : ∀ id row, (f id row).userId = row.userId) : Keeps d (d.updateRows f) := by
  refine ⟨le_rfl, fun id row' _ hRow => ?_⟩
  obtain ⟨row, hBefore, rfl⟩ := Option.map_eq_some_iff.mp hRow
  exact ⟨row, hBefore, (hOwner id row).symm⟩

/-- A deletion gives no row to anyone. -/
theorem keeps_delete (key : Nat) : Keeps d (d.delete key) := by
  refine ⟨le_rfl, fun id row' _ hRow => ⟨row', ?_, rfl⟩⟩
  simp only [State.delete, Table.get_erase] at hRow
  split_ifs at hRow
  exact hRow

/-- Inserts give no old row to anyone. -/
theorem keeps_insertAll (rows : List (NewNotification × Time)) : Keeps d (d.insertAll rows) := by
  unfold State.insertAll
  induction rows generalizing d with
  | nil => exact .of_same rfl
  | cons row rest ih =>
      refine Keeps.trans ⟨Nat.le_succ _, fun id row' hId hRow => ⟨row', ?_, rfl⟩⟩ ih
      simpa only [State.insert, Table.get_add, if_neg hId.ne] using hRow

/-- A row that is there later still belongs to its owner. -/
theorem Mine.later (h : Mine userId id d) (hKeeps : Keeps d d') : Mine userId id d' := by
  refine ⟨h.numbered.trans_le hKeeps.serial, fun row' hRow' => ?_⟩
  obtain ⟨row, hRow, hOwner⟩ := hKeeps.owner id row' h.numbered hRow'
  rw [← hOwner, h.owner row hRow]

/-- A row that a user finds is that user's own. -/
theorem Mine.of_find {row : Notification} (h : d.find id userId = some row) : Mine userId id d := by
  obtain ⟨hRow, hMine⟩ := Option.filter_eq_some_iff.mp h
  refine ⟨Table.lt_serial hRow, fun row' hRow' => ?_⟩
  rw [hRow, Option.some.injEq] at hRow'
  exact hRow' ▸ of_decide_eq_true hMine

/-- Nobody else finds it. -/
theorem Mine.find_other (h : Mine userId id d) (hOther : other ≠ userId) :
    d.find id other = none := by
  unfold State.find
  rw [Option.filter_eq_none_iff]
  intro row hRow hTheirs
  exact hOther ((of_decide_eq_true hTheirs).symm.trans (h.owner row hRow))

structure Private (reader : Option UserId) (d d' : State) : Prop extends Keeps d d' where
  unseen : ∀ userId, reader = some userId → ∀ other, other ≠ userId →
    d'.inbox other = d.inbox other

theorem owner_setRead (key id : Nat) (row : Notification) :
    (if id = key then { row with isRead := true } else row).userId = row.userId := by
  split_ifs <;> rfl

theorem owner_setAllRead (userId : UserId) (row : Notification) :
    (if row.userId = userId ∧ row.isRead = false then { row with isRead := true }
      else row).userId = row.userId := by
  split_ifs <;> rfl

theorem owner_unlink (auctionId : LotId) (row : Notification) :
    (if row.auctionId = some auctionId then
      ({ row with auctionId := none } : Notification) else row).userId = row.userId := by
  split_ifs <;> rfl

/-- Marking one's own row is private. -/
theorem private_setRead (h : Mine userId id d) : Private (some userId) d (d.setRead id) := by
  refine ⟨keeps_updateRows (owner_setRead id), fun _ hReader other hOther => ?_⟩
  obtain rfl := Option.some.inj hReader
  apply inbox_updateRows_same (owner_setRead id)
  intro id' row hRow
  rw [if_neg]
  rintro rfl
  rw [h.find_other hOther] at hRow
  cases hRow

/-- Marking all of one's rows is private. -/
theorem private_setAllRead : Private (some userId) d (d.setAllRead userId) := by
  have hOwner (_ : Nat) := owner_setAllRead userId
  refine ⟨keeps_updateRows hOwner, fun _ hReader other hOther => ?_⟩
  obtain rfl := Option.some.inj hReader
  apply inbox_updateRows_same hOwner
  intro id row hRow
  have hTheirs := of_decide_eq_true (Option.filter_eq_some_iff.mp hRow).2
  rw [if_neg]
  exact fun h => hOther (hTheirs.symm.trans h.1)

/-- Deleting one's own row is private. -/
theorem private_delete (h : Mine userId id d) : Private (some userId) d (d.delete id) := by
  refine ⟨keeps_delete id, fun _ hReader other hOther => ?_⟩
  obtain rfl := Option.some.inj hReader
  have hRows : (fun id' => if id' = id then none else (d.inbox other).rows id') =
      (d.inbox other).rows := by
    funext id'
    split_ifs with hId
    · exact hId ▸ (h.find_other hOther).symm
    · rfl
  rw [inbox_delete, hRows]

/-- An answer is private. -/
theorem private_answer (answer : Answer) : Private (some userId) d (d.answer userId answer) := by
  refine ⟨.of_same rfl, fun _ hReader other hOther => ?_⟩
  obtain rfl := Option.some.inj hReader
  rw [inbox_answer, if_neg hOther.symm, List.append_nil]

/-- What everybody sees is no request on a feed. -/
theorem Keeps.public (h : Keeps d d') : Private none d d' :=
  ⟨h, fun _ hReader => nomatch hReader⟩

theorem Private.refl (reader : Option UserId) (d : State) : Private reader d d :=
  ⟨.of_same rfl, fun _ _ _ _ => rfl⟩

def privacy : Discipline feeds where
  ok _ _ _ := True
  inv _ := True
  may _ := Keeps
  inv_may _ _ := trivial
  may_observe _ _ _ := .of_same rfl

def keepsTo (reader : Option UserId) : privacy.Promise :=
  ⟨fun _ _ => Private reader, Private.toKeeps⟩

abbrev rulesOf (reader : Option UserId) : Discipline feeds := privacy.promising (keepsTo reader)

section Contracts

variable {held : Held feeds} {reader : Option UserId}

/-- What the others do gives no row to anyone. -/
theorem Keeps.of_rely (h : (rulesOf reader).Rely held d d') : Keeps d d' := by
  refine h.lift (r := Keeps) (fun _ => .of_same rfl) Keeps.trans ?_
  intro d d' hStep
  obtain ⟨_, _, _, hMay⟩ := hStep
  exact hMay

theorem wp_query {α : Type} {select : State → α} {post : α → Held feeds → State → Prop}
    (hPost : ∀ d', Keeps d d' → post (select d') held d') :
    (rulesOf reader).wp (query select) held post d :=
  fun d' hRely _ _ => hPost d' (.of_rely hRely)

/-- The rule of a commit: it must be private. -/
theorem wp_commit {write : State → State} {post : State → Held feeds → State → Prop}
    (hWrite : ∀ d', Keeps d d' → Private reader d' (write d') ∧
      post (write d') Held.none (write d')) :
    (rulesOf reader).wp (commit write) held post d := by
  intro d' hRely _
  obtain ⟨hPrivate, hPost⟩ := hWrite d' (.of_rely hRely)
  refine ⟨fun _ => ⟨hPrivate, ?_⟩, ?_⟩
  · rw [Discipline.wp_orRaise]
    intro stored hStored
    exact Option.some.inj hStored ▸ hPost
  · rw [Discipline.wp_orRaise]
    exact fun _ hNone => nomatch hNone

theorem respond_safe (userId : UserId) (answer : Answer) :
    (rulesOf (some userId)).wp (respond userId answer) held (fun _ _ _ => True) d :=
  fun _ _ _ _ => ⟨private_answer answer, trivial⟩

theorem wp_getCurrentUser {post : Unit → Held feeds → State → Prop}
    (hPost : ∀ d', Keeps d d' → post () held d') :
    (rulesOf reader).wp (getCurrentUser userId) held post d := by
  unfold getCurrentUser
  rw [Discipline.wp_bind]
  apply wp_query
  intro d' hKeeps
  rw [Discipline.wp_raiseIf]
  exact fun _ => hPost d' hKeeps

/-- The rule of the lookup that every handler of one row begins with: the row
is the user's own. -/
theorem wp_getNotification {post : Notification → Held feeds → State → Prop}
    (hPost : ∀ d' row, Keeps d d' → Mine userId id d' → post row held d') :
    (rulesOf reader).wp (getNotification userId id) held post d := by
  unfold getNotification
  rw [Discipline.wp_bind]
  apply wp_query
  intro d' hKeeps
  rw [Discipline.wp_orRaise]
  exact fun row hRow => hPost d' row hKeeps (.of_find hRow)

theorem getNotifications_safe (limit : Limit) (offset : Nat) (unreadOnly : Bool) :
    (rulesOf (some userId)).Safe (getNotifications userId limit offset unreadOnly) held d := by
  unfold Discipline.Safe getNotifications
  rw [Discipline.wp_bind]
  apply wp_getCurrentUser
  intro d₁ _
  rw [Discipline.wp_bind]
  apply wp_query
  intro d₂ _
  rw [Discipline.wp_bind]
  apply wp_query
  intro d₃ _
  exact respond_safe userId _

theorem getUnreadCount_safe :
    (rulesOf (some userId)).Safe (getUnreadCount userId) held d := by
  unfold Discipline.Safe getUnreadCount
  rw [Discipline.wp_bind]
  apply wp_getCurrentUser
  intro d₁ _
  rw [Discipline.wp_bind]
  apply wp_query
  intro d₂ _
  exact respond_safe userId _

theorem markNotificationRead_safe :
    (rulesOf (some userId)).Safe (markNotificationRead userId id) held d := by
  unfold Discipline.Safe markNotificationRead
  rw [Discipline.wp_bind]
  apply wp_getCurrentUser
  intro d₁ _
  rw [Discipline.wp_bind]
  apply wp_getNotification
  intro d₂ row _ hMine
  split_ifs with hRead
  · rw [Discipline.wp_bind]
    apply wp_commit
    exact fun d₃ _ => ⟨.refl _ d₃, respond_safe userId _⟩
  · rw [Discipline.wp_bind]
    apply wp_commit
    intro d₃ hKeeps
    refine ⟨private_setRead (hMine.later hKeeps), ?_⟩
    rw [Discipline.wp_bind, Discipline.wp_raiseIf]
    exact fun _ => respond_safe userId _

theorem markAllRead_safe : (rulesOf (some userId)).Safe (markAllRead userId) held d := by
  unfold Discipline.Safe markAllRead
  rw [Discipline.wp_bind]
  apply wp_getCurrentUser
  intro d₁ _
  rw [Discipline.wp_bind]
  apply wp_commit
  exact fun d₂ _ => ⟨private_setAllRead, respond_safe userId _⟩

theorem deleteNotification_safe :
    (rulesOf (some userId)).Safe (deleteNotification userId id) held d := by
  unfold Discipline.Safe deleteNotification
  rw [Discipline.wp_bind]
  apply wp_getCurrentUser
  intro d₁ _
  rw [Discipline.wp_bind]
  apply wp_getNotification
  intro d₂ row _ hMine
  rw [Discipline.wp_bind]
  apply wp_commit
  exact fun d₃ hKeeps => ⟨private_delete (hMine.later hKeeps), respond_safe userId _⟩

/-- A commit of a request on no feed. -/
theorem public_safe {write : State → State} (hKeeps : ∀ d, Keeps d (write d)) :
    (rulesOf none).Safe (do let _ ← commit write) held d := by
  unfold Discipline.Safe
  rw [Discipline.wp_bind]
  apply wp_commit
  exact fun d' _ => ⟨(hKeeps d').public, trivial⟩

/-- A delivery keeps the contract: it only adds rows. -/
theorem deliver_safe (stamped : List (NewNotification × Time)) (rows : List NewNotification) :
    (rulesOf none).Safe (deliver stamped rows) held d := by
  induction rows generalizing stamped d with
  | nil => exact public_safe fun d => keeps_insertAll stamped
  | cons row rest ih => exact fun d' now _ _ _ _ => ih _

theorem handle_safe (request : Request) :
    (privacy.promising (keepsTo request.reader)).Safe (handle request) Held.none d := by
  cases request with
  | register => exact public_safe fun _ => .of_same rfl
  | notify rows => exact deliver_safe [] rows
  | deleteAuction auctionId =>
      exact public_safe fun _ => keeps_updateRows fun _ => owner_unlink auctionId
  | getNotifications userId limit offset unreadOnly =>
      exact getNotifications_safe limit offset unreadOnly
  | getUnreadCount userId => exact getUnreadCount_safe
  | markNotificationRead userId notificationId => exact markNotificationRead_safe
  | markAllRead userId => exact markAllRead_safe
  | deleteNotification userId notificationId => exact deleteNotification_safe

end Contracts

section Sees

/-- A read of one's own inbox sees no more than that. -/
theorem sees_query {α : Type} {select : State → α} {rest : α → Prog feeds Unit}
    (hSelect : ∀ d d', d.inbox userId = d'.inbox userId → select d = select d')
    (hRest : ∀ a, SeesOnly (State.inbox userId) (rest a)) :
    SeesOnly (State.inbox userId) (query select >>= rest) := by
  intro d d' hSame
  refine ⟨?_, hRest (select d)⟩
  show rest (select d) = rest (select d')
  rw [hSelect d d' hSame]

/-- A write that changes equal inboxes equally sees no more than the inbox. -/
theorem sees_commit {write : State → State} {rest : State → Prog feeds Unit}
    (hWrite : ∀ d d', d.inbox userId = d'.inbox userId →
      (write d).inbox userId = (write d').inbox userId)
    (hRest : ∀ d d', d.inbox userId = d'.inbox userId → rest d = rest d')
    (hSees : ∀ d, SeesOnly (State.inbox userId) (rest d)) :
    SeesOnly (State.inbox userId) (commit write >>= rest) := by
  refine ⟨fun d d' hSame => ?_, trivial⟩
  have hWritten := hWrite d d' hSame
  exact ⟨hWritten, rfl, hRest _ _ hWritten, hSees _⟩

theorem sees_respond (answer : Answer) :
    SeesOnly (State.inbox userId) (respond other answer) := by
  refine ⟨fun d d' hSame => ?_, trivial⟩
  rw [inbox_answer, inbox_answer, hSame]

theorem sees_getCurrentUser {rest : Unit → Prog feeds Unit}
    (hRest : SeesOnly (State.inbox userId) (rest ())) :
    SeesOnly (State.inbox userId) (getCurrentUser other >>= rest) := by
  show SeesOnly _ (query (fun d => d.hasUser other) >>= fun found =>
    Prog.raiseIf (found = false) _ >>= rest)
  apply sees_query
  · intro d d' hSame
    have hUsers : d.users = d'.users := congrArg Inbox.users hSame
    unfold State.hasUser
    rw [hUsers]
  · exact fun _ => .raiseIf fun _ => hRest

/-- The lookup of a row answers alike for equal inboxes. -/
theorem sees_getNotification {rest : Notification → Prog feeds Unit}
    (hRest : ∀ row, SeesOnly (State.inbox userId) (rest row)) :
    SeesOnly (State.inbox userId) (getNotification userId id >>= rest) := by
  show SeesOnly _ (query (fun d => d.find id userId) >>= fun row => Prog.orRaise row _ >>= rest)
  apply sees_query
  · exact fun d d' hSame => congrFun (congrArg Inbox.rows hSame) id
  · exact fun _ => .orRaise fun row _ => hRest row

theorem getNotifications_sees (limit : Limit) (offset : Nat) (unreadOnly : Bool) :
    SeesOnly (State.inbox userId) (getNotifications userId limit offset unreadOnly) := by
  unfold getNotifications
  apply sees_getCurrentUser
  apply sees_query
  · intro d d' hSame
    rw [selected_eq unreadOnly hSame]
  intro total
  apply sees_query
  · intro d d' hSame
    rw [selected_eq unreadOnly hSame]
  exact fun items => sees_respond _

theorem getUnreadCount_sees : SeesOnly (State.inbox userId) (getUnreadCount userId) := by
  unfold getUnreadCount
  apply sees_getCurrentUser
  apply sees_query
  · intro d d' hSame
    rw [selected_eq true hSame]
  exact fun count => sees_respond _

theorem markNotificationRead_sees :
    SeesOnly (State.inbox userId) (markNotificationRead userId id) := by
  unfold markNotificationRead
  apply sees_getCurrentUser
  apply sees_getNotification
  intro row
  split_ifs with hRead
  · apply sees_commit
    · exact fun d d' hSame => hSame
    · exact fun d d' hSame => rfl
    · exact fun _ => sees_respond _
  · apply sees_commit
    · intro d d' hSame
      rw [State.setRead, State.setRead, inbox_updateRows (owner_setRead id),
        inbox_updateRows (owner_setRead id), hSame]
    · intro d d' hSame
      have hFind : d.find id userId = d'.find id userId := congrFun (congrArg Inbox.rows hSame) id
      rw [hFind]
    · exact fun _ => .raiseIf fun _ => sees_respond _

theorem markAllRead_sees : SeesOnly (State.inbox userId) (markAllRead userId) := by
  unfold markAllRead
  apply sees_getCurrentUser
  apply sees_commit
  · intro d d' hSame
    have hOwner (_ : Nat) := owner_setAllRead userId
    rw [State.setAllRead, State.setAllRead, inbox_updateRows hOwner, inbox_updateRows hOwner, hSame]
  · exact fun d d' hSame => rfl
  · exact fun _ => sees_respond _

theorem deleteNotification_sees :
    SeesOnly (State.inbox userId) (deleteNotification userId id) := by
  unfold deleteNotification
  apply sees_getCurrentUser
  apply sees_getNotification
  intro row
  apply sees_commit
  · intro d d' hSame
    rw [inbox_delete, inbox_delete, hSame]
  · exact fun d d' hSame => rfl
  · exact fun _ => sees_respond _

/-- A write that concerns nobody in particular shows equal inboxes the same. -/
theorem public_sees {write : State → State} (hWrite : ∀ d d', d.inbox userId = d'.inbox userId →
    (write d).inbox userId = (write d').inbox userId) :
    SeesOnly (State.inbox userId) (do let _ ← commit write) :=
  sees_commit hWrite (fun _ _ _ => rfl) fun _ => trivial

/-- A delivery shows equal inboxes the same. -/
theorem deliver_sees (stamped : List (NewNotification × Time)) (rows : List NewNotification) :
    SeesOnly (State.inbox userId) (deliver stamped rows) := by
  induction rows generalizing stamped with
  | nil => exact public_sees fun d d' hSame => insertAll_eq stamped hSame
  | cons row rest ih => exact fun now => ih _

end Sees

/-- Whether it may matter to a user that a request is made: not if it is another user's
on his own feed. -/
def concerns (userId : UserId) (request : Request) : Bool := request.reader.all (· = userId)

/-- A request that concerns a user sees no more than that user's inbox. -/
theorem handle_sees {request : Request} (h : concerns userId request = true) :
    SeesOnly (State.inbox userId) (handle request) := by
  cases request with
  | register =>
      apply public_sees
      intro d d' hSame
      have hRest : ∀ d : State, ({ d with users := d.users + 1 } : State).inbox userId =
          { d.inbox userId with users := (d.inbox userId).users + 1 } := fun _ => rfl
      rw [hRest, hRest, hSame]
  | notify rows => exact deliver_sees [] rows
  | deleteAuction auctionId =>
      apply public_sees
      intro d d' hSame
      have hOwner (_ : Nat) := owner_unlink auctionId
      rw [State.unlink, State.unlink, inbox_updateRows hOwner, inbox_updateRows hOwner, hSame]
  | getNotifications reader limit offset unreadOnly =>
      obtain rfl : reader = userId := of_decide_eq_true h
      exact getNotifications_sees limit offset unreadOnly
  | getUnreadCount reader =>
      obtain rfl : reader = userId := of_decide_eq_true h
      exact getUnreadCount_sees
  | markNotificationRead reader notificationId =>
      obtain rfl : reader = userId := of_decide_eq_true h
      exact markNotificationRead_sees
  | markAllRead reader =>
      obtain rfl : reader = userId := of_decide_eq_true h
      exact markAllRead_sees
  | deleteNotification reader notificationId =>
      obtain rfl : reader = userId := of_decide_eq_true h
      exact deleteNotification_sees

/-- So the inbox of each user is separated from the requests of the others. -/
theorem separates (userId : UserId) :
    privacy.Separates (State.inbox userId) (fun request => keepsTo request.reader) handle
      (concerns userId) where
  ok _ _ _ := trivial
  safe request _ _ := handle_safe request
  sees _ hConcerns := handle_sees hConcerns
  hidden request hOther _ _ d d' _ hPrivate := by
    unfold concerns at hOther
    cases hReader : request.reader with
    | none => simp [hReader] at hOther
    | some reader =>
        rw [hReader] at hOther
        have hNe : userId ≠ reader := by
          rintro rfl
          simp at hOther
        exact hPrivate.unseen reader hReader userId hNe
  observe _ _ _ := rfl
  readable _ _ := rfl

/-- Whatever sessions are run, and in whatever order their steps, a user finds the same
rows and is given the same answers as if nobody else had looked at, marked or deleted
notifications of his own. -/
theorem feed_is_private (userId : UserId) {start : State} {actions : List (Action feeds Request)}
    {c : Config feeds} (run : runs handle (.initial start) actions = some c) :
    ∃ c', runs handle (.initial start) (purge (concerns userId) (fun _ => none) actions) = some c' ∧
      c.db.inbox userId = c'.db.inbox userId ∧
      ∀ sid, (actions.foldl serving (fun _ => none) sid).any (concerns userId) = true →
        c'.sessions sid = c.sessions sid :=
  (separates userId).purged trivial run

/-- A user lists his notifications while another one deletes his. -/
def deletesMeanwhile : List (Action feeds Request) :=
  let sold (userId : UserId) : NewNotification :=
    ⟨userId, "auction_sold", "Лот продан", "Лот продан", some 7, some "Ваза"⟩
  [.start 1 (.notify [sold 1, sold 2]), .clock 1 50, .clock 1 50, .step 1,
    .start 2 (.getNotifications 1 ⟨20, by decide, by decide⟩ 0 false),
    .start 3 (.deleteNotification 2 1), .step 2, .step 3, .step 2, .step 3, .step 3, .step 2,
    .step 3, .step 2]

/-- With the deletion of the other user left out, user 1 is answered all the same. -/
theorem feed_is_private_deletion : ∃ c' : Config feeds,
    runs handle (.initial (State.initial 2))
      (purge (concerns 1) (fun _ => none) deletesMeanwhile) = some c' ∧
    (c'.db.inbox 1).answers.length = 1 := by
  obtain ⟨c, run, hAnswered⟩ : ∃ c, runs handle (.initial (State.initial 2)) deletesMeanwhile =
      some c ∧ (c.db.inbox 1).answers.length = 1 := by
    have hRuns : (runs handle (.initial (State.initial 2)) deletesMeanwhile).any
        (fun c => decide ((c.db.inbox 1).answers.length = 1)) = true := by decide +kernel
    simpa [Option.any_eq_true] using hRuns
  obtain ⟨c', run', hSame, _⟩ := feed_is_private 1 run
  exact ⟨c', run', hSame ▸ hAnswered⟩

end OnlineAuction.Notifications.Feed
