import Mathlib.Data.Set.Card
import OnlineAuction.Library.Contracts
import OnlineAuction.Subscriptions.Handlers

/-! Subscriptions in any interleaving behave as one set of pairs that each request
works on at a moment of its own. -/

namespace OnlineAuction.Subscriptions

open RowLocks ChangeLogs

variable {d d' : State} {pair : Subscription} {id : Nat}

theorem State.mem_rows {row : Nat × Subscription} :
    row ∈ d.rows ↔ d.subscriptions.get row.1 = some row.2 := by
  simp only [State.rows, List.mem_filterMap, List.mem_range, Option.map_eq_some_iff]
  constructor
  · rintro ⟨id, _, stored, hStored, rfl⟩
    exact hStored
  · intro hStored
    exact ⟨row.1, Table.lt_serial hStored, row.2, hStored, rfl⟩

theorem State.get_of_find {row : Nat × Subscription} (h : d.find pair = some row) :
    d.subscriptions.get row.1 = some pair := by
  have hStored := State.mem_rows.mp (List.mem_of_find?_eq_some h)
  have hPair := List.find?_some h
  rwa [of_decide_eq_true hPair] at hStored

theorem State.isSome_find : (d.find pair).isSome ↔ ∃ id, d.subscriptions.get id = some pair := by
  rw [State.find, List.find?_isSome]
  constructor
  · rintro ⟨row, hRow, hPair⟩
    obtain rfl : row.2 = pair := of_decide_eq_true hPair
    exact ⟨row.1, State.mem_rows.mp hRow⟩
  · rintro ⟨id, hStored⟩
    exact ⟨(id, pair), State.mem_rows.mpr hStored, decide_eq_true rfl⟩

theorem State.rows_nodup (d : State) : d.rows.Nodup := by
  apply List.nodup_range.filterMap
  intro id id' row hRow hRow'
  obtain ⟨_, _, rfl⟩ := Option.map_eq_some_iff.mp hRow
  obtain ⟨_, _, hSame⟩ := Option.map_eq_some_iff.mp hRow'
  exact (congrArg Prod.fst hSame).symm

/-- The answer was so at a moment of the request, and its count when it was taken. -/
structure Response.Right (response : Response) (log : List (Change Subscription)) : Prop where
  meanwhile : Meanwhile log response.authenticatedAt response.countedAt response.pair
    response.subscribed
  count : response.subscribersCount =
    {userId | membersAt log response.countedAt ⟨userId, response.pair.sellerId⟩ = true}.ncard

/-- A lot was announced once to each of those who were subscribed. -/
structure Announcement.Right (announcement : Announcement) (log : List (Change Subscription)) :
    Prop where
  moment : announcement.selectedAt ≤ log.length
  nodup : announcement.subscribers.Nodup
  subscribers : ∀ userId, userId ∈ announcement.subscribers ↔
    membersAt log announcement.selectedAt ⟨userId, announcement.sellerId⟩ = true

structure Sound (d : State) : Prop where
  members : ∀ pair, ChangeLogs.members d.journal pair = true ↔
    ∃ id, d.subscriptions.get id = some pair
  unique : ∀ id id' pair, d.subscriptions.get id = some pair →
    d.subscriptions.get id' = some pair → id = id'
  effective : Effective d.journal
  allowed : ∀ id pair, d.subscriptions.get id = some pair → pair.subscriberId ≠ pair.sellerId ∧
    d.hasUser pair.subscriberId = true ∧ d.hasUser pair.sellerId = true
  responses : ∀ response ∈ d.responses, response.Right d.journal
  announcements : ∀ announcement ∈ d.announcements, announcement.Right d.journal

/-- An answer that was right stays right as the log grows. -/
theorem Response.Right.later {response : Response} {log log' : List (Change Subscription)}
    (h : response.Right log) (hPrefix : log <+: log') : response.Right log' := by
  obtain ⟨_, _, hTo, hLog, _⟩ := h.meanwhile
  refine ⟨h.meanwhile.later hPrefix le_rfl le_rfl (hLog.trans hPrefix.length_le), ?_⟩
  rw [h.count, membersAt_extended hPrefix hLog]

theorem Announcement.Right.later {announcement : Announcement}
    {log log' : List (Change Subscription)} (h : announcement.Right log) (hPrefix : log <+: log') :
    announcement.Right log' := by
  refine ⟨h.moment.trans hPrefix.length_le, h.nodup, fun userId => ?_⟩
  rw [membersAt_extended hPrefix h.moment]
  exact h.subscribers userId

namespace Sound

/-- A pair that has no row is out of the set. -/
theorem absent (h : Sound d) (hNone : ∀ id, d.subscriptions.get id ≠ some pair) :
    ChangeLogs.members d.journal pair = false := by
  rw [Bool.eq_false_iff]
  intro hPresent
  obtain ⟨id, hStored⟩ := (h.members pair).mp hPresent
  exact hNone id hStored

/-- The subscribers read off the rows are the members of the set. -/
theorem mem_subscribers (h : Sound d) (sellerId userId : UserId) :
    userId ∈ d.subscribers sellerId ↔
      ChangeLogs.members d.journal ⟨userId, sellerId⟩ = true := by
  rw [h.members, State.subscribers, List.mem_map]
  constructor
  · rintro ⟨row, hRow, rfl⟩
    obtain ⟨hStored, hSeller⟩ := List.mem_filter.mp hRow
    refine ⟨row.1, ?_⟩
    rw [State.mem_rows.mp hStored, ← of_decide_eq_true hSeller]
  · rintro ⟨id, hStored⟩
    exact ⟨(id, ⟨userId, sellerId⟩),
      List.mem_filter.mpr ⟨State.mem_rows.mpr hStored, decide_eq_true rfl⟩, rfl⟩

theorem nodup_subscribers (h : Sound d) (sellerId : UserId) : (d.subscribers sellerId).Nodup := by
  apply List.Nodup.map_on _ (d.rows_nodup.filter _)
  rintro ⟨id, row⟩ hRow ⟨id', row'⟩ hRow' hSame
  obtain ⟨hStored, hSeller⟩ := List.mem_filter.mp hRow
  obtain ⟨hStored', hSeller'⟩ := List.mem_filter.mp hRow'
  have hRows : row = row' := by
    obtain ⟨subscriberId, seller⟩ := row
    obtain ⟨subscriberId', seller'⟩ := row'
    simp only [decide_eq_true_eq] at hSeller hSeller' hSame
    rw [hSame, hSeller, hSeller']
  subst hRows
  rw [h.unique id id' row (State.mem_rows.mp hStored) (State.mem_rows.mp hStored')]

/-- Their number is the size of the set. -/
theorem subscriberCount_eq (h : Sound d) (sellerId : UserId) :
    d.subscriberCount sellerId =
      {userId | ChangeLogs.members d.journal ⟨userId, sellerId⟩ = true}.ncard := by
  have hSet : {userId | ChangeLogs.members d.journal ⟨userId, sellerId⟩ = true} =
      ((d.subscribers sellerId).toFinset : Set UserId) := by
    ext userId
    simp [h.mem_subscribers]
  rw [hSet, Set.ncard_coe_finset, List.toFinset_card_of_nodup (h.nodup_subscribers sellerId),
    State.subscribers, List.length_map, State.subscriberCount, List.countP_eq_length_filter]

end Sound

inductive Transaction (d : State) : State → Prop where
  | idle : Transaction d d
  | register : Transaction d { d with users := d.users + 1 }
  | insert (pair : Subscription) (hSelf : pair.subscriberId ≠ pair.sellerId)
      (hSubscriber : d.hasUser pair.subscriberId = true)
      (hSeller : d.hasUser pair.sellerId = true) : Transaction d (d.insert pair)
  | delete (id : Nat) : Transaction d (d.delete id)
  | respond (response : Response) (hRight : response.Right d.journal) :
      Transaction d (d.respond response)
  | announce (announcement : Announcement) (hRight : announcement.Right d.journal) :
      Transaction d (d.announce announcement)

/-- Users stay and the log grows; a subscription that is gone was absent at a moment. -/
structure Grows (d d' : State) : Prop where
  users : d.users ≤ d'.users
  journal : d.journal <+: d'.journal
  rows : ∀ id row, d.subscriptions.get id = some row → d'.subscriptions.get id = some row ∨
    Meanwhile d'.journal d.moment d'.moment row false

theorem Grows.refl (d : State) : Grows d d :=
  ⟨le_rfl, List.prefix_rfl, fun _ _ hRow => .inl hRow⟩

theorem Grows.trans {d'' : State} (h : Grows d d') (h' : Grows d' d'') : Grows d d'' where
  users := h.users.trans h'.users
  journal := h.journal.trans h'.journal
  rows id row hRow := by
    rcases h.rows id row hRow with hRow | hGone
    · exact (h'.rows id row hRow).imp_right fun hGone =>
        hGone.later List.prefix_rfl h.journal.length_le le_rfl le_rfl
    · exact .inr (hGone.later h'.journal le_rfl h'.journal.length_le le_rfl)

theorem Grows.hasUser (h : Grows d d') {userId : UserId} (hUser : d.hasUser userId = true) :
    d'.hasUser userId = true := by
  obtain ⟨hPos, hLe⟩ := of_decide_eq_true hUser
  exact decide_eq_true ⟨hPos, hLe.trans h.users⟩

/-- What was in the set is read off any later log. -/
theorem Grows.membersAt (h : Grows d d') :
    ChangeLogs.membersAt d'.journal d.moment = members d.journal := by
  rw [State.moment, membersAt_extended h.journal le_rfl, membersAt_length]

/-- A change of the table that the log notes. -/
theorem Sound.change (h : Sound d) {subscriptions : Table Subscription}
    {change : Change Subscription} (hEffective : Effective (d.journal ++ [change]))
    (hMembers : ∀ pair, ChangeLogs.members (d.journal ++ [change]) pair = true ↔
      ∃ id, subscriptions.get id = some pair)
    (hUnique : ∀ id id' pair, subscriptions.get id = some pair →
      subscriptions.get id' = some pair → id = id')
    (hAllowed : ∀ id pair, subscriptions.get id = some pair →
      pair.subscriberId ≠ pair.sellerId ∧ d.hasUser pair.subscriberId = true ∧
        d.hasUser pair.sellerId = true) :
    Sound { d with subscriptions := subscriptions, journal := d.journal ++ [change] } where
  members := hMembers
  unique := hUnique
  effective := hEffective
  allowed := hAllowed
  responses response hMem := (h.responses response hMem).later (List.prefix_append ..)
  announcements announcement hMem :=
    (h.announcements announcement hMem).later (List.prefix_append ..)

/-- A new pair is added to the log when it was out of the set. -/
theorem Sound.insert (h : Sound d) (hSelf : pair.subscriberId ≠ pair.sellerId)
    (hSubscriber : d.hasUser pair.subscriberId = true) (hSeller : d.hasUser pair.sellerId = true) :
    Sound (d.insert pair) := by
  unfold State.insert
  split_ifs with hFound
  · exact h
  · have hNone (id : Nat) : d.subscriptions.get id ≠ some pair := fun hStored =>
      hFound (State.isSome_find.mpr ⟨id, hStored⟩)
    have hGet {id : Nat} {row : Subscription}
        (hRow : (d.subscriptions.add fun _ => pair).get id = some row) :
        id = d.subscriptions.serial ∧ row = pair ∨ d.subscriptions.get id = some row :=
      Table.of_get_add hRow
    apply h.change
    · exact h.effective.add (h.absent hNone)
    · intro other
      rw [members_add, Bool.or_eq_true, decide_eq_true_eq, h.members]
      constructor
      · rintro (rfl | ⟨id, hStored⟩)
        · exact ⟨d.subscriptions.serial, by simp⟩
        · exact ⟨id, Table.get_add_old hStored _⟩
      · rintro ⟨id, hStored⟩
        rcases hGet hStored with ⟨_, rfl⟩ | hOld
        · exact .inl rfl
        · exact .inr ⟨id, hOld⟩
    · intro id id' other hStored hStored'
      rcases hGet hStored with ⟨rfl, rfl⟩ | hOld
      · rcases hGet hStored' with ⟨rfl, _⟩ | hOld'
        · rfl
        · exact absurd hOld' (hNone id')
      · rcases hGet hStored' with ⟨_, rfl⟩ | hOld'
        · exact absurd hOld (hNone id)
        · exact h.unique id id' other hOld hOld'
    · intro id other hStored
      rcases hGet hStored with ⟨_, rfl⟩ | hOld
      · exact ⟨hSelf, hSubscriber, hSeller⟩
      · exact h.allowed id other hOld

/-- A deleted pair is removed from the log when it was in the set. -/
theorem Sound.delete (h : Sound d) (id : Nat) : Sound (d.delete id) := by
  unfold State.delete
  cases hRow : d.subscriptions.get id with
  | none => exact h
  | some row =>
      have hGet {id' : Nat} {other : Subscription} :
          (d.subscriptions.erase id).get id' = some other ↔
            id' ≠ id ∧ d.subscriptions.get id' = some other := by
        rw [Table.get_erase]
        split_ifs with hId <;> simp [hId]
      apply h.change
      · exact h.effective.remove ((h.members row).mpr ⟨id, hRow⟩)
      · intro other
        rw [members_remove, Bool.and_eq_true, decide_eq_true_eq, h.members]
        constructor
        · rintro ⟨hOther, id', hStored⟩
          refine ⟨id', hGet.mpr ⟨?_, hStored⟩⟩
          rintro rfl
          rw [hRow, Option.some.injEq] at hStored
          exact hOther hStored.symm
        · rintro ⟨id', hStored⟩
          obtain ⟨hId, hOld⟩ := hGet.mp hStored
          refine ⟨?_, id', hOld⟩
          rintro rfl
          exact hId (h.unique id' id other hOld hRow)
      · intro i j other hStored hStored'
        exact h.unique i j other (hGet.mp hStored).2 (hGet.mp hStored').2
      · exact fun i other hStored => h.allowed i other (hGet.mp hStored).2

/-- Every transaction keeps rows and log together. -/
theorem Sound.transaction (h : Sound d) (hMay : Transaction d d') : Sound d' := by
  cases hMay with
  | idle => exact h
  | register =>
      have hLater : Grows d { d with users := d.users + 1 } :=
        ⟨Nat.le_succ _, List.prefix_rfl, fun _ _ hRow => .inl hRow⟩
      refine ⟨h.members, h.unique, h.effective, fun id pair hStored => ?_, h.responses,
        h.announcements⟩
      obtain ⟨hSelf, hSubscriber, hSeller⟩ := h.allowed id pair hStored
      exact ⟨hSelf, hLater.hasUser hSubscriber, hLater.hasUser hSeller⟩
  | insert pair hSelf hSubscriber hSeller => exact h.insert hSelf hSubscriber hSeller
  | delete id => exact h.delete id
  | respond response hRight =>
      refine ⟨h.members, h.unique, h.effective, h.allowed, fun old hMem => ?_, h.announcements⟩
      rcases List.mem_append.mp hMem with hOld | hNew
      · exact h.responses old hOld
      · exact List.mem_singleton.mp hNew ▸ hRight
  | announce announcement hRight =>
      refine ⟨h.members, h.unique, h.effective, h.allowed, h.responses, fun old hMem => ?_⟩
      rcases List.mem_append.mp hMem with hOld | hNew
      · exact h.announcements old hOld
      · exact List.mem_singleton.mp hNew ▸ hRight

/-- Once a row is deleted its pair is absent. -/
theorem absent_delete {row : Subscription}
    (hRow : d.subscriptions.get id = some row) :
    ChangeLogs.members (d.delete id).journal row = false := by
  simp [State.delete, hRow]

theorem Transaction.grows (hMay : Transaction d d') : Grows d d' := by
  cases hMay with
  | idle => exact .refl d
  | register => exact ⟨Nat.le_succ _, List.prefix_rfl, fun _ _ hRow => .inl hRow⟩
  | insert pair =>
      unfold State.insert
      split_ifs with hFound
      · exact .refl d
      · exact ⟨le_rfl, List.prefix_append .., fun id row hRow => .inl (Table.get_add_old hRow _)⟩
  | delete id =>
      cases hRow : d.subscriptions.get id with
      | none =>
          have hSame : d.delete id = d := by simp [State.delete, hRow]
          rw [hSame]
          exact .refl d
      | some row =>
          have hJournal : (d.delete id).journal = d.journal ++ [.remove row] := by
            simp [State.delete, hRow]
          have hTable : (d.delete id).subscriptions = d.subscriptions.erase id := by
            simp [State.delete, hRow]
          refine ⟨by simp [State.delete, hRow], hJournal ▸ List.prefix_append .., ?_⟩
          intro id' other hOther
          by_cases hId : id' = id
          · right
            rw [hId, hRow, Option.some.injEq] at hOther
            subst hOther
            exact .of_now (by simp [hJournal, State.moment]) (absent_delete hRow)
          · left
            rw [hTable, Table.get_erase, if_neg hId, hOther]
  | respond => exact ⟨le_rfl, List.prefix_rfl, fun _ _ hRow => .inl hRow⟩
  | announce => exact ⟨le_rfl, List.prefix_rfl, fun _ _ hRow => .inl hRow⟩

def rules : Discipline storefronts where
  ok _ _ _ := True
  inv := Sound
  may _ := Transaction
  inv_may := fun h hMay => h.transaction hMay
  may_observe _ _ _ := .idle

theorem Grows.of_rely {held : Held storefronts} (h : rules.Rely held d d') : Grows d d' := by
  refine h.lift (r := Grows) Grows.refl Grows.trans ?_
  intro d d' hStep
  obtain ⟨_, _, hSound, hMay⟩ := hStep
  exact hMay.grows

/-- At a moment since then the pair was there, or was not. -/
def Seen (d : State) (since : Nat) (pair : Subscription) (present : Bool) : Prop :=
  Meanwhile d.journal since d.moment pair present

/-- A moment in the past stays there. -/
theorem Seen.later {since : Nat} {present : Bool} (h : Seen d since pair present)
    (hGrows : Grows d d') : Seen d' since pair present :=
  Meanwhile.later h hGrows.journal le_rfl hGrows.journal.length_le le_rfl

section Contracts

variable {held : Held storefronts} {since : Nat}

theorem wp_query {α : Type} {select : State → α}
    {post : α → Held storefronts → State → Prop}
    (hPost : ∀ d', Grows d d' → Sound d' → post (select d') held d') :
    rules.wp (query select) held post d := by
  intro d' hRely hSound _
  exact hPost d' (.of_rely hRely) hSound

/-- An answer that was so at a moment of the request. -/
theorem respond_safe {subscribed : Bool} (hSeen : Seen d since pair subscribed) :
    rules.wp (respond pair subscribed since) held (fun _ _ _ => True) d := by
  unfold respond
  rw [Discipline.wp_bind]
  apply wp_query
  intro d₁ h₁ hSound₁ d₂ h₂ _ _
  have hGrows := Grows.of_rely h₂
  refine ⟨.respond _ ⟨?_, ?_⟩, trivial⟩
  · exact Meanwhile.later (hSeen.later h₁) hGrows.journal le_rfl le_rfl hGrows.journal.length_le
  · show d₁.subscriberCount pair.sellerId = Set.ncard {userId | membersAt d₂.journal d₁.moment _ = _}
    rw [hSound₁.subscriberCount_eq, hGrows.membersAt]

/-- A write, whatever has come before it, and the answer. -/
theorem commit_safe {write : State → State} {rest : Prog storefronts Unit}
    (hWrite : ∀ d', Grows d d' → Sound d' → Transaction d' (write d') ∧
      rules.wp rest Held.none (fun _ _ _ => True) (write d')) :
    rules.wp (commit write rest) held (fun _ _ _ => True) d := by
  intro d' hRely hSound
  obtain ⟨hMay, hRest⟩ := hWrite d' (.of_rely hRely) hSound
  refine ⟨fun _ => ⟨hMay, ?_⟩, ?_⟩
  · rw [Discipline.wp_bind, Discipline.wp_orRaise]
    exact fun _ _ => hRest
  · rw [Discipline.wp_bind, Discipline.wp_orRaise]
    intro _ hNone
    cases hNone

theorem wp_getCurrentUser {userId : UserId} {post : Nat → Held storefronts → State → Prop}
    (hPost : ∀ d', Grows d d' → d'.hasUser userId = true → post d'.moment held d') :
    rules.wp (getCurrentUser userId) held post d := by
  unfold getCurrentUser
  rw [Discipline.wp_bind]
  apply wp_query
  intro d' hGrows _
  rw [Discipline.wp_bind, Discipline.wp_raiseIf]
  exact fun hFound => hPost d' hGrows (by simpa using hFound)

/-- The rule of the lookup of a seller, who stays. -/
theorem wp_ensureSellerExists {sellerId : UserId} {post : Unit → Held storefronts → State → Prop}
    (hPost : ∀ d', Grows d d' → d'.hasUser sellerId = true → post () held d') :
    rules.wp (ensureSellerExists sellerId) held post d := by
  unfold ensureSellerExists
  rw [Discipline.wp_bind]
  apply wp_query
  intro d' hGrows _
  rw [Discipline.wp_raiseIf]
  exact fun hFound => hPost d' hGrows (by simpa using hFound)

/-- What a search for a pair finds is so at that moment. -/
theorem Sound.seen (h : Sound d) (pair : Subscription) (hSince : since ≤ d.moment) :
    Seen d since pair (d.find pair).isSome := by
  apply Meanwhile.of_now hSince
  rw [Bool.eq_iff_iff, h.members, State.isSome_find]

/-- The read answers as the set was at the moment of its query. -/
theorem getSubscription_safe (userId sellerId : UserId) :
    rules.Safe (getSubscription userId sellerId) Held.none d := by
  unfold Discipline.Safe getSubscription
  rw [Discipline.wp_bind]
  apply wp_getCurrentUser
  intro d₁ _ _
  rw [Discipline.wp_bind]
  apply wp_ensureSellerExists
  intro d₂ h₂ _
  rw [Discipline.wp_bind]
  apply wp_query
  intro d₃ h₃ hSound
  exact respond_safe (hSound.seen _ (h₂.trans h₃).journal.length_le)

/-- Subscribing answers as the set was at the moment of its commit, or of its
lookup. -/
theorem subscribe_safe (userId sellerId : UserId) :
    rules.Safe (subscribe userId sellerId) Held.none d := by
  unfold Discipline.Safe subscribe
  rw [Discipline.wp_bind]
  apply wp_getCurrentUser
  intro d₁ _ hSubscriber
  rw [Discipline.wp_bind, Discipline.wp_raiseIf]
  intro hSelf
  rw [Discipline.wp_bind]
  apply wp_ensureSellerExists
  intro d₂ h₂ hSeller
  rw [Discipline.wp_bind]
  apply wp_query
  intro d₃ h₃ hSound
  split_ifs with hFound
  · have hSeen := hSound.seen ⟨userId, sellerId⟩ (h₂.trans h₃).journal.length_le
    rw [hFound] at hSeen
    exact respond_safe hSeen
  · apply commit_safe
    intro d₄ h₄ hSound₄
    have hGrows := (h₂.trans h₃).trans h₄
    have hMay : Transaction d₄ (d₄.insert ⟨userId, sellerId⟩) :=
      .insert _ (Ne.symm hSelf) (hGrows.hasUser hSubscriber) ((h₃.trans h₄).hasUser hSeller)
    refine ⟨hMay, respond_safe ?_⟩
    have hSound' := hSound₄.transaction hMay
    have hThere : ((d₄.insert ⟨userId, sellerId⟩).find ⟨userId, sellerId⟩).isSome = true := by
      rw [State.isSome_find, State.insert]
      split_ifs with hConflict
      · exact State.isSome_find.mp hConflict
      · exact ⟨d₄.subscriptions.serial, by simp⟩
    have hSeen := hSound'.seen ⟨userId, sellerId⟩
      (hGrows.trans (hMay.grows)).journal.length_le
    rwa [hThere] at hSeen

/-- So does unsubscribing. -/
theorem unsubscribe_safe (userId sellerId : UserId) :
    rules.Safe (unsubscribe userId sellerId) Held.none d := by
  unfold Discipline.Safe unsubscribe
  rw [Discipline.wp_bind]
  apply wp_getCurrentUser
  intro d₁ _ _
  rw [Discipline.wp_bind]
  apply wp_query
  intro d₂ h₂ hSound₂
  cases hFound : d₂.find ⟨userId, sellerId⟩ with
  | none =>
      have hSeen := hSound₂.seen ⟨userId, sellerId⟩ h₂.journal.length_le
      rw [hFound] at hSeen
      exact respond_safe hSeen
  | some found =>
      obtain ⟨id, row⟩ := found
      apply commit_safe
      intro d₃ h₃ hSound₃
      refine ⟨.delete id, respond_safe ?_⟩
      have hMay := (Transaction.delete (d := d₃) id).grows
      rcases h₃.rows id _ (State.get_of_find hFound) with hRow | hGone
      · exact .of_now (h₂.trans (h₃.trans hMay)).journal.length_le (absent_delete hRow)
      · exact Seen.later (hGone.later List.prefix_rfl h₂.journal.length_le le_rfl le_rfl) hMay

theorem selectSubscribers_safe (sellerId : UserId) :
    rules.Safe (selectSubscribers sellerId) Held.none d := by
  unfold Discipline.Safe selectSubscribers
  rw [Discipline.wp_bind]
  apply wp_query
  intro d₁ _ hSound₁ d₂ h₂ _ _
  have hGrows := Grows.of_rely h₂
  refine ⟨.announce _ ⟨hGrows.journal.length_le, hSound₁.nodup_subscribers sellerId, ?_⟩, trivial⟩
  intro userId
  show userId ∈ d₁.subscribers sellerId ↔ membersAt d₂.journal d₁.moment _ = true
  rw [hSound₁.mem_subscribers, hGrows.membersAt]

theorem handle_safe (request : Request) : rules.Safe (handle request) Held.none d := by
  cases request with
  | register => exact commit_safe fun d' _ _ => ⟨.register, trivial⟩
  | getSubscription userId sellerId => exact getSubscription_safe userId sellerId
  | subscribe userId sellerId => exact subscribe_safe userId sellerId
  | unsubscribe userId sellerId => exact unsubscribe_safe userId sellerId
  | newLot sellerId => exact selectSubscribers_safe sellerId

end Contracts

theorem sound_initial (users : Nat) : Sound (.initial users) where
  members pair := by simp [State.initial]
  unique id id' pair hStored := by cases hStored
  effective := .nil
  allowed id pair hStored := by cases hStored
  responses response hMem := by cases hMem
  announcements announcement hMem := by cases hMem

/-- In any interleaving of requests: the table is the set that the committed changes
make, each of which did change it, with no pair twice, nobody subscribed to himself and
both users there; every answer was so at a moment between the request's first query and
its last, with the count of that last query; and a new lot is announced once to each of
those who are subscribed when they are selected. -/
theorem subscriptions_linearizable (users : Nat) {c : Config storefronts}
    (run : Reaches handle (fun _ _ _ => True) (State.initial users) c) : Sound c.db :=
  Discipline.invariant_of_reaches (P := rules) (sound_initial users)
    (fun request _ _ => handle_safe request) (sound_initial users)
    (fun _ hSound hMay => hSound.transaction hMay) run

/-- Two requests of one user load her subscription, and both delete it. -/
def unsubscribesTwice : List (Action storefronts Request) :=
  [.start 1 (.subscribe 2 1)] ++ List.replicate 6 (.step 1) ++
    [.start 2 (.unsubscribe 2 1), .start 3 (.unsubscribe 2 1), .step 2, .step 3, .step 2, .step 3,
      .step 2, .step 3, .step 2, .step 3, .step 2, .step 3]

/-- Of two removals of one pair the second finds nothing. -/
theorem subscriptions_linearizable_twice : ∃ c : Config storefronts,
    c.db.responses.map (·.subscribed) = [true, false, false] ∧ Sound c.db := by
  obtain ⟨c, run, hResponses⟩ := exists_reaches handle (fun _ _ _ => True) (State.initial 2)
    unsubscribesTwice (fun c => c.db.responses.map (·.subscribed) = [true, false, false])
    (by decide +kernel)
  exact ⟨c, hResponses, subscriptions_linearizable 2 run⟩

end OnlineAuction.Subscriptions
