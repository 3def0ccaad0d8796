import OnlineAuction.Library.RollingWindows
import OnlineAuction.Library.Runs
import OnlineAuction.Realtime.Endpoints

/-! The messages to one connection of `websocket_endpoint`. Those reach the query
that find room in the window that ends with them. -/

namespace OnlineAuction.Realtime

open RollingWindows

variable {Message : Type}

/-- `websocket_endpoint` waits for a message. -/
def Handler.listens (h : Handler) : Bool :=
  match h.endpoint, h.phase with
  | .auction _ _, .receiving _ => true
  | _, _ => false

/-- `msg_timestamps`, empty before the loop. -/
def Phase.msgTimestamps : Phase → Option (List Time)
  | .authorizing => some []
  | .accepting => some []
  | .receiving msgTimestamps => some msgTimestamps
  | .querying msgTimestamps => some msgTimestamps
  | .answering msgTimestamps => some msgTimestamps
  | .closing msgTimestamps _ => some msgTimestamps
  | .pinging msgTimestamps => some msgTimestamps
  | .denying => none
  | .ended => none

def Phase.queries : Phase → Bool
  | .querying _ => true
  | _ => false

namespace Endpoints

/-- The reading of the clock at a message to this connection. -/
def message (s : Endpoints Message) (id : Nat) : EndpointEvent Message → Option Time
  | .returned handler now _ =>
      if handler = id && (s.handlers.get id).any Handler.listens then some now else none
  | _ => none

def queries (s : Endpoints Message) (id : Nat) : Bool :=
  (s.handlers.get id).any fun h => h.phase.queries

end Endpoints

/-- The messages to one connection: the last reading of the clock, and the
readings of those that have reached the query. -/
structure Traffic where
  clock : Time
  queried : List Time
  deriving DecidableEq

def Traffic.record (id : Nat) (traffic : Traffic) (s : Endpoints Message)
    (e : EndpointEvent Message) (s' : Endpoints Message) : Traffic :=
  match s.message id e with
  | none => traffic
  | some now => ⟨now, if s'.queries id then traffic.queried ++ [now] else traffic.queried⟩

/-- The clock does not go back between two messages to the connection. -/
def inOrder (id : Nat) (s : Endpoints Message × Traffic) (e : EndpointEvent Message) : Bool :=
  (s.1.message id e).all fun now => s.2.clock ≤ now

/-- Of the messages to a connection the limiter lets through as many as it may. -/
structure Limited (id : Nat) (s : Endpoints Message × Traffic) : Prop where
  windows : ∀ start, s.2.queried.countP (fun t => start ≤ t ∧ t ≤ start + wsAuctionMsgWindow) ≤
    wsAuctionMsgMaxPerWindow
  timestamps : ∀ h msgTimestamps, s.1.handlers.get id = some h →
    h.phase.msgTimestamps = some msgTimestamps →
      msgTimestamps.Pairwise (· ≤ ·) ∧ msgTimestamps.length ≤ wsAuctionMsgMaxPerWindow
  dropped : ∀ e s' now, s.1.step e = some s' → inOrder id s e = true →
    s.1.message id e = some now → (s'.queries id = false ↔ wsAuctionMsgMaxPerWindow ≤
      s.2.queried.countP fun t => now - wsAuctionMsgWindow ≤ t ∧ t ≤ now)

def Next.phase : Next → Phase
  | .await phase => phase
  | .register => .receiving []
  | .leave => .ended
  | .exit _ => .ended

/-- A handler that is told of no message keeps its timestamps. -/
def Handler.Keeps (h : Handler) (next : Next) : Prop :=
  ∀ msgTimestamps, next.phase.msgTimestamps = some msgTimestamps →
    h.phase.msgTimestamps = some msgTimestamps

/-- A failure in the loop keeps the log. -/
theorem Handler.Keeps.of_raise {h : Handler} {msgTimestamps : List Time}
    (hPhase : h.phase.msgTimestamps = some msgTimestamps) (failure : Failure) :
    h.Keeps (raiseInLoop msgTimestamps failure) := by
  intro kept hKept
  cases failure with
  | timeoutError => exact hPhase.trans hKept
  | _ => cases hKept

/-- Whatever a handler raises, its log is kept or dropped with it. -/
theorem Handler.raised_keeps {h : Handler} {failure : Failure} {next : Next}
    (hNext : h.raised failure = some next) : h.Keeps next := by
  obtain ⟨endpoint, phase⟩ := h
  cases phase with
  | receiving msgTimestamps =>
      cases hNext
      exact .of_raise rfl failure
  | closing msgTimestamps raised =>
      cases hNext
      exact .of_raise rfl failure
  | querying msgTimestamps =>
      cases hNext
      exact fun _ hKept => hKept
  | answering msgTimestamps =>
      cases hNext
      exact fun _ hKept => hKept
  | ended => cases hNext
  | _ =>
      cases hNext
      intro _ hKept
      cases hKept

/-- Whatever an awaited call returns, the log is kept, but for a message. -/
theorem Handler.returned_keeps {h : Handler} {now : Time} {found : Bool} {next : Next}
    (hNext : h.returned now found = some next) (hNot : ¬h.listens = true) : h.Keeps next := by
  obtain ⟨endpoint, phase⟩ := h
  intro kept hKept
  cases phase with
  | denying =>
      cases hNext
      cases hKept
  | authorizing =>
      cases endpoint with
      | auction ip auctionId => cases hNext
      | notifications userId =>
          cases hNext
          cases found with
          | true => exact hKept
          | false => cases hKept
  | accepting =>
      cases hNext
      exact hKept
  | receiving msgTimestamps =>
      cases endpoint with
      | auction ip auctionId => exact absurd rfl hNot
      | notifications userId =>
          cases hNext
          exact hKept
  | querying msgTimestamps =>
      cases hNext
      cases found <;> exact hKept
  | closing msgTimestamps raised =>
      cases raised with
      | none =>
          cases hNext
          exact hKept
      | some failure =>
          cases hNext
          exact Handler.Keeps.of_raise rfl failure kept hKept
  | ended => cases hNext
  | _ =>
      cases hNext
      exact hKept

namespace Endpoints

variable {s s' : Endpoints Message} {id : Nat}

theorem handlers_next (s : Endpoints Message) (id : Nat) (endpoint : Endpoint) (next : Next) :
    (s.next id endpoint next).handlers =
      s.handlers.modify id fun h => { h with phase := next.phase } := by
  cases next with
  | exit raised =>
      have hRelease (s : Endpoints Message) : (s.release endpoint).handlers = s.handlers := by
        rw [release_eq]
      simp only [Endpoints.next, moveTo, hRelease, Next.phase]
      split_ifs <;> rfl
  | _ => rfl

/-- A message is judged by the timestamps. -/
theorem step_message {e : EndpointEvent Message} {now : Time} (hStep : s.step e = some s')
    (hMessage : s.message id e = some now) : ∃ endpoint msgTimestamps,
      s.handlers.get id = some ⟨endpoint, .receiving msgTimestamps⟩ ∧
        s'.handlers.get id = some ⟨endpoint, receive msgTimestamps now⟩ := by
  cases e with
  | returned handler reading found =>
      simp only [message, Option.ite_none_right_eq_some, Bool.and_eq_true, decide_eq_true_eq,
        Option.any_eq_true] at hMessage
      obtain ⟨⟨rfl, ⟨endpoint, phase⟩, hGet, hListens⟩, hNow⟩ := hMessage
      obtain rfl := Option.some.inj hNow
      obtain ⟨h, next, hFound, hNext, rfl⟩ := step_returned hStep
      obtain rfl := Option.some.inj (hGet.symm.trans hFound)
      cases phase with
      | receiving msgTimestamps =>
          cases endpoint with
          | auction ip auctionId =>
              cases hNext
              refine ⟨_, msgTimestamps, hGet, ?_⟩
              rw [handlers_next, Table.get_modify_self, hGet]
              rfl
          | notifications userId => cases hListens
      | _ => cases endpoint <;> cases hListens
  | _ => cases hMessage

def msgTimestamps (s : Endpoints Message) (id : Nat) : Option (List Time) :=
  match s.handlers.get id with
  | none => some []
  | some h => h.phase.msgTimestamps

theorem msgTimestamps_of_get {h : Handler} (hGet : s.handlers.get id = some h) :
    s.msgTimestamps id = h.phase.msgTimestamps := by
  rw [msgTimestamps, hGet]

/-- A new handler starts with an empty log. -/
theorem msgTimestamps_start {endpoint : Endpoint} {phase : Phase} {kept : List Time}
    (hPhase : phase.msgTimestamps = some kept → kept = [])
    (hKept : (s.start endpoint phase).msgTimestamps id = some kept) :
    s.msgTimestamps id = some kept := by
  unfold msgTimestamps start at hKept
  simp only [Table.get_add] at hKept
  split_ifs at hKept with hNew
  · rw [hPhase hKept, msgTimestamps, hNew, s.handlers.unused _ le_rfl]
  · exact hKept

theorem msgTimestamps_next {handler : Nat} {h : Handler} {next : Next} {kept : List Time}
    (hGet : s.handlers.get handler = some h) (hKeeps : handler = id → h.Keeps next)
    (hKept : (s.next handler h.endpoint next).msgTimestamps id = some kept) :
    s.msgTimestamps id = some kept := by
  unfold msgTimestamps at hKept ⊢
  rw [handlers_next] at hKept
  by_cases hSame : id = handler
  · subst hSame
    rw [Table.get_modify_self, hGet] at hKept
    rw [hGet]
    exact hKeeps rfl kept hKept
  · rwa [Table.get_modify_other _ _ hSame] at hKept

/-- Nothing but a message changes the timestamps. -/
theorem step_silent {e : EndpointEvent Message} {kept : List Time} (hStep : s.step e = some s')
    (hNone : s.message id e = none) (hKept : s'.msgTimestamps id = some kept) :
    s.msgTimestamps id = some kept := by
  cases e with
  | websocketEndpoint client auctionId =>
      simp only [step] at hStep
      split_ifs at hStep
      · cases hStep
        apply msgTimestamps_start _ hKept
        intro hDenied
        cases hDenied
      · cases hStep
        apply msgTimestamps_start _ hKept
        intro hFirst
        cases hFirst
        rfl
  | notificationsWebsocket userId tokenMatches =>
      cases hStep
      apply msgTimestamps_start _ hKept
      intro hFirst
      cases tokenMatches <;> cases hFirst
      rfl
  | returned handler now found =>
      obtain ⟨h, next, hGet, hNext, rfl⟩ := step_returned hStep
      apply msgTimestamps_next hGet _ hKept
      rintro rfl
      apply Handler.returned_keeps hNext
      intro hListens
      simp [message, hGet, hListens] at hNone
  | raised handler failure =>
      obtain ⟨h, next, hGet, hNext, rfl⟩ := step_raised hStep
      exact msgTimestamps_next hGet (fun _ => Handler.raised_keeps hNext) hKept
  | other e =>
      obtain ⟨-, server, -, rfl⟩ := step_other hStep
      exact hKept

end Endpoints

/-- A message is answered when the window has room for it. -/
theorem receive_eq (msgTimestamps : List Time) (now : Time)
    (hOrder : msgTimestamps.Pairwise (· ≤ ·)) : receive msgTimestamps now =
      if wsAuctionMsgMaxPerWindow ≤ (logged wsAuctionMsgWindow msgTimestamps now).length then
        .receiving (logged wsAuctionMsgWindow msgTimestamps now)
      else .querying (logged wsAuctionMsgWindow msgTimestamps now ++ [now]) := by
  simp only [receive, dropWhile_eq_logged hOrder]

/-- The timestamps are those of the messages let through in the window that ends
with the last message. -/
structure Limiting (id : Nat) (s : Endpoints Message × Traffic) : Prop where
  bounded : Bounded wsAuctionMsgWindow wsAuctionMsgMaxPerWindow (units s.2.queried)
  past : ∀ t ∈ s.2.queried, t ≤ s.2.clock
  order : s.2.queried.Pairwise (· ≤ ·)
  kept : ∀ msgTimestamps, s.1.msgTimestamps id = some msgTimestamps →
    msgTimestamps = logged wsAuctionMsgWindow s.2.queried s.2.clock

namespace Limiting

variable {id : Nat} {s : Endpoints Message × Traffic} {s' : Endpoints Message}
  {e : EndpointEvent Message} {now : Time}

/-- In order of time no message is earlier than those logged. -/
theorem past_of_inOrder (h : Limiting id s) (hMessage : s.1.message id e = some now)
    (hOrder : inOrder id s e = true) : s.2.clock ≤ now ∧ ∀ t ∈ s.2.queried, t ≤ now := by
  rw [inOrder, hMessage] at hOrder
  have hClock : s.2.clock ≤ now := of_decide_eq_true hOrder
  exact ⟨hClock, fun t hTime => (h.past t hTime).trans hClock⟩

/-- The handler has at a message the window that ends with it. -/
theorem message (h : Limiting id s) (hStep : s.1.step e = some s')
    (hMessage : s.1.message id e = some now) (hOrder : inOrder id s e = true) :
    ∃ endpoint, s'.handlers.get id = some ⟨endpoint,
      if wsAuctionMsgMaxPerWindow ≤ (logged wsAuctionMsgWindow s.2.queried now).length then
        .receiving (logged wsAuctionMsgWindow s.2.queried now)
      else .querying (logged wsAuctionMsgWindow s.2.queried now ++ [now])⟩ := by
  obtain ⟨endpoint, msgTimestamps, hGet, hGet'⟩ := Endpoints.step_message hStep hMessage
  have hKept := h.kept msgTimestamps (Endpoints.msgTimestamps_of_get hGet)
  have hSorted : msgTimestamps.Pairwise (· ≤ ·) := by
    rw [hKept]
    exact h.order.sublist List.filter_sublist
  refine ⟨endpoint, hGet'.trans ?_⟩
  rw [receive_eq _ _ hSorted, hKept, logged_logged (h.past_of_inOrder hMessage hOrder).1]

/-- A message is dropped if the window is full. -/
theorem queries_eq (h : Limiting id s) (hStep : s.1.step e = some s')
    (hMessage : s.1.message id e = some now) (hOrder : inOrder id s e = true) :
    s'.queries id = false ↔
      wsAuctionMsgMaxPerWindow ≤ (logged wsAuctionMsgWindow s.2.queried now).length := by
  obtain ⟨endpoint, hGet'⟩ := h.message hStep hMessage hOrder
  rw [Endpoints.queries, hGet']
  split_ifs with hFull
  · exact iff_of_true rfl hFull
  · exact iff_of_false Bool.noConfusion hFull

theorem initial (id : Nat) (t : Time) : Limiting id ((.initial : Endpoints Message), ⟨t, []⟩) where
  bounded _ := Nat.zero_le _
  past t hTime := by cases hTime
  order := .nil
  kept _ hKept := (Option.some.inj hKept).symm

/-- What a step leaves of the messages to the connection. -/
theorem step (h : Limiting id s) (hStep : s.1.step e = some s') (hOrder : inOrder id s e = true) :
    Limiting id (s', s.2.record id s.1 e s') := by
  cases hMessage : s.1.message id e with
  | none =>
      have hSame : s.2.record id s.1 e s' = s.2 := by rw [Traffic.record, hMessage]
      rw [hSame]
      exact ⟨h.bounded, h.past, h.order, fun _ hKept =>
        h.kept _ (Endpoints.step_silent hStep hMessage hKept)⟩
  | some now =>
      obtain ⟨hClock, hPast⟩ := h.past_of_inOrder hMessage hOrder
      obtain ⟨endpoint, hGet'⟩ := h.message hStep hMessage hOrder
      have hQueries := h.queries_eq hStep hMessage hOrder
      have hRecord : s.2.record id s.1 e s' =
          ⟨now, if s'.queries id then s.2.queried ++ [now] else s.2.queried⟩ := by
        rw [Traffic.record, hMessage]
      rw [hRecord]
      by_cases hFull :
          wsAuctionMsgMaxPerWindow ≤ (logged wsAuctionMsgWindow s.2.queried now).length
      · rw [hQueries.mpr hFull, if_neg Bool.false_ne_true]
        refine ⟨h.bounded, hPast, h.order, fun kept hKept => ?_⟩
        rw [Endpoints.msgTimestamps_of_get hGet', if_pos hFull] at hKept
        exact (Option.some.inj hKept).symm
      · have hLet : s'.queries id = true := by
          rw [← Bool.not_eq_false, hQueries]
          exact hFull
        rw [hLet, if_pos rfl]
        refine ⟨(bounded_units_snoc (by decide) hPast).mpr ⟨h.bounded, not_le.mp hFull⟩, ?_, ?_,
          fun kept hKept => ?_⟩
        · intro t hTime
          rcases List.mem_append.mp hTime with hOld | hNew
          · exact hPast t hOld
          · exact (List.mem_singleton.mp hNew).le
        · apply List.pairwise_append.mpr
          refine ⟨h.order, List.pairwise_singleton _ _, fun t hTime other hOther => ?_⟩
          rw [List.mem_singleton.mp hOther]
          exact hPast t hTime
        · rw [Endpoints.msgTimestamps_of_get hGet', if_neg hFull] at hKept
          rw [logged_snoc (by decide)]
          exact (Option.some.inj hKept).symm

/-- The invariant gives the limit. -/
theorem limited (h : Limiting id s) : Limited id s where
  windows start := by
    rw [← load_units]
    exact h.bounded start
  timestamps handler msgTimestamps hGet hPhase := by
    have hKept := h.kept msgTimestamps ((Endpoints.msgTimestamps_of_get hGet).trans hPhase)
    rw [hKept]
    exact ⟨h.order.sublist List.filter_sublist, h.bounded.logged_le h.past⟩
  dropped e s' now hStep hOrder hMessage := by
    rw [h.queries_eq hStep hMessage hOrder, length_logged (h.past_of_inOrder hMessage hOrder).2]

end Limiting

/-- The handlers with the messages to one connection. -/
def trafficStep (id : Nat) :
    Endpoints Message × Traffic → EndpointEvent Message → Option (Endpoints Message × Traffic) :=
  Runs.recording Endpoints.step (Traffic.record id)

/-- Whatever comes in on a connection, whenever: no interval of a minute sees more
messages at the query than the cap, `msg_timestamps` is in order and no longer than
the cap, and a message is dropped only if the minute before it has seen as many. -/
theorem messages_limited {id : Nat} {t : Time} {s : Endpoints Message × Traffic}
    (run : Runs.Reaches (trafficStep id) (fun s e => inOrder id s e = true)
      (.initial, ⟨t, []⟩) s) : Limited id s := by
  have hLimiting : Limiting id s := by
    apply run.invariant (Limiting.initial id t)
    intro s c' e h hStep hOrder
    obtain ⟨s', hMoves, rfl⟩ := Option.map_eq_some_iff.mp hStep
    exact h.step hMoves hOrder
  exact hLimiting.limited

/-- A message, its query, which finds no lot, and the end of the session. -/
def messageAt (now : Time) : List (EndpointEvent Unit) :=
  [.returned 0 now false, .returned 0 now false, .returned 0 now false]

/-- Thirty messages at once fill the window, also for one that comes a minute later to the
microsecond, but for none after that. -/
theorem messages_limited_burst : ∃ s : Endpoints Unit × Traffic,
    s.2 = ⟨seconds 60 + 1, List.replicate 30 0 ++ [seconds 60 + 1]⟩ ∧ Limited 0 s := by
  obtain ⟨s, run, hTraffic⟩ := Runs.exists_reaches (trafficStep 0)
    (fun s e => inOrder 0 s e = true) ((.initial : Endpoints Unit), ⟨0, []⟩)
    ([.websocketEndpoint none 7, .returned 0 0 false] ++ (List.replicate 30 (messageAt 0)).flatten ++
      [.returned 0 (seconds 60) false, .returned 0 (seconds 60 + 1) false])
    (fun s => s.2 = ⟨seconds 60 + 1, List.replicate 30 0 ++ [seconds 60 + 1]⟩)
    (by decide +kernel)
  exact ⟨s, hTraffic, messages_limited run⟩

end OnlineAuction.Realtime
