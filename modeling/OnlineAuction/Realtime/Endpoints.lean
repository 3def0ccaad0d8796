import OnlineAuction.Realtime.LiveSockets

/-! The two handlers of `app/routers/websocket.py`. A handler runs from one await
to the next; each has a socket of its own, which goes by the number of the handler. -/

namespace OnlineAuction.Realtime

def maxAuctionWsPerIp : Nat := 50

def wsAuctionMsgWindow : Time := seconds 60

def wsAuctionMsgMaxPerWindow : Nat := 30

/-- `_client_ip`. -/
def clientIp (client : Option String) : String := client.getD "unknown"

/-- The handler: `websocket_endpoint` or `notifications_websocket`. -/
inductive Endpoint where
  | auction (ip : String) (auctionId : LotId)
  | notifications (userId : UserId)
  deriving DecidableEq

def Endpoint.key : Endpoint → Channel
  | .auction _ auctionId => .auction auctionId
  | .notifications userId => .user userId

/-- What an awaited call raises. `CancelledError` is not an `Exception`. -/
inductive Failure where
  | timeoutError
  | webSocketDisconnect
  | exception
  | cancelledError
  deriving DecidableEq

/-- The call that the handler awaits: `websocket.close`, the `select(User)` of the
handshake, `websocket.accept`, `receive_text`, the `select(Auction)`, the
`send_json` of the answer, the end of the database session, which an exception may
have brought about, or the `send_json` of a ping. -/
inductive Phase where
  | denying
  | authorizing
  | accepting
  | receiving (msgTimestamps : List Time)
  | querying (msgTimestamps : List Time)
  | answering (msgTimestamps : List Time)
  | closing (msgTimestamps : List Time) (raised : Option Failure)
  | pinging (msgTimestamps : List Time)
  | ended
  deriving DecidableEq

structure Handler where
  endpoint : Endpoint
  phase : Phase
  deriving DecidableEq

/-- What a handler does once its call has ended: await the next one, register
its socket, end before its loop, or leave the loop, by a `break` or an exception. -/
inductive Next where
  | await (phase : Phase)
  | register
  | leave
  | exit (raised : Option Failure)
  deriving DecidableEq

/-- An exception in the loop, outside the ping. -/
def raiseInLoop (msgTimestamps : List Time) : Failure → Next
  | .timeoutError => .await (.pinging msgTimestamps)
  | failure => .exit (some failure)

/-- A message has come in: the timestamps in the window, and the query, or none
of it when the window is full. -/
def receive (msgTimestamps : List Time) (now : Time) : Phase :=
  let recent := msgTimestamps.dropWhile fun t => wsAuctionMsgWindow < now - t
  if wsAuctionMsgMaxPerWindow ≤ recent.length then .receiving recent
  else .querying (recent ++ [now])

namespace Handler

/-- The call has returned: at `now` on the monotonic clock, or with a row, or
with a user whose token version the token has. -/
def returned (h : Handler) (now : Time) (found : Bool) : Option Next :=
  match h.phase with
  | .denying => some .leave
  | .authorizing => match h.endpoint with
      | .notifications _ => some (.await (if found then .accepting else .denying))
      | .auction _ _ => none
  | .accepting => some .register
  | .receiving msgTimestamps => match h.endpoint with
      | .auction _ _ => some (.await (receive msgTimestamps now))
      | .notifications _ => some (.await (.receiving msgTimestamps))
  | .querying msgTimestamps =>
      some (.await (if found then .answering msgTimestamps else .closing msgTimestamps none))
  | .answering msgTimestamps => some (.await (.closing msgTimestamps none))
  | .closing msgTimestamps none => some (.await (.receiving msgTimestamps))
  | .closing msgTimestamps (some failure) => some (raiseInLoop msgTimestamps failure)
  | .pinging msgTimestamps => some (.await (.receiving msgTimestamps))
  | .ended => none

/-- The call has raised. Until `accept` has returned nothing is caught, and
whatever the ping raises ends the loop. -/
def raised (h : Handler) (failure : Failure) : Option Next :=
  match h.phase with
  | .denying => some .leave
  | .authorizing => some .leave
  | .accepting => some .leave
  | .receiving msgTimestamps => some (raiseInLoop msgTimestamps failure)
  | .querying msgTimestamps => some (.await (.closing msgTimestamps (some failure)))
  | .answering msgTimestamps => some (.await (.closing msgTimestamps (some failure)))
  | .closing msgTimestamps _ => some (raiseInLoop msgTimestamps failure)
  | .pinging _ => some (.exit (if failure = .cancelledError then some failure else none))
  | .ended => none

end Handler

def Phase.inLoop : Phase → Bool
  | .receiving _ => true
  | .querying _ => true
  | .answering _ => true
  | .closing _ _ => true
  | .pinging _ => true
  | _ => false

inductive Handler.Moves (h : Handler) : Next → Prop where
  | authorized (userId : UserId) (hEndpoint : h.endpoint = .notifications userId)
      (hPhase : h.phase = .authorizing) (phase : Phase) (hNot : phase.inLoop = false) :
      Moves h (.await phase)
  | loops (hLoop : h.phase.inLoop = true) (phase : Phase) (hNext : phase.inLoop = true) :
      Moves h (.await phase)
  | accepted (hPhase : h.phase = .accepting) : Moves h .register
  | denied (hPhase : h.phase = .denying ∨ h.phase = .authorizing) : Moves h .leave
  | failed (hPhase : h.phase = .accepting) : Moves h .leave
  | exits (hLoop : h.phase.inLoop = true) (raised : Option Failure) : Moves h (.exit raised)

theorem receive_inLoop (msgTimestamps : List Time) (now : Time) :
    (receive msgTimestamps now).inLoop = true := by
  simp only [receive]
  split_ifs <;> rfl

/-- A failure in the loop leads out of it. -/
theorem Handler.Moves.of_raise {h : Handler} (hLoop : h.phase.inLoop = true)
    (msgTimestamps : List Time) (failure : Failure) :
    h.Moves (raiseInLoop msgTimestamps failure) := by
  cases failure with
  | timeoutError => exact .loops hLoop _ rfl
  | _ => exact .exits hLoop _

/-- What an awaited call returns leads to a next phase. -/
theorem Handler.returned_moves {h : Handler} {now : Time} {found : Bool} {next : Next}
    (hNext : h.returned now found = some next) : h.Moves next := by
  obtain ⟨endpoint, phase⟩ := h
  cases phase with
  | denying =>
      cases hNext
      exact .denied (.inl rfl)
  | authorizing =>
      cases endpoint with
      | auction => cases hNext
      | notifications userId =>
          cases hNext
          apply Moves.authorized userId rfl rfl
          split_ifs <;> rfl
  | accepting =>
      cases hNext
      exact .accepted rfl
  | receiving msgTimestamps =>
      cases endpoint with
      | auction ip auctionId =>
          cases hNext
          exact .loops rfl _ (receive_inLoop _ _)
      | notifications userId =>
          cases hNext
          exact .loops rfl _ rfl
  | querying msgTimestamps =>
      cases hNext
      apply Moves.loops rfl
      split_ifs <;> rfl
  | answering msgTimestamps =>
      cases hNext
      exact .loops rfl _ rfl
  | closing msgTimestamps raised =>
      cases raised with
      | none =>
          cases hNext
          exact .loops rfl _ rfl
      | some failure =>
          cases hNext
          exact .of_raise rfl _ _
  | pinging msgTimestamps =>
      cases hNext
      exact .loops rfl _ rfl
  | ended => cases hNext

/-- So does what it raises. -/
theorem Handler.raised_moves {h : Handler} {failure : Failure} {next : Next}
    (hNext : h.raised failure = some next) : h.Moves next := by
  obtain ⟨endpoint, phase⟩ := h
  cases phase with
  | denying =>
      cases hNext
      exact .denied (.inl rfl)
  | authorizing =>
      cases hNext
      exact .denied (.inr rfl)
  | accepting =>
      cases hNext
      exact .failed rfl
  | receiving msgTimestamps =>
      cases hNext
      exact .of_raise rfl _ _
  | querying msgTimestamps =>
      cases hNext
      exact .loops rfl _ rfl
  | answering msgTimestamps =>
      cases hNext
      exact .loops rfl _ rfl
  | closing msgTimestamps raised =>
      cases hNext
      exact .of_raise rfl _ _
  | pinging msgTimestamps =>
      cases hNext
      exact .exits rfl _
  | ended => cases hNext

/-- The exits of the loop through an `except` clause, where the socket is
disconnected. -/
def disconnects : Option Failure → Bool
  | some .webSocketDisconnect => true
  | some .exception => true
  | _ => false

/-- The registry with the fan-outs in progress, `_auction_ws_per_ip`, and every
handler ever started. -/
structure Endpoints (Message : Type) where
  server : Server Nat Message
  auctionWsPerIp : String → Option Nat
  handlers : Table Handler

/-- A handler is called, or the call it awaits ends. Whether a handshake carries
the token of the user in its path is decided at once. Anything else that uses
the registry takes steps of its own. -/
inductive EndpointEvent (Message : Type) where
  | websocketEndpoint (client : Option String) (auctionId : LotId)
  | notificationsWebsocket (userId : UserId) (tokenMatches : Bool)
  | returned (handler : Nat) (now : Time) (found : Bool)
  | raised (handler : Nat) (failure : Failure)
  | other (e : Event Nat Message)

variable {Message : Type}

namespace Endpoints

def initial : Endpoints Message := ⟨.initial, fun _ => none, .empty⟩

/-- The number of handlers of this address that `_auction_ws_per_ip` has counted. -/
def held (s : Endpoints Message) (ip : String) : Nat := (s.auctionWsPerIp ip).getD 0

def start (s : Endpoints Message) (endpoint : Endpoint) (phase : Phase) : Endpoints Message :=
  { s with handlers := s.handlers.add fun _ => ⟨endpoint, phase⟩ }

def moveTo (s : Endpoints Message) (id : Nat) (phase : Phase) : Endpoints Message :=
  { s with handlers := s.handlers.modify id fun h => { h with phase := phase } }

/-- The `finally` clause of `websocket_endpoint`. -/
def release (s : Endpoints Message) : Endpoint → Endpoints Message
  | .auction ip _ =>
      let remaining := s.held ip - 1
      { s with
        auctionWsPerIp := Function.update s.auctionWsPerIp ip
          (if 0 < remaining then some remaining else none) }
  | .notifications _ => s

def next (s : Endpoints Message) (id : Nat) (endpoint : Endpoint) : Next → Endpoints Message
  | .await phase => s.moveTo id phase
  | .register => { s with server := s.server.connect id endpoint.key }.moveTo id (.receiving [])
  | .leave => s.moveTo id .ended
  | .exit raised =>
      let s := if disconnects raised then { s with server := s.server.disconnect id endpoint.key }
        else s
      (s.release endpoint).moveTo id .ended

def step (s : Endpoints Message) : EndpointEvent Message → Option (Endpoints Message)
  | .websocketEndpoint client auctionId =>
      let ip := clientIp client
      if maxAuctionWsPerIp ≤ s.held ip then some (s.start (.auction ip auctionId) .denying)
      else
        let s := { s with
          auctionWsPerIp := Function.update s.auctionWsPerIp ip (some (s.held ip + 1)) }
        some (s.start (.auction ip auctionId) .accepting)
  | .notificationsWebsocket userId tokenMatches =>
      some (s.start (.notifications userId) (if tokenMatches then .authorizing else .denying))
  | .returned id now found => do
      let h ← s.handlers.get id
      return s.next id h.endpoint (← h.returned now found)
  | .raised id failure => do
      let h ← s.handlers.get id
      return s.next id h.endpoint (← h.raised failure)
  | .other (.connect _ _) => none
  | .other e => (Realtime.step s.server e).map fun server => { s with server := server }

/-- The `finally` clause touches the slots only. -/
theorem release_eq (s : Endpoints Message) (endpoint : Endpoint) :
    s.release endpoint = ⟨s.server, (s.release endpoint).auctionWsPerIp, s.handlers⟩ := by
  cases endpoint <;> rfl

/-- Nothing but a handler registers a socket. -/
theorem step_other {s s' : Endpoints Message} {e : Event Nat Message}
    (hStep : s.step (.other e) = some s') : (∀ websocket key, e ≠ .connect websocket key) ∧
      ∃ server, Realtime.step s.server e = some server ∧ s' = { s with server := server } := by
  have hMap (hOld : ∀ websocket key, e ≠ .connect websocket key)
      (hStep : (Realtime.step s.server e).map (fun server => { s with server := server }) = some s') :
      (∀ websocket key, e ≠ .connect websocket key) ∧
        ∃ server, Realtime.step s.server e = some server ∧ s' = { s with server := server } := by
    obtain ⟨server, hServer, hSame⟩ := Option.map_eq_some_iff.mp hStep
    exact ⟨hOld, server, hServer, hSame.symm⟩
  cases e with
  | connect => cases hStep
  | _ => exact hMap (fun _ _ h => by cases h) hStep

/-- A handler is told how its call has ended, and goes on. -/
theorem step_returned {s s' : Endpoints Message} {id : Nat} {now : Time} {found : Bool}
    (hStep : s.step (.returned id now found) = some s') : ∃ h next,
      s.handlers.get id = some h ∧ h.returned now found = some next ∧
        s' = s.next id h.endpoint next := by
  obtain ⟨h, hGet, hStep⟩ := Option.bind_eq_some_iff.mp hStep
  obtain ⟨next, hNext, hStep⟩ := Option.bind_eq_some_iff.mp hStep
  exact ⟨h, next, hGet, hNext, (Option.some.inj hStep).symm⟩

/-- What a step does in which a call raises. -/
theorem step_raised {s s' : Endpoints Message} {id : Nat} {failure : Failure}
    (hStep : s.step (.raised id failure) = some s') : ∃ h next,
      s.handlers.get id = some h ∧ h.raised failure = some next ∧
        s' = s.next id h.endpoint next := by
  obtain ⟨h, hGet, hStep⟩ := Option.bind_eq_some_iff.mp hStep
  obtain ⟨next, hNext, hStep⟩ := Option.bind_eq_some_iff.mp hStep
  exact ⟨h, next, hGet, hNext, (Option.some.inj hStep).symm⟩

end Endpoints

end OnlineAuction.Realtime
