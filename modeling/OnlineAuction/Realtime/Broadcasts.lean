import OnlineAuction.Library.InTurn
import OnlineAuction.Realtime.LiveSockets
import OnlineAuction.Realtime.Quotes

/-! One process: the sessions of its requests and ticks, the broadcasts that
follow their commits, and the sockets of the lots. A broadcast is known by the
number of its commit among those that are broadcast. -/

namespace OnlineAuction.Realtime

open RowLocks

variable {Socket : Type}

/-- A broadcast is pending while its session refreshes its rows and awaits its
notifications, and abandoned when the session ends short of its last send. -/
inductive Progress where
  | pending
  | begun
  | abandoned
  deriving DecidableEq

/-- `taken` tells that the connection has taken the frame of the send that the
call of `_fan_out` awaits. The history: which frames each socket has been given,
and how many had been announced when it connected to a lot. -/
structure Broadcasting (Socket : Type) where
  served : Served
  announcers : Nat → Option Announcer
  announced : List Announcement
  progress : Nat → Progress
  server : Server Socket Frame
  taken : Nat → Bool
  given : Socket → List Nat
  joined : LotId → Socket → Nat

/-- A connection takes a frame at some time between the call of `send_json` and
its answer, and may have taken it when the answer is that it has failed. -/
inductive Broadcast (Socket : Type) where
  | act (a : Action market Request)
  | connect (websocket : Socket) (auctionId : LotId)
  | disconnect (websocket : Socket) (auctionId : LotId)
  | begin (order : Nat)
  | take (order : Nat)
  | answer (order : Nat) (sent : Bool)
  | abandon (order : Nat)

namespace Broadcasting

def initial (categories : List Nat) : Broadcasting Socket where
  served := .initial categories
  announcers _ := none
  announced := []
  progress _ := .pending
  server := .initial
  taken _ := false
  given _ := []
  joined _ _ := 0

variable (s : Broadcasting Socket)

def db : Db := s.served.1.db

/-- What the session that makes this action is going to broadcast. -/
def announces (a : Action market Request) : Option Announcement :=
  match answered s.served.1 a with
  | some (sid, .committed _ _) => (s.announcers sid).bind Announcer.announcement
  | _ => none

def lot (order : Nat) : Option LotId := (s.announced[order]?).map Announcement.auctionId

def head (order : Nat) : Option Socket := (s.server.fanOuts order).bind fun f => f.waiting.head?

/-- The sockets that a broadcast in progress has yet to give its frame to. -/
def remaining (order : Nat) : List Socket :=
  match s.server.fanOuts order with
  | none => []
  | some f => if s.taken order then f.waiting.tail else f.waiting

/-- The frame is still to be given to the socket, or may yet be. -/
def due (order : Nat) (websocket : Socket) : Prop :=
  s.progress order = .pending ∨ websocket ∈ s.remaining order

def frames (auctionId : LotId) (websocket : Socket) : List Frame :=
  ((s.given websocket).filterMap fun order =>
    (s.announced[order]?).filter (·.auctionId = auctionId)).map Announcement.frame

/-- The prices of the `new_bid` frames that the socket has been given. -/
def prices (auctionId : LotId) (websocket : Socket) : List Money :=
  (s.frames auctionId websocket).filterMap Frame.price?

variable [DecidableEq Socket]

instance (order : Nat) (websocket : Socket) : Decidable (s.due order websocket) :=
  inferInstanceAs (Decidable (_ ∨ _))

def give (order : Nat) (websocket : Socket) : Broadcasting Socket :=
  { s with
    taken := Function.update s.taken order true
    given := Function.update s.given websocket (s.given websocket ++ [order]) }

def join (auctionId : LotId) (websocket : Socket) : LotId → Socket → Nat :=
  fun auctionId' websocket' =>
    if auctionId' = auctionId ∧ websocket' = websocket then s.announced.length
    else s.joined auctionId' websocket'

end Broadcasting

variable [DecidableEq Socket]

/-- One step of the process. A send is answered as sent only once its frame has
been taken. -/
def proceed (percent : CommissionPercent) (s : Broadcasting Socket) :
    Broadcast Socket → Option (Broadcasting Socket)
  | .act a => (serve percent s.served a).map fun served =>
      { s with
        served := served
        announcers := announcing.track Announcer.begin s.announcers s.served.1 a
        announced := s.announced ++ (s.announces a).toList }
  | .connect websocket auctionId =>
      (step s.server (.connect websocket (.auction auctionId))).map fun server =>
        { s with server := server, joined := s.join auctionId websocket }
  | .disconnect websocket auctionId =>
      (step s.server (.disconnect websocket (.auction auctionId))).map fun server =>
        { s with server := server }
  | .begin order =>
      match s.announced[order]? with
      | none => none
      | some announcement =>
          if s.progress order = .pending then
            (step s.server
              (.fanOut order (.auction announcement.auctionId) announcement.frame)).map fun server =>
              { s with
                server := server
                progress := Function.update s.progress order .begun
                taken := Function.update s.taken order false }
          else none
  | .take order => if s.taken order then none else (s.head order).map (s.give order)
  | .answer order sent =>
      if sent = true ∧ s.taken order = false then none
      else (step s.server (.answer order sent)).map fun server =>
        { s with server := server, taken := Function.update s.taken order false }
  | .abandon order =>
      if order < s.announced.length ∧
          (s.progress order = .pending ∨ (s.server.fanOuts order).isSome = true) then
        (step s.server (.cancel order)).map fun server =>
          { s with server := server, progress := Function.update s.progress order .abandoned }
      else none

/-- Each socket of a lot is given its `new_bid` frames with prices that do not fall,
and none after the frame of its end; once the latest bid has been broadcast, the last
`new_bid` frame of a live socket that was there before it was committed carries the
current price. -/
structure PriceFramesInOrder (s : Broadcasting Socket) : Prop where
  rising : ∀ auctionId websocket, (s.prices auctionId websocket).Pairwise (· ≤ ·)
  ended : ∀ auctionId websocket, (s.frames auctionId websocket).Pairwise fun earlier later =>
    ∀ finalPrice, earlier = .auctionEnded finalPrice → later.price? = none
  current : ∀ auctionId order price, LatestBid s.announced auctionId order price →
    s.progress order = .begun → s.server.fanOuts order = none → ∀ websocket,
      s.server.live (.auction auctionId) websocket → s.joined auctionId websocket ≤ order →
        ∃ row, s.db.auctions.get auctionId = some row ∧
          (s.prices auctionId websocket).getLast? = some row.currentPrice

/-- No connection takes a frame while that of an earlier commit on the lot is
still due to it, and no fan-out drops a list that is not its own. -/
def InCommitOrder (s : Broadcasting Socket) : Broadcast Socket → Prop
  | .take order => ∀ websocket ∈ s.head order, ∀ earlier < order, s.lot earlier = s.lot order →
      ¬s.due earlier websocket
  | .answer order sent => DropsOwnList s.server (.answer order sent)
  | _ => True

instance (s : Broadcasting Socket) (e : Broadcast Socket) : Decidable (InCommitOrder s e) := by
  unfold InCommitOrder
  split <;> infer_instance

end OnlineAuction.Realtime
