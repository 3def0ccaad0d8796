import OnlineAuction.Market.Commits
import OnlineAuction.Scheduler.Registry

/-! One process: the requests that change a lot and the completion ticks, with
the rows they commit and the registry of timers they share. Every database call
may raise, and a commit that raises may have taken effect. A session yields
between a call and the code that uses its answer. -/

namespace OnlineAuction.Scheduler

/-- What a session is waiting for. A copy that a phase carries was read, or
written, by the session; `row` names a copy whose lock it holds. -/
inductive Phase where
  | idle
  /- `create_auction`: the checks, the commit, the refresh -/
  | createChecks (userId : UserId) (data : AuctionCreate) (startTime : Time)
  | createCommits (row : LotId → Auction)
  | createRefreshes (auctionId : LotId)
  /- `place_bid`: the row lock, the other checks, the commit, the refresh of the bid -/
  | bidWaits (userId : UserId) (bid : BidCreate)
  | bidChecks (userId : UserId) (row : Auction) (amount : Money)
  | bidCommits (userId : UserId) (row changed : Auction) (extended : Bool)
  | bidRefreshes (auction : Auction)
  /- `update_auction`: the row lock, the other checks, the commit, the refresh -/
  | updateWaits (userId : UserId) (auctionId : LotId) (data : AuctionUpdate)
  | updateChecks (row : Auction) (data : AuctionUpdate)
  | updateCommits (row changed : Auction) (extended : Bool)
  | updateRefreshes (auctionId : LotId) (extended : Bool)
  /- the call of `schedule_auction` that ends these three -/
  | schedules (auction : Auction)
  /- `buy_now`: the row lock, the other checks, the commit -/
  | buyWaits (userId : UserId) (auctionId : LotId)
  | buyChecks (userId : UserId) (row : Auction) (price : Money)
  | buyCommits (row changed : Auction)
  /- `delete_auction`: the row lock, the commit, the call of `cancel_auction` -/
  | deleteWaits (userId : UserId) (auctionId : LotId)
  | deleteCommits (auctionId : LotId)
  | deleteReturns (auctionId : LotId)
  /- `_wait_and_complete`: the unlocked row, its answer, the row lock of
  `complete_auction`, its answer, the commit, the end of the database session -/
  | tickLoads (task : Nat) (auctionId : LotId)
  | tickDecides (task : Nat) (auctionId : LotId) (answer : Option Auction)
  | tickWaits (task : Nat) (auction : Auction)
  | tickLocked (task : Nat) (auction : Auction)
  | tickCommits (task : Nat) (auction : Auction)
  | tickCloses (task : Nat) (auctionId : LotId)

/-- The committed lots with their row locks, the users who bid on each, the
latest first, and the memory of the process. -/
structure Process where
  lots : Table Auction
  bidders : LotId → List UserId
  locks : LotId → Option Nat
  registry : Registry
  sessions : Nat → Phase

namespace Process

variable (p : Process) (sid : Nat)

def enter (phase : Phase) : Process := { p with sessions := Function.update p.sessions sid phase }

/-- The transaction ends, and with it the row locks of the session. -/
def release : Process :=
  { p with locks := fun id => if p.locks id = some sid then none else p.locks id }

/-- The request is over; `get_db` closes the session. -/
def leave : Process := (p.release sid).enter sid .idle

/-- `select(Auction).where(Auction.id == …).with_for_update()`: the row lock is
granted on the latest row, `none` while another session holds it. The session
goes on to the phase its checks name, or gives up. -/
def lockLot (auctionId : LotId) (givesUp : Phase) (checks : Auction → Option Phase) :
    Option Process :=
  if p.locks auctionId = none ∨ p.locks auctionId = some sid then
    some (match (p.lots.get auctionId).bind checks with
      | none => (p.release sid).enter sid givesUp
      | some phase =>
          { p with locks := Function.update p.locks auctionId (some sid) }.enter sid phase)
  else none

/-- The `UPDATE` of a lot. -/
def write (row changed : Auction) : Process :=
  { p with lots := p.lots.modify row.id (Auction.flush row changed) }

def setRegistry (registry : Registry) : Process := { p with registry := registry }

/-- The task has been asked to stop: `CancelledError` is raised in it as soon as
the call it waits for has answered. -/
def cancelled (task : Nat) : Bool := (p.registry.tasks.get task).any fun t => t.status = .cancelled

end Process

inductive Request where
  | createAuction (userId : UserId) (data : AuctionCreate)
  | placeBid (userId : UserId) (bid : BidCreate)
  | updateAuction (userId : UserId) (auctionId : LotId) (data : AuctionUpdate)
  | buyNow (userId : UserId) (auctionId : LotId)
  | deleteAuction (userId : UserId) (auctionId : LotId)

def Request.phase (t : Time) : Request → Phase
  | .createAuction userId data => .createChecks userId data t
  | .placeBid userId bid => .bidWaits userId bid
  | .updateAuction userId auctionId data => .updateWaits userId auctionId data
  | .buyNow userId auctionId => .buyWaits userId auctionId
  | .deleteAuction userId auctionId => .deleteWaits userId auctionId

/-- The checks of `place_bid` on the locked lot. -/
def bidPhase (p : Process) (userId : UserId) (bid : BidCreate) (t : Time) (row : Auction) :
    Option Phase :=
  if row.isActive = true ∧ row.auctionType ≠ .bin ∧ row.createdBy ≠ userId ∧ t ≤ row.endTime ∧
      row.currentPrice < bid.amount.val ∧ (p.bidders row.id).head? ≠ some userId then
    some (.bidChecks userId row bid.amount.val)
  else none

/-- The checks of `update_auction` before its edits. -/
def updatePhase (p : Process) (userId : UserId) (data : AuctionUpdate) (row : Auction) :
    Option Phase :=
  if row.createdBy = userId ∧ row.isActive = true ∧ ¬(p.bidders row.id ≠ [] ∧ data.fields = true) then
    some (.updateChecks row data)
  else none

/-- The edits of `update_auction` and its checks after them. -/
def updateCommitPhase (row : Auction) (data : AuctionUpdate) : Option Phase :=
  let edited := data.edit row
  let changed := data.dragAlong edited
  if (edited.auctionType = .bin ∧ edited.binPrice = none) ∨
      changed.binPrice.any (· < changed.startingPrice) then none
  else some (.updateCommits row changed data.extendMinutes.join.isSome)

/-- The checks of `buy_now` on the locked lot. -/
def buyPhase (userId : UserId) (t : Time) (row : Auction) : Option Phase :=
  if row.isActive = true ∧ t ≤ row.endTime ∧ row.auctionType = .bin ∧ row.createdBy ≠ userId then
    (row.binPrice.filter (· ≠ 0)).map (.buyChecks userId row)
  else none

/-- The checks of `delete_auction`. -/
def deletePhase (p : Process) (userId : UserId) (row : Auction) : Option Phase :=
  if row.createdBy = userId ∧ p.bidders row.id = [] ∧ ¬row.isCompleted = true then
    some (.deleteCommits row.id)
  else none

/-- The lot as `complete_auction` closes it. -/
def closed (p : Process) (auction : Auction) : Auction :=
  { auction with
    isActive := false
    isCompleted := true
    winnerId := ((p.bidders auction.id).head?).or auction.winnerId }

/-- What the commit a session waits for does to the committed rows. -/
def Phase.commit (p : Process) : Phase → Option Process
  | .createCommits row => some { p with lots := p.lots.add row }
  | .bidCommits userId row changed _ =>
      some { p.write row changed with
        bidders := Function.update p.bidders row.id (userId :: p.bidders row.id) }
  | .updateCommits row changed _ => some (p.write row changed)
  | .buyCommits row changed => some (p.write row changed)
  | .deleteCommits auctionId => some { p with lots := p.lots.erase auctionId }
  | .tickCommits _ auction => some (p.write auction (closed p auction))
  | _ => none

/-- Where the session goes on once its commit has answered. -/
def Phase.afterCommit (p : Process) : Phase → Phase
  | .createCommits _ => .createRefreshes p.lots.serial
  | .bidCommits _ _ changed extended => if extended then .bidRefreshes changed else .idle
  | .updateCommits row _ extended => .updateRefreshes row.id extended
  | .deleteCommits auctionId => .deleteReturns auctionId
  | .tickCommits task auction => .tickCloses task auction.id
  | _ => .idle

def Phase.awaits : Phase → Bool
  | .idle | .schedules _ | .deleteReturns _ => false
  | .tickDecides _ _ _ | .tickLocked _ _ | .tickCloses _ _ => false
  | _ => true

/-- Where the session is when its call raises: a request is over, a tick logs
the exception, rolls back and closes its session. -/
def Phase.onRaise : Phase → Phase
  | .tickLoads task auctionId => .tickCloses task auctionId
  | .tickWaits task auction => .tickCloses task auction.id
  | .tickCommits task auction => .tickCloses task auction.id
  | _ => .idle

/-- The call of the session has answered, or its code is resumed. `t` is what
`utcnow()` reads there, and `passes` whether the checks against the rows that
are not modelled (users, balances, categories) let the request pass. Under its lock
`complete_auction` reads the copy of the tick. -/
def resume (p : Process) (sid : Nat) (t : Time) (passes : Bool) : Phase → Option Process
  | .createChecks userId data startTime =>
      if passes ∧ ¬(data.auctionType = .bin ∧ data.binPrice = none) then
        some (p.enter sid (.createCommits (newAuction userId data startTime)))
      else some (p.leave sid)
  | .createRefreshes auctionId => match p.lots.get auctionId with
      | none => some (p.leave sid)
      | some auction => some (p.enter sid (.schedules auction))
  | .bidWaits userId bid => p.lockLot sid bid.auctionId .idle (bidPhase p userId bid t)
  | .bidChecks userId row amount =>
      if passes then
        let (changed, extended) := acceptBid row amount t
        some (p.enter sid (.bidCommits userId row changed extended))
      else some (p.leave sid)
  | .bidRefreshes auction => some (p.enter sid (.schedules auction))
  | .updateWaits userId auctionId data => p.lockLot sid auctionId .idle (updatePhase p userId data)
  | .updateChecks row data =>
      if passes then
        match updateCommitPhase row data with
        | none => some (p.leave sid)
        | some phase => some (p.enter sid phase)
      else some (p.leave sid)
  | .updateRefreshes auctionId extended => match p.lots.get auctionId with
      | none => some (p.leave sid)
      | some auction =>
          if extended then some (p.enter sid (.schedules auction)) else some (p.leave sid)
  | .schedules auction =>
      some ((p.setRegistry (p.registry.scheduleAuction none auction)).leave sid)
  | .buyWaits userId auctionId => p.lockLot sid auctionId .idle (buyPhase userId t)
  | .buyChecks userId row price =>
      if passes then
        some ((p.setRegistry (p.registry.cancelAuction row.id)).enter sid
          (.buyCommits row (soldTo row price userId t)))
      else some (p.leave sid)
  | .deleteWaits userId auctionId => p.lockLot sid auctionId .idle (deletePhase p userId)
  | .deleteReturns auctionId =>
      some ((p.setRegistry (p.registry.cancelAuction auctionId)).leave sid)
  | .tickLoads task auctionId =>
      some (p.enter sid (.tickDecides task auctionId (p.lots.get auctionId)))
  | .tickDecides task auctionId answer =>
      if p.cancelled task then some (p.enter sid (.tickCloses task auctionId))
      else match answer.filter fun auction => auction.isActive with
        | none => some (p.enter sid (.tickCloses task auctionId))
        | some auction =>
            if t < auction.endTime then
              some ((p.setRegistry (p.registry.armCompletionTask (some task) auctionId
                auction.endTime)).enter sid (.tickCloses task auctionId))
            else some (p.enter sid (.tickWaits task auction))
  | .tickWaits task auction =>
      p.lockLot sid auction.id (.tickCloses task auction.id) fun _ => some (.tickLocked task auction)
  | .tickLocked task auction =>
      if p.cancelled task then some ((p.release sid).enter sid (.tickCloses task auction.id))
      else if t < auction.endTime then
        some (((p.setRegistry (p.registry.scheduleAuction (some task) auction)).release sid).enter
          sid (.tickCloses task auction.id))
      else some (p.enter sid (.tickCommits task auction))
  | .tickCloses task auctionId =>
      some ((p.setRegistry (p.registry.finish task auctionId)).leave sid)
  | _ => none

/-- A scheduling choice. `raise` makes the pending call of a session raise; a
commit that raises has taken effect when it has `landed`. -/
inductive Event where
  | request (sid : Nat) (request : Request) (t : Time)
  | wake (sid : Nat) (task : Nat)
  | resume (sid : Nat) (t : Time) (passes : Bool)
  | commit (sid : Nat)
  | raise (sid : Nat) (landed : Bool)

/-- One step of the process, `none` when it is not possible. -/
def step (p : Process) : Event → Option Process
  | .request sid request t =>
      if p.sessions sid matches .idle then some (p.enter sid (request.phase t)) else none
  | .wake sid task => match p.sessions sid, p.registry.tasks.get task with
      | .idle, some t =>
          if t.status = .sleeping then
            some ((p.setRegistry (p.registry.wake task)).enter sid (.tickLoads task t.auctionId))
          else none
      | _, _ => none
  | .resume sid t passes => resume p sid t passes (p.sessions sid)
  | .commit sid => ((p.sessions sid).commit p).map fun p' =>
      (p'.release sid).enter sid ((p.sessions sid).afterCommit p)
  | .raise sid landed =>
      if (p.sessions sid).awaits then
        let p' := if landed then ((p.sessions sid).commit p).getD p else p
        some ((p'.release sid).enter sid (p.sessions sid).onRaise)
      else none

inductive Process.Steps (p : Process) : Event → Process → Prop where
  | request {sid : Nat} {request : Request} {t : Time} (hIdle : p.sessions sid = .idle) :
      Steps p (.request sid request t) (p.enter sid (request.phase t))
  | wake {sid task : Nat} {t : CompletionTask} (hIdle : p.sessions sid = .idle)
      (hTask : p.registry.tasks.get task = some t) (hSleeping : t.status = .sleeping) :
      Steps p (.wake sid task)
        ((p.setRegistry (p.registry.wake task)).enter sid (.tickLoads task t.auctionId))
  | resume {sid : Nat} {t : Time} {passes : Bool} {p' : Process}
      (hResume : resume p sid t passes (p.sessions sid) = some p') : Steps p (.resume sid t passes) p'
  | commit {sid : Nat} {middle : Process} (hCommit : (p.sessions sid).commit p = some middle) :
      Steps p (.commit sid) ((middle.release sid).enter sid ((p.sessions sid).afterCommit p))
  | fails {sid : Nat} {landed : Bool} (hAwaits : (p.sessions sid).awaits = true)
      (hNone : landed = true → (p.sessions sid).commit p = none) :
      Steps p (.raise sid landed) ((p.release sid).enter sid (p.sessions sid).onRaise)
  | failsLate {sid : Nat} {middle : Process} (hAwaits : (p.sessions sid).awaits = true)
      (hCommit : (p.sessions sid).commit p = some middle) :
      Steps p (.raise sid true) ((middle.release sid).enter sid (p.sessions sid).onRaise)

/-- Every step of the process is one of those listed. -/
theorem Process.steps_of_step {p p' : Process} {e : Event} (hStep : step p e = some p') :
    p.Steps e p' := by
  cases e with
  | request sid request t =>
      simp only [step] at hStep
      split at hStep
      next hIs =>
        cases hStep
        exact .request (by simpa using hIs)
      next => cases hStep
  | wake sid task =>
      simp only [step] at hStep
      split at hStep
      next woken hIdle hTask =>
        obtain ⟨hSleeping, hStep⟩ := Option.ite_none_right_eq_some.mp hStep
        cases hStep
        exact .wake hIdle hTask hSleeping
      next => cases hStep
  | resume sid t passes => exact .resume hStep
  | commit sid =>
      obtain ⟨middle, hCommit, rfl⟩ := Option.map_eq_some_iff.mp hStep
      exact .commit hCommit
  | raise sid landed =>
      obtain ⟨hAwaits, hStep⟩ := Option.ite_none_right_eq_some.mp hStep
      cases hStep
      cases landed with
      | false => exact .fails hAwaits Bool.noConfusion
      | true =>
          rw [if_pos rfl]
          cases hCommit : (p.sessions sid).commit p with
          | none => exact .fails hAwaits fun _ => hCommit
          | some middle => exact .failsLate hAwaits hCommit

/-- A committed table of lots, `none` where a lot has been deleted. -/
def storedLots (rows : List (Option Auction)) : Table Auction where
  get id := rows[id]?.join.map fun row => { row with id := id }
  serial := rows.length
  unused id h := by simp [List.getElem?_eq_none h]

/-- `schedule_active_auctions`, over the lots with these numbers. -/
def scheduleActiveAuctions (lots : Table Auction) : List LotId → Registry
  | [] => .empty
  | id :: rest => match (lots.get id).filter fun auction => auction.isActive with
      | some auction => (scheduleActiveAuctions lots rest).scheduleAuction none auction
      | none => scheduleActiveAuctions lots rest

/-- The process as it starts over a database with these lots. -/
def Process.start (rows : List (Option Auction)) (bidders : LotId → List UserId) : Process where
  lots := storedLots rows
  bidders := bidders
  locks _ := none
  registry := scheduleActiveAuctions (storedLots rows) (List.range rows.length)
  sessions _ := .idle

end OnlineAuction.Scheduler
