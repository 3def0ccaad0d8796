import OnlineAuction.Library.RowLocks
import OnlineAuction.Library.Table
import OnlineAuction.Market.Database

/-! `app/services/email_outbox.py`: the durable mail queue and the worker that
drains it. Any number of workers run the tick over one table; the outcome of
each SMTP conversation is an input. -/

namespace OnlineAuction.Outbox

open RowLocks

inductive Status where
  | pending
  | sent
  | failed
  deriving DecidableEq

/-- A row of `email_outbox`. -/
structure EmailOutbox where
  id : Nat
  toEmail : String
  subject : String
  htmlBody : String
  status : Status
  attempts : Nat
  maxAttempts : Nat
  lastError : Option String
  nextAttemptAt : Time
  createdAt : Time
  sentAt : Option Time
  deriving DecidableEq

def workerBatchSize : Nat := 10

def defaultMaxAttempts : Nat := 5

def backoffByAttempt : List (Nat × Time) :=
  [(1, minutes 1), (2, minutes 5), (3, minutes 15), (4, hours 1), (5, hours 6)]

def backoffMax : Time := hours 6

def backoffForAttempt (attempts : Nat) : Time := (backoffByAttempt.lookup attempts).getD backoffMax

/-- An SMTP attempt that was started, with the `next_attempt_at` of the row it
was started for. -/
structure Attempt where
  id : Nat
  nextAttemptAt : Time
  start : Time
  deriving DecidableEq

/-- The table. The rest is history: the last reading of the clock, the attempts
started so far and each row as it was first stored. -/
structure State where
  rows : Table EmailOutbox
  now : Time
  started : List Attempt
  origin : Nat → Option EmailOutbox

/-- The `UPDATE` of a row: the columns in which the changed copy differs from
the loaded one, written over the stored row. -/
def EmailOutbox.flush (loaded changed row : EmailOutbox) : EmailOutbox where
  id := row.id
  toEmail := column loaded.toEmail changed.toEmail row.toEmail
  subject := column loaded.subject changed.subject row.subject
  htmlBody := column loaded.htmlBody changed.htmlBody row.htmlBody
  status := column loaded.status changed.status row.status
  attempts := column loaded.attempts changed.attempts row.attempts
  maxAttempts := column loaded.maxAttempts changed.maxAttempts row.maxAttempts
  lastError := column loaded.lastError changed.lastError row.lastError
  nextAttemptAt := column loaded.nextAttemptAt changed.nextAttemptAt row.nextAttemptAt
  createdAt := column loaded.createdAt changed.createdAt row.createdAt
  sentAt := column loaded.sentAt changed.sentAt row.sentAt

@[simp] theorem EmailOutbox.flush_loaded (loaded changed : EmailOutbox)
    (hId : changed.id = loaded.id) : EmailOutbox.flush loaded changed loaded = changed := by
  cases changed
  simp_all [EmailOutbox.flush]

namespace State

def initial (rows : List EmailOutbox) (now : Time) : State :=
  let get : Nat → Option EmailOutbox
    | 0 => none
    | n + 1 => (rows[n]?).map fun row => { row with id := n + 1 }
  { rows :=
      { get := get
        serial := rows.length + 1
        unused := fun
          | 0, _ => rfl
          | n + 1, h => by simp [get, Nat.le_of_succ_le_succ h] }
    now := now
    started := []
    origin := get }

def candidates (d : State) (now : Time) : List EmailOutbox :=
  ((((List.range d.rows.serial).filterMap d.rows.get).filter fun row =>
    row.status = .pending ∧ row.nextAttemptAt ≤ now).insertionSort fun a b =>
      a.createdAt ≤ b.createdAt).take workerBatchSize

def add (d : State) (row : Nat → EmailOutbox) : State :=
  { d with
    rows := d.rows.add row
    origin := Function.update d.origin d.rows.serial (some (row d.rows.serial)) }

def flushRow (d : State) (loaded changed : EmailOutbox) : State :=
  { d with rows := d.rows.modify loaded.id (EmailOutbox.flush loaded changed) }

def recordAttempt (d : State) (attempt : Attempt) : State :=
  { d with started := d.started ++ [attempt] }

end State

/-- The store of the outbox. A claim locks a row only while it is pending, and
carries the candidate it claims. The clock never goes back. -/
abbrev outbox : Store where
  State := State
  Key := Nat
  Time := Time
  Note := Option EmailOutbox
  Error := HTTPException
  keyEq := inferInstance
  hasRow d id := (d.rows.get id).any fun row => row.status = .pending
  admits _ := true
  readable d t := decide (d.now ≤ t)
  observe _ t d := { d with now := t }

def utcnow : Prog outbox Time := .clock none .pure

/-- `enqueue_email`: the row commits by itself or with the caller's session. -/
def enqueueEmail (toEmail subject htmlBody : String) (maxAttempts : Nat) : Prog outbox Unit := do
  let nextAttemptAt ← utcnow
  let createdAt ← utcnow
  let row (id : Nat) : EmailOutbox :=
    ⟨id, toEmail, subject, htmlBody, .pending, 0, maxAttempts, none, nextAttemptAt, createdAt, none⟩
  .commit none (State.add · row) fun _ => pure ()

/-- `select(…).where(id == …, status == "pending").with_for_update(skip_locked=True)`. -/
def claim (candidate : EmailOutbox) : Prog outbox (Option EmailOutbox) :=
  .tryLock candidate.id (some candidate) fun locked => pure do
    let d ← locked
    (d.rows.get candidate.id).filter fun row => row.status = .pending

/-- `send_email_notification`: an attempt starts, and ends as the SMTP server
has it. -/
def sendEmailNotification (smtp : Nat → Option String) (row : EmailOutbox) :
    Prog outbox (Option String) := do
  let start ← utcnow
  .update none (State.recordAttempt · ⟨row.id, row.nextAttemptAt, start⟩) (pure (smtp row.id))

/-- `_process_one`: the row to commit. -/
def processOne (smtp : Nat → Option String) (row : EmailOutbox) : Prog outbox EmailOutbox := do
  match ← sendEmailNotification smtp row with
  | some error =>
      let row := { row with attempts := row.attempts + 1, lastError := some error }
      if row.maxAttempts ≤ row.attempts then pure { row with status := .failed }
      else
        let now ← utcnow
        pure { row with nextAttemptAt := now + backoffForAttempt row.attempts }
  | none =>
      let now ← utcnow
      pure { row with status := .sent, sentAt := some now }

/-- The loop over the candidates, each in a session of its own. A commit that
fails is rolled back and not counted. -/
def processEach (smtp : Nat → Option String) : List EmailOutbox → Nat → Prog outbox Nat
  | [], processed => pure processed
  | candidate :: rest, processed => do
      match ← claim candidate with
      | none => processEach smtp rest processed
      | some row =>
          let changed ← processOne smtp row
          .commit none (State.flushRow · row changed) fun done =>
            processEach smtp rest (if done.isSome then processed + 1 else processed)

/-- `_run_one_tick`. -/
def runOneTick (smtp : Nat → Option String) : Prog outbox Nat := do
  let now ← utcnow
  let candidates ← .read none fun d => .pure (d.candidates now)
  processEach smtp candidates 0

inductive Request where
  | enqueue (toEmail subject htmlBody : String) (maxAttempts : Nat)
  | tick (smtp : Nat → Option String)

def handle : Request → Prog outbox Unit
  | .enqueue toEmail subject htmlBody maxAttempts =>
      enqueueEmail toEmail subject htmlBody maxAttempts
  | .tick smtp => do let _ ← runOneTick smtp

end OnlineAuction.Outbox
