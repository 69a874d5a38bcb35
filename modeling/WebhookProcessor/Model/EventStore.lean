/-
Module: WebhookProcessor.Model.EventStore
Layer: Model
Purpose: The PostgreSQL database behind `EventStore` and every SQL statement that writes it, as
  functions on committed table contents.  The two transactions of the store
  (`SaveQueuedWithOutbox`, `ReplayDeadLetter`) run statement by statement in `Model.System`; here
  stands what their commit makes visible.  A row that an open transaction has written is held in
  `locks` until that transaction ends, and its new version is invisible until the commit.
Trusted boundary: PostgreSQL READ COMMITTED: a statement is atomic, sees committed rows only, and
  an UPDATE of a locked row waits.
Main exports: Database, RowRef, Owner, Caller, claimForProcessing, claimPendingOutbox,
  markOutboxPublished, markOutboxFailed, saveDeadLetter, commitReplay, commitSave,
  EventStore.bind
-/
import WebhookProcessor.Model.Data
import WebhookProcessor.Relational.Table

namespace WebhookProcessor

open Relational

/-- Where a `ReplayDeadLetter` call comes from: the HTTP handler, the CLI command or the retry
scheduler, each with the number of its request, process or replica. -/
inductive Caller where
  | http (request : Nat)
  | cli (process : Nat)
  | scheduler (replica : Nat)
deriving Repr, DecidableEq

/-- The open transactions that hold row locks. -/
inductive Owner where
  | save (request : Nat)
  | replay (caller : Caller)
deriving Repr, DecidableEq

/-- Rows a transaction can hold.  `newEvent` is the primary key of an uncommitted insert. -/
inductive RowRef where
  | newEvent (id : EventId)
  | event (id : EventId)
  | outbox (id : EventId)
  | deadLetter (id : EventId)
deriving Repr, DecidableEq

/-- Committed contents of the three tables, the `outbox` id sequence and the row locks. -/
structure Database where
  events : Table EventRow.id Eq
  outbox : Table OutboxRow.key OutboxKey.Clash
  deadLetters : Table DeadLetterRow.eventId Eq
  outboxSeq : Nat
  locks : RowRef → Option Owner

namespace Database

/-- The database right after the migrations. -/
def empty : Database :=
  { events := Table.empty
    outbox := Table.empty
    deadLetters := Table.empty
    outboxSeq := 1
    locks := fun _ => none }

def event? (db : Database) (id : EventId) : Option EventRow :=
  db.events.lookup (· = id)

def status? (db : Database) (id : EventId) : Option EventStatus :=
  (db.event? id).map EventRow.status

def outboxFor? (db : Database) (id : EventId) : Option OutboxRow :=
  db.outbox.lookup (·.eventId = id)

def deadLetter? (db : Database) (id : EventId) : Option DeadLetterRow :=
  db.deadLetters.lookup (· = id)

/-- Take a row for a transaction. -/
def lock (db : Database) (owner : Owner) (row : RowRef) : Database :=
  { db with locks := Function.update db.locks row (some owner) }

/-- COMMIT or ROLLBACK gives back every row the transaction holds. -/
def unlock (db : Database) (owner : Owner) : Database :=
  { db with locks := fun row => if db.locks row = some owner then none else db.locks row }

end Database

/-! ### `SaveQueuedWithOutbox` -/

section Save

variable {Payload : Type}

/-- The row `SaveQueuedWithOutbox` inserts into `events`. -/
def queuedEventRow (event : Event Payload) (payload : String) (now : Time) : EventRow :=
  { id := event.id
    type := event.type
    requestId := event.requestId
    payload := payload
    status := .queued
    error := ""
    attempts := 0
    createdAt := now
    updatedAt := now
    processingStartedAt := none }

/-- A fresh, unpublished and unreserved outbox row. -/
def newOutboxRow (id : Nat) (eventId : EventId) (eventType requestId payload : String)
    (now : Time) : OutboxRow :=
  { id := id
    eventId := eventId
    eventType := eventType
    requestId := requestId
    payload := payload
    attempts := 0
    lastError := ""
    createdAt := now
    publishedAt := none
    dispatchToken := none
    dispatchingAt := none }

/-- What the commit of `SaveQueuedWithOutbox` makes visible. -/
def Database.commitSave (db : Database) (event : Event Payload) (payload : String) (now : Time)
    (outboxId : Nat) : Database :=
  { db with
    events := db.events.insert (queuedEventRow event payload now)
    outbox := db.outbox.insert
      (newOutboxRow outboxId event.id event.type event.requestId payload now) }

end Save

/-! ### The outbox -/

/-- `published_at IS NULL AND (dispatching_at IS NULL OR dispatching_at <= now - lease)`. -/
def OutboxRow.Claimable (row : OutboxRow) (now lease : Time) : Prop :=
  row.publishedAt = none ∧ (row.dispatchingAt = none ∨ atOrBefore row.dispatchingAt (now - lease))

instance (row : OutboxRow) (now lease : Time) : Decidable (row.Claimable now lease) :=
  inferInstanceAs (Decidable (_ ∧ (_ ∨ _)))

/-- `SET dispatch_token = ?, dispatching_at = ?`. -/
def OutboxRow.reserve (row : OutboxRow) (token : String) (now : Time) : OutboxRow :=
  { row with
    dispatchToken := some token
    dispatchingAt := some now }

/-- The `candidates` subquery: claimable rows that no transaction holds (`SKIP LOCKED`), in
ascending id order, at most `limit` of them. -/
def Database.outboxCandidates (db : Database) (limit : Nat) (lease now : Time) : List OutboxRow :=
  ((db.outbox.rows.filter fun row =>
      decide (row.Claimable now lease ∧ db.locks (.outbox row.eventId) = none)).insertionSort
    fun first second => first.id ≤ second.id).take limit

/-- The claim statement of `ClaimPendingOutbox`: the reserved rows, as `RETURNING` lists them when
it follows the candidates' order, and the database after it. -/
def Database.claimPendingOutbox (db : Database) (limit : Nat) (lease now : Time)
    (token : String) : List OutboxRow × Database :=
  let candidates := db.outboxCandidates limit lease now
  (candidates.map fun row => row.reserve token now,
    { db with
      outbox := db.outbox.updateWhere (fun row => row.id ∈ candidates.map OutboxRow.id)
        (fun row => row.reserve token now) fun _ => rfl })

/-- Scan one returned row; the payload text is decoded here. -/
def scanOutboxMessage {Payload : Type} (codec : Codec Payload) (token : String)
    (row : OutboxRow) : Option (OutboxMessage Payload) :=
  (codec.unmarshal row.payload).map fun payload =>
    { id := row.id
      event :=
        { id := row.eventId
          type := row.eventType
          requestId := row.requestId
          payload := payload }
      attempts := row.attempts
      dispatchToken := token }

/-- `WHERE id = ? AND published_at IS NULL AND dispatch_token = ?`. -/
def OutboxRow.ReservedFor (row : OutboxRow) (id : Nat) (token : String) : Prop :=
  row.id = id ∧ row.publishedAt = none ∧ row.dispatchToken = some token

instance (row : OutboxRow) (id : Nat) (token : String) : Decidable (row.ReservedFor id token) :=
  inferInstanceAs (Decidable (_ ∧ _ ∧ _))

/-- The row update of `MarkOutboxPublished`. -/
def OutboxRow.publish (row : OutboxRow) (now : Time) : OutboxRow :=
  { row with
    publishedAt := some now
    lastError := ""
    dispatchToken := none
    dispatchingAt := none }

/-- The row update of `MarkOutboxFailed`. -/
def OutboxRow.release (row : OutboxRow) (error : String) : OutboxRow :=
  { row with
    attempts := row.attempts + 1
    lastError := error
    dispatchToken := none
    dispatchingAt := none }

def Database.markOutboxPublished (db : Database) (id : Nat) (token : String) (now : Time) :
    Database :=
  { db with
    outbox := db.outbox.updateWhere (fun row => row.ReservedFor id token)
      (fun row => row.publish now) fun _ => rfl }

def Database.markOutboxFailed (db : Database) (id : Nat) (token error : String) : Database :=
  { db with
    outbox := db.outbox.updateWhere (fun row => row.ReservedFor id token)
      (fun row => row.release error) fun _ => rfl }

/-- `rowsAffected > 0` for the two marks: some row still carries the reservation. -/
def Database.Reserved (db : Database) (id : Nat) (token : String) : Prop :=
  ∃ row ∈ db.outbox.rows, row.ReservedFor id token

instance (db : Database) (id : Nat) (token : String) : Decidable (db.Reserved id token) :=
  inferInstanceAs (Decidable (∃ row ∈ db.outbox.rows, row.ReservedFor id token))

/-! ### Processing -/

/-- `status = 'queued' OR (status = 'processing' AND processing_started_at <= now - lease)`. -/
def EventRow.Claimable (row : EventRow) (now lease : Time) : Prop :=
  row.status = .queued ∨
    (row.status = .processing ∧ atOrBefore row.processingStartedAt (now - lease))

instance (row : EventRow) (now lease : Time) : Decidable (row.Claimable now lease) :=
  inferInstanceAs (Decidable (_ ∨ (_ ∧ _)))

/-- The row update of `ClaimForProcessing`. -/
def EventRow.claim (row : EventRow) (now : Time) : EventRow :=
  { row with
    status := .processing
    processingStartedAt := some now
    updatedAt := now }

/-- The row update of `MarkProcessed`. -/
def EventRow.finish (row : EventRow) (attempts : Nat) (now : Time) : EventRow :=
  { row with
    status := .processed
    attempts := attempts
    error := ""
    processingStartedAt := none
    updatedAt := now }

/-- The row update of `MarkFailed`. -/
def EventRow.fail (row : EventRow) (attempts : Nat) (error : String) (now : Time) : EventRow :=
  { row with
    status := .failed
    attempts := attempts
    error := error
    processingStartedAt := none
    updatedAt := now }

/-- The row update of `ReplayDeadLetter` on `events`. -/
def EventRow.requeue (row : EventRow) (now : Time) : EventRow :=
  { row with
    status := .queued
    attempts := 0
    error := ""
    processingStartedAt := none
    updatedAt := now }

namespace Database

/-- The UPDATE of `ClaimForProcessing`. -/
def claimEvent (db : Database) (id : EventId) (lease now : Time) : Database :=
  { db with
    events := db.events.updateWhere (fun row => row.id = id ∧ row.Claimable now lease)
      (fun row => row.claim now) fun _ => rfl }

/-- The UPDATE of `ClaimForProcessing` matches a row. -/
def ClaimMatches (db : Database) (id : EventId) (lease now : Time) : Prop :=
  ∃ row ∈ db.events.rows, row.id = id ∧ row.Claimable now lease

instance (db : Database) (id : EventId) (lease now : Time) :
    Decidable (db.ClaimMatches id lease now) :=
  inferInstanceAs (Decidable (∃ row ∈ db.events.rows, row.id = id ∧ row.Claimable now lease))

/-- `ClaimForProcessing` after an UPDATE that matched nothing: what the SELECT's answer means. -/
def claimResultOf : Option EventStatus → EventClaimResult
  | none => .missing
  | some .processed => .final
  | some .failed => .final
  | some .processing => .inProgress
  | some .queued => .inProgress

/-- Both statements of `ClaimForProcessing`, undisturbed. -/
def claimForProcessing (db : Database) (id : EventId) (lease now : Time) :
    EventClaimResult × Database :=
  if db.ClaimMatches id lease now then (.claimed, db.claimEvent id lease now)
  else (claimResultOf (db.status? id), db)

def markProcessed (db : Database) (id : EventId) (attempts : Nat) (now : Time) : Database :=
  { db with
    events := db.events.updateWhere (fun row => row.id = id)
      (fun row => row.finish attempts now) fun _ => rfl }

def markFailed (db : Database) (id : EventId) (attempts : Nat) (error : String) (now : Time) :
    Database :=
  { db with
    events := db.events.updateWhere (fun row => row.id = id)
      (fun row => row.fail attempts error now) fun _ => rfl }

end Database

/-! ### Dead letters -/

section DeadLetters

variable {Payload : Type}

/-- The row `SaveDeadLetter` inserts for an event without a dead letter. -/
def newDeadLetterRow (event : Event Payload) (payload error : String) (attempts : Nat)
    (now : Time) : DeadLetterRow :=
  { eventId := event.id
    eventType := event.type
    requestId := event.requestId
    payload := payload
    error := error
    attempts := attempts
    failedAt := now
    replayedAt := none
    replayAttempts := 0
    nextRetryAt := some now
    lastRetryError := error }

/-- The `DO UPDATE SET` of `SaveDeadLetter`: type, request id, payload and the replay counter of
the existing row stay. -/
def DeadLetterRow.reopen (row : DeadLetterRow) (error : String) (attempts : Nat) (now : Time) :
    DeadLetterRow :=
  { row with
    error := error
    attempts := attempts
    failedAt := now
    nextRetryAt := some now
    lastRetryError := error
    replayedAt := none }

def Database.saveDeadLetter (db : Database) (event : Event Payload) (payload error : String)
    (attempts : Nat) (now : Time) : Database :=
  { db with
    deadLetters := db.deadLetters.upsert (newDeadLetterRow event payload error attempts now)
      (fun row => row.reopen error attempts now) fun _ => rfl }

end DeadLetters

/-- `replayed_at IS NULL AND next_retry_at IS NOT NULL AND next_retry_at <= now AND
replay_attempts < maxAttempts`. -/
def DeadLetterRow.Retryable (row : DeadLetterRow) (maxAttempts : Nat) (now : Time) : Prop :=
  row.replayedAt = none ∧ atOrBefore row.nextRetryAt now ∧ row.replayAttempts < maxAttempts

instance (row : DeadLetterRow) (maxAttempts : Nat) (now : Time) :
    Decidable (row.Retryable maxAttempts now) :=
  inferInstanceAs (Decidable (_ ∧ _ ∧ _))

/-- `ORDER BY next_retry_at ASC, event_id ASC`; candidates have `next_retry_at` set. -/
def DeadLetterRow.RetriedBefore (first second : DeadLetterRow) : Prop :=
  first.nextRetryAt.getD 0 < second.nextRetryAt.getD 0 ∨
    (first.nextRetryAt.getD 0 = second.nextRetryAt.getD 0 ∧ first.eventId ≤ second.eventId)

instance : DecidableRel DeadLetterRow.RetriedBefore := fun _ _ =>
  inferInstanceAs (Decidable (_ ∨ (_ ∧ _)))

/-- `SET replay_attempts = replay_attempts + 1, next_retry_at = NULL`. -/
def DeadLetterRow.spend (row : DeadLetterRow) : DeadLetterRow :=
  { row with
    replayAttempts := row.replayAttempts + 1
    nextRetryAt := none }

/-- `SET next_retry_at = ?, last_retry_error = ?`. -/
def DeadLetterRow.reschedule (row : DeadLetterRow) (error : String) (retryAt : Time) :
    DeadLetterRow :=
  { row with
    nextRetryAt := some retryAt
    lastRetryError := error }

/-- `SET replayed_at = ?`, the last statement of `ReplayDeadLetter`. -/
def DeadLetterRow.markReplayed (row : DeadLetterRow) (now : Time) : DeadLetterRow :=
  { row with replayedAt := some now }

namespace Database

/-- The `candidates` subquery of the two retry claims. -/
def retryCandidates (db : Database) (limit maxAttempts : Nat) (now : Time) :
    List DeadLetterRow :=
  ((db.deadLetters.rows.filter fun row =>
      decide (row.Retryable maxAttempts now ∧
        db.locks (.deadLetter row.eventId) = none)).insertionSort
    DeadLetterRow.RetriedBefore).take limit

/-- `ClaimRetryableDeadLetterDetails`: the claimed items and the database after it.  The older
`ClaimRetryableDeadLetters` runs the same statement and returns the ids only. -/
def claimRetryableDeadLetterDetails (db : Database) (limit maxAttempts : Nat) (now : Time) :
    List RetryableDeadLetterDetail × Database :=
  let candidates := db.retryCandidates limit maxAttempts now
  (candidates.map fun row =>
      { eventId := row.eventId
        replayAttempt := row.replayAttempts + 1 },
    { db with
      deadLetters := db.deadLetters.updateWhere
        (fun row => row.eventId ∈ candidates.map DeadLetterRow.eventId)
        DeadLetterRow.spend fun _ => rfl })

/-- `RescheduleDeadLetterRetryWithDelay`, and with `retryAt` the current time the older
`RescheduleDeadLetterRetry`. -/
def rescheduleDeadLetterRetry (db : Database) (id : EventId) (error : String) (retryAt : Time) :
    Database :=
  { db with
    deadLetters := db.deadLetters.updateWhere
      (fun row => row.eventId = id ∧ row.replayedAt = none)
      (fun row => row.reschedule error retryAt) fun _ => rfl }

end Database

/-! ### `ReplayDeadLetter` -/

/-- The row update of `ReplayDeadLetter` on `outbox`.  It does not touch the reservation columns. -/
def OutboxRow.reopen (row : OutboxRow) : OutboxRow :=
  { row with
    attempts := 0
    lastError := ""
    publishedAt := none }

/-- What a `ReplayDeadLetter` transaction has read and written so far. -/
structure ReplayTx where
  eventId : EventId
  eventType : String
  requestId : String
  payload : String
  now : Time
  /-- The UPDATE of `events` matched the row. -/
  moved : Bool
  /-- The outbox row inserted because the UPDATE of `outbox` matched none. -/
  inserted : Option OutboxRow
deriving Repr, DecidableEq

/-- What the commit of `ReplayDeadLetter` makes visible. -/
def Database.commitReplay (db : Database) (tx : ReplayTx) : Database :=
  { db with
    events := db.events.updateWhere (fun row => row.id = tx.eventId ∧ tx.moved = true)
      (fun row => row.requeue tx.now) fun _ => rfl
    outbox :=
      match tx.inserted with
      | none => db.outbox.updateWhere (fun row => row.eventId = tx.eventId)
          (fun row => row.reopen) fun _ => rfl
      | some row => db.outbox.insert row
    deadLetters := db.deadLetters.updateWhere (fun row => row.eventId = tx.eventId)
      (fun row => row.markReplayed tx.now) fun _ => rfl }

/-! ### The texts of the statements -/

/-- The loop of `bind`, with the number of the next placeholder. -/
def EventStore.bindLoop (placeholder : Nat) : List Char → List Char
  | [] => []
  | character :: rest =>
      if character = '?' then
        '$' :: (Nat.toDigits 10 placeholder ++ bindLoop (placeholder + 1) rest)
      else character :: bindLoop placeholder rest

/-- `EventStore.bind`: the `?` of a statement are numbered for PostgreSQL. -/
def EventStore.bind (query : String) : String :=
  String.ofList (EventStore.bindLoop 1 query.toList)

end WebhookProcessor
