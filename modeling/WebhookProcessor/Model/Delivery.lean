/-
Module: WebhookProcessor.Model.Delivery
Layer: Model
Purpose: One call of `handleDelivery` from its first statement to its settle call, with the calls it
  makes on the store, the processor, the clock, the metrics and the broker in their order.  What the
  collaborators answer, and what other sessions commit between two statements, is arbitrary.
Trusted boundary: as in `Model.EventStore`; outside `ClaimForProcessing` other sessions do not
  delete rows of `events`.
Main exports: Interference, Answers, SettleCall, WorkerCall, Journal, processEventWithRetry,
  handleDelivery
-/
import WebhookProcessor.Model.Actors
import WebhookProcessor.Model.Metrics

namespace WebhookProcessor

/-- What other sessions commit between two statements: anything that deletes no event. -/
structure Interference where
  change : Database → Database
  keepsEvents : ∀ db id, db.event? id ≠ none → (change db).event? id ≠ none

/-- No other session commits anything. -/
def Interference.quiet : Interference :=
  { change := id
    keepsEvents := fun _ _ present => present }

/-- How a store call ends, the `now` it samples, and what other sessions committed before it. -/
structure StoreAnswer where
  outcome : Outcome
  now : Time
  others : Interference

/-- An undisturbed call that succeeds. -/
def StoreAnswer.quiet (now : Time) : StoreAnswer :=
  { outcome := .ok
    now := now
    others := Interference.quiet }

/-- The answers to the calls of one `handleDelivery`.  The processor is asked once per attempt. -/
structure Answers where
  claimedAt : Time
  claimUpdate : Outcome
  /-- Commits of other sessions between the two statements of `ClaimForProcessing`. -/
  between : Database → Database
  claimSelect : Outcome
  processor : (attempt : Int64) → Option String
  duration : (attempt : Int64) → Duration
  markProcessed : StoreAnswer
  add : StoreAnswer
  markFailed : StoreAnswer

/-- An undisturbed call at time `now` whose processor answers `processor`. -/
def Answers.quiet (now : Time) (processor : Int64 → Option String) : Answers :=
  { claimedAt := now
    claimUpdate := .ok
    between := id
    claimSelect := .ok
    processor := processor
    duration := fun _ => 0
    markProcessed := StoreAnswer.quiet now
    add := StoreAnswer.quiet now
    markFailed := StoreAnswer.quiet now }

/-- `EventDelivery.Ack` and `EventDelivery.Nack`. -/
inductive SettleCall where
  | ack
  | nack (requeue : Bool)
deriving Repr, DecidableEq

/-- The calls that leave the worker, with the answers it got to those of the store. -/
inductive WorkerCall (Payload : Type) where
  | claimUpdate (id : EventId) (claimed : Option Bool)
  | claimSelect (id : EventId) (status : Option (Option EventStatus))
  | process (event : Event Payload)
  | sleep (duration : Duration)
  | markProcessed (id : EventId) (attempts : Int64) (ok : Bool)
  | addDeadLetter (event : Event Payload) (error : String) (attempts : Int64) (ok : Bool)
  | markFailed (id : EventId) (attempts : Int64) (error : String) (ok : Bool)
  | settle (call : SettleCall)

/-! ### The journal of a call -/

/-- A call and the database right after it. -/
structure Entry (Payload : Type) where
  call : WorkerCall Payload
  after : Database

/-- The database and the metrics as the worker leaves them, and its calls, oldest first. -/
structure Journal (Payload : Type) where
  db : Database
  metrics : Metrics
  log : List (Entry Payload)

namespace Journal

variable {Payload : Type}

/-- The worker has made no call yet. -/
def start (db : Database) (metrics : Metrics) : Journal Payload :=
  { db := db
    metrics := metrics
    log := [] }

/-- A call that leaves the database at `db`. -/
def execute (journal : Journal Payload) (call : WorkerCall Payload) (db : Database) :
    Journal Payload :=
  { journal with
    db := db
    log := journal.log ++ [{ call := call, after := db }] }

/-- A call that does not reach the store. -/
def record (journal : Journal Payload) (call : WorkerCall Payload) : Journal Payload :=
  journal.execute call journal.db

def withMetrics (journal : Journal Payload) (update : Metrics → Metrics) : Journal Payload :=
  { journal with metrics := update journal.metrics }

/-! ### Store calls -/

/-- `ClaimForProcessing` after an UPDATE that matched no row. -/
def readClaimStatus (journal : Journal Payload) (answers : Answers) (id : EventId) :
    Journal Payload × Option EventClaimResult :=
  let db := answers.between journal.db
  if answers.claimSelect = Outcome.ok then
    (journal.execute (.claimSelect id (some (db.status? id))) db,
      some (Database.claimResultOf (db.status? id)))
  else (journal.execute (.claimSelect id none) db, none)

/-- `ClaimForProcessing`; the result is `none` when it returns an error. -/
def claimForProcessing (journal : Journal Payload) (config : LoadedConfig) (answers : Answers)
    (id : EventId) : Journal Payload × Option EventClaimResult :=
  let lease := config.processingLease.toInt
  let matched := decide (journal.db.ClaimMatches id lease answers.claimedAt)
  let db := if answers.claimUpdate.Effective then
      journal.db.claimEvent id lease answers.claimedAt
    else journal.db
  if answers.claimUpdate = Outcome.ok then
    let journal := journal.execute (.claimUpdate id (some matched)) db
    if matched then (journal, some .claimed) else journal.readClaimStatus answers id
  else (journal.execute (.claimUpdate id none) db, none)

/-- `MarkProcessed`, and whether it succeeded. -/
def markProcessed (journal : Journal Payload) (answer : StoreAnswer) (id : EventId)
    (attempts : Int64) : Journal Payload × Bool :=
  let db := answer.others.change journal.db
  let ok := decide (answer.outcome = .ok)
  (journal.execute (.markProcessed id attempts ok)
    (if answer.outcome.Effective then db.markProcessed id attempts.toInt.toNat answer.now else db),
    ok)

/-- `PersistentDeadLetterStore.Add`: a payload that does not marshal never reaches the table. -/
def addDeadLetter (journal : Journal Payload) (codec : Codec Payload) (answer : StoreAnswer)
    (event : Event Payload) (error : String) (attempts : Int64) : Journal Payload × Bool :=
  let db := answer.others.change journal.db
  match codec.marshal event.payload with
  | none => (journal.execute (.addDeadLetter event error attempts false) db, false)
  | some payload =>
      let ok := decide (answer.outcome = .ok)
      (journal.execute (.addDeadLetter event error attempts ok)
        (if answer.outcome.Effective then
          db.saveDeadLetter event payload error attempts.toInt.toNat answer.now
        else db), ok)

/-- `MarkFailed`, and whether it succeeded. -/
def markFailed (journal : Journal Payload) (answer : StoreAnswer) (id : EventId)
    (attempts : Int64) (error : String) : Journal Payload × Bool :=
  let db := answer.others.change journal.db
  let ok := decide (answer.outcome = .ok)
  (journal.execute (.markFailed id attempts error ok)
    (if answer.outcome.Effective then db.markFailed id attempts.toInt.toNat error answer.now
    else db), ok)

end Journal

/-! ### `processEventWithRetry` -/

section Processing

variable {Payload : Type} (codec : Codec Payload) (config : LoadedConfig) (answers : Answers)
  (event : Event Payload)

/-- One call of the processor and its latency observation. -/
def runProcessor (attempt : Int64) (journal : Journal Payload) : Journal Payload :=
  (journal.record (.process event)).withMetrics
    (·.observeEventProcessingDuration (answers.duration attempt))

/-- The branch of a processor that returned no error. -/
def succeed (attempt : Int64) (journal : Journal Payload) : Journal Payload × Bool × Bool :=
  let (journal, marked) :=
    (journal.withMetrics Metrics.incEventsProcessed).markProcessed answers.markProcessed event.id
      attempt
  (journal, true, marked)

/-- The branch of the last attempt: the dead letter first, then the status. -/
def giveUp (attempt : Int64) (error : String) (journal : Journal Payload) :
    Journal Payload × Bool × Bool :=
  let (journal, added) :=
    (journal.withMetrics Metrics.incEventsFailedPermanent).addDeadLetter codec answers.add event
      error attempt
  if added then
    let (journal, marked) := journal.markFailed answers.markFailed event.id attempt error
    (journal, false, marked)
  else (journal, false, false)

/-- The end of an iteration that is not the last: count the retry and sleep. -/
def retryLater (attempt : Int64) (journal : Journal Payload) : Journal Payload :=
  (journal.withMetrics Metrics.incEventRetries).record (.sleep (config.retryBackoff attempt))

/-- The `for` loop of `processEventWithRetry` with at most `rounds` iterations to go; the result is
`none` when the loop is left by its condition. -/
def attemptLoop : (rounds : Nat) → (attempt : Int64) → Journal Payload →
    Journal Payload × Option (Bool × Bool)
  | 0, _, journal => (journal, none)
  | rounds + 1, attempt, journal =>
      let maxAttempts := config.maxRetries + 1
      if attempt ≤ maxAttempts then
        let journal := runProcessor answers event attempt journal
        match answers.processor attempt with
        | none =>
            let (journal, result) := succeed answers event attempt journal
            (journal, some result)
        | some error =>
            if attempt = maxAttempts then
              let (journal, result) := giveUp codec answers event attempt error journal
              (journal, some result)
            else attemptLoop rounds (attempt + 1) (retryLater config attempt journal)
      else (journal, none)

/-- `processEventWithRetry`: whether the event was processed, and whether its final status was
persisted.  The loop starts at 1, so it has at most `maxAttempts` iterations. -/
def processEventWithRetry (journal : Journal Payload) : Journal Payload × Bool × Bool :=
  let (journal, result) :=
    attemptLoop codec config answers event (config.maxRetries + 1).toInt.toNat 1 journal
  (journal, result.getD (false, false))

/-! ### `handleDelivery` -/

/-- `handleDelivery`; the answers of `Ack` and `Nack` are only logged. -/
def handleDelivery (journal : Journal Payload) : Journal Payload :=
  let (journal, claim) := journal.claimForProcessing config answers event.id
  match claim with
  | none => journal.record (.settle (.nack true))
  | some .final => (journal.withMetrics Metrics.incEventsSkippedDuplicate).record (.settle .ack)
  | some .inProgress =>
      (journal.record (.sleep config.processingRequeueDelay)).record (.settle (.nack true))
  | some .missing => journal.record (.settle (.nack false))
  | some .claimed =>
      let (journal, _, terminalPersisted) :=
        processEventWithRetry codec config answers event journal
      journal.record (.settle (if terminalPersisted then .ack else .nack true))

end Processing

/-! ### Views of a journal -/

namespace Journal

variable {Payload : Type} (journal : Journal Payload)

/-- The calls of one kind, with what they passed. -/
def select {Passed : Type} (kind : WorkerCall Payload → Option Passed) : List Passed :=
  journal.log.filterMap fun entry => kind entry.call

end Journal

namespace WorkerCall

variable {Payload : Type}

def processed? : WorkerCall Payload → Option (Event Payload)
  | .process event => some event
  | _ => none

def sleep? : WorkerCall Payload → Option Duration
  | .sleep duration => some duration
  | _ => none

def markProcessed? : WorkerCall Payload → Option (EventId × Int64)
  | .markProcessed id attempts _ => some (id, attempts)
  | _ => none

def add? : WorkerCall Payload → Option (Event Payload × String × Int64)
  | .addDeadLetter event error attempts _ => some (event, error, attempts)
  | _ => none

def markFailed? : WorkerCall Payload → Option (EventId × Int64 × String)
  | .markFailed id attempts error _ => some (id, attempts, error)
  | _ => none

def settle? : WorkerCall Payload → Option SettleCall
  | .settle call => some call
  | _ => none

end WorkerCall

end WebhookProcessor
