/-
Module: WebhookProcessor.Model.Actors
Layer: Model
Purpose: Where each concurrent party of the service can stand between two statements: an
  `SaveQueuedWithOutbox` call, a `ReplayDeadLetter` call, an outbox dispatcher inside
  `DispatchPending`, a worker inside `handleDelivery`, and a retry scheduler inside `retry`.  Local
  code between two statements runs together with the statement before it.
Trusted boundary: none
Main exports: SaveCall, ReplayCall, Dispatcher, Worker, Scheduler, Message, Outcome
-/
import WebhookProcessor.Model.EventStore

namespace WebhookProcessor

/-- How a single statement ends for its caller: with its result, with an error and no effect, or
with an error although it took effect (the answer was lost). -/
inductive Outcome where
  | ok
  | failed
  | lost
deriving Repr, DecidableEq

/-- The statement changed the database. -/
def Outcome.Effective (outcome : Outcome) : Prop := outcome ≠ .failed

instance (outcome : Outcome) : Decidable outcome.Effective :=
  inferInstanceAs (Decidable (outcome ≠ .failed))

theorem Outcome.effective_ok : Outcome.ok.Effective := by decide

/-- A message in the durable queue.  `opening` is a history variable: how many times the outbox
row of the event had been opened when the message was enqueued. -/
structure Message where
  messageId : EventId
  body : EventJson
  opening : Nat
deriving Repr, DecidableEq

/-! ### `SaveQueuedWithOutbox` -/

inductive SaveError where
  | eventAlreadyExists
  | store
deriving Repr, DecidableEq

/-- A `SaveQueuedWithOutbox` call.  The two `inserted` phases hold uncommitted rows. -/
inductive SaveCall (Payload : Type) where
  | idle
  | begun (event : Event Payload) (payload : String)
  | insertedEvent (event : Event Payload) (payload : String) (now : Time)
  | insertedOutbox (event : Event Payload) (payload : String) (now : Time) (outboxId : Nat)
  | accepted (event : Event Payload)
  | refused (event : Event Payload) (error : SaveError)
deriving Repr, DecidableEq

namespace SaveCall

variable {Payload : Type}

/-- No call is running: the request has not started or has returned. -/
def Free : SaveCall Payload → Prop
  | .idle | .accepted _ | .refused _ _ => True
  | _ => False

instance (call : SaveCall Payload) : Decidable call.Free :=
  match call with
  | .idle | .accepted _ | .refused _ _ => inferInstanceAs (Decidable True)
  | .begun _ _ | .insertedEvent _ _ _ | .insertedOutbox _ _ _ _ =>
      inferInstanceAs (Decidable False)

/-- The call after a COMMIT that took effect: an answer that is lost is returned as an error. -/
def afterCommit (event : Event Payload) (outcome : Outcome) : SaveCall Payload :=
  if outcome = .ok then .accepted event else .refused event .store

/-- The submission whose transaction is open. -/
def inFlight : SaveCall Payload → Option (Event Payload)
  | .begun event _ => some event
  | .insertedEvent event _ _ => some event
  | .insertedOutbox event _ _ _ => some event
  | _ => none

end SaveCall

/-! ### `ReplayDeadLetter` -/

inductive ReplayError where
  | deadLetterNotFound
  | deadLetterNotFailed (status : EventStatus)
  | store (message : String)
deriving Repr, DecidableEq

/-- `err.Error()`, the text a failed automatic replay leaves in `last_retry_error`. -/
def ReplayError.message : ReplayError → String
  | .deadLetterNotFound => "dead letter not found"
  | .deadLetterNotFailed status => "event is not failed: current status is " ++ status.text
  | .store message => message

/-- A `ReplayDeadLetter` call, by the statement it has executed last.  `outboxMissing` is the
branch whose UPDATE of `outbox` matched no row. -/
inductive ReplayCall where
  | idle
  | begun (id : EventId)
  | selected (id : EventId) (eventType requestId payload : String)
  | eventReset (tx : ReplayTx)
  | outboxMissing (tx : ReplayTx)
  | outboxReopened (tx : ReplayTx)
  | deadLetterMarked (tx : ReplayTx)
  | succeeded (id : EventId)
  | failed (id : EventId) (error : ReplayError)
deriving Repr, DecidableEq

namespace ReplayCall

def Free : ReplayCall → Prop
  | .idle | .succeeded _ | .failed _ _ => True
  | _ => False

instance (call : ReplayCall) : Decidable call.Free :=
  match call with
  | .idle | .succeeded _ | .failed _ _ => inferInstanceAs (Decidable True)
  | .begun _ | .selected _ _ _ _ | .eventReset _ | .outboxMissing _ | .outboxReopened _
  | .deadLetterMarked _ => inferInstanceAs (Decidable False)

/-- The call after a COMMIT that took effect, with the error that is returned when its answer is
lost. -/
def afterCommit (tx : ReplayTx) : Option String → ReplayCall
  | none => .succeeded tx.eventId
  | some message => .failed tx.eventId (.store message)

/-- The event whose replay transaction is open. -/
def inFlight : ReplayCall → Option EventId
  | .begun id => some id
  | .selected id _ _ _ => some id
  | .eventReset tx => some tx.eventId
  | .outboxMissing tx => some tx.eventId
  | .outboxReopened tx => some tx.eventId
  | .deadLetterMarked tx => some tx.eventId
  | _ => none

/-- The transaction, once its UPDATE of `events` has run. -/
def tx? : ReplayCall → Option ReplayTx
  | .eventReset tx => some tx
  | .outboxMissing tx => some tx
  | .outboxReopened tx => some tx
  | .deadLetterMarked tx => some tx
  | _ => none

end ReplayCall

/-- The SELECT of `ReplayDeadLetter` and the status check that follows it. -/
def Database.selectForReplay (db : Database) (id : EventId) : ReplayCall :=
  match db.event? id, db.deadLetter? id with
  | some row, some _ =>
      if row.status = .failed then .selected id row.type row.requestId row.payload
      else .failed id (.deadLetterNotFailed row.status)
  | _, _ => .failed id .deadLetterNotFound

/-! ### The outbox dispatcher -/

/-- A dispatcher inside `DispatchPending`.  `claimedAt` is the `now` its claim sampled; `opening`
is a history variable, the opening of the outbox row at the confirmed `Publish`. -/
inductive Dispatcher (Payload : Type) where
  | idle
  | publishing (claimedAt : Time) (message : OutboxMessage Payload)
      (rest : List (OutboxMessage Payload))
  | published (claimedAt : Time) (message : OutboxMessage Payload) (opening : Nat)
      (rest : List (OutboxMessage Payload))
  | rejected (claimedAt : Time) (message : OutboxMessage Payload) (error : String)
deriving Repr, DecidableEq

namespace Dispatcher

variable {Payload : Type}

/-- The head of the publish loop. -/
def loop (claimedAt : Time) : List (OutboxMessage Payload) → Dispatcher Payload
  | [] => .idle
  | message :: rest => .publishing claimedAt message rest

/-- The `now` of the claim whose batch the dispatcher is working on. -/
def claimedAt? : Dispatcher Payload → Option Time
  | .idle => none
  | .publishing claimedAt _ _ => some claimedAt
  | .published claimedAt _ _ _ => some claimedAt
  | .rejected claimedAt _ _ => some claimedAt

/-- The claimed messages that the dispatcher has not marked yet. -/
def hand : Dispatcher Payload → List (OutboxMessage Payload)
  | .idle => []
  | .publishing _ message rest => message :: rest
  | .published _ message _ rest => message :: rest
  | .rejected _ message _ => [message]

end Dispatcher

/-! ### Workers -/

/-- A successful `ClaimForProcessing`: the event, the `now` it sampled, and (a history variable)
which claim of the event it is. -/
structure Claim (Payload : Type) where
  event : Event Payload
  since : Time
  number : Nat
deriving Repr, DecidableEq

/-- What `handleDelivery` does with the delivery in the end.  `opening` is a history variable: the
opening of the outbox row when the terminal status was read or written. -/
inductive Settlement where
  | ack (opening : Nat)
  | requeue
  | discard
deriving Repr, DecidableEq

/-- A worker inside `handleDelivery`.  From `attempting` to `returning` it is inside
`processEventWithRetry`; `returning` is after its last statement, whose answer it waits for, and
`written` says whether that statement was a terminal write that took effect. -/
inductive WorkerPhase (Payload : Type) where
  | idle
  | received (event : Event Payload)
  | unclaimed (event : Event Payload)
  | attempting (claim : Claim Payload) (attempt : Nat)
  | succeeded (claim : Claim Payload) (attempt : Nat)
  | exhausted (claim : Claim Payload) (attempt : Nat) (error : String)
  | deadLettered (claim : Claim Payload) (attempt : Nat) (error : String)
  | returning (claim : Claim Payload) (written : Bool) (settlement : Settlement)
  | settling (event : Event Payload) (settlement : Settlement)
deriving Repr, DecidableEq

/-- A worker and the unsettled delivery it holds; the delivery is gone once the consumer's
connection is lost. -/
structure Worker (Payload : Type) where
  delivery : Option Message
  phase : WorkerPhase Payload
deriving Repr, DecidableEq

namespace WorkerPhase

variable {Payload : Type}

/-- The claim under which the worker is inside `processEventWithRetry`. -/
def inside : WorkerPhase Payload → Option (Claim Payload)
  | .attempting claim _ => some claim
  | .succeeded claim _ => some claim
  | .exhausted claim _ _ => some claim
  | .deadLettered claim _ _ => some claim
  | .returning claim _ _ => some claim
  | _ => none

/-- The claim under which the worker is inside `processEventWithRetry` and no terminal write of it
has taken effect. -/
def active : WorkerPhase Payload → Option (Claim Payload)
  | .returning _ true _ => none
  | phase => phase.inside

/-- What is going to happen to the delivery, once it is settled. -/
def settlement? : WorkerPhase Payload → Option (Event Payload × Settlement)
  | .returning claim _ settlement => some (claim.event, settlement)
  | .settling event settlement => some (event, settlement)
  | _ => none

/-- The event of the delivery being handled. -/
def event? : WorkerPhase Payload → Option (Event Payload)
  | .idle => none
  | .received event => some event
  | .unclaimed event => some event
  | .attempting claim _ => some claim.event
  | .succeeded claim _ => some claim.event
  | .exhausted claim _ _ => some claim.event
  | .deadLettered claim _ _ => some claim.event
  | .returning claim _ _ => some claim.event
  | .settling event _ => some event

/-- The event handed to the processor on entering the phase. -/
def attempted : WorkerPhase Payload → List (Event Payload)
  | .attempting claim _ => [claim.event]
  | _ => []

end WorkerPhase

/-- `handleDelivery` after the UPDATE of `ClaimForProcessing`: a matched row is claimed, an
unmatched one is looked up by the SELECT, an error requeues the delivery. -/
def afterClaim {Payload : Type} (event : Event Payload) (now : Time) (number : Nat)
    (outcome : Outcome) (matched : Prop) [Decidable matched] : WorkerPhase Payload :=
  match outcome with
  | .ok =>
      if matched then
        .attempting
          { event := event
            since := now
            number := number } 1
      else .unclaimed event
  | _ => .settling event .requeue

/-- `processEventWithRetry` after one call of the processor. -/
def afterAttempt {Payload : Type} (config : Config) (claim : Claim Payload) (attempt : Nat) :
    Option String → WorkerPhase Payload
  | none => .succeeded claim attempt
  | some error =>
      if attempt = config.maxRetries + 1 then .exhausted claim attempt error
      else .attempting claim (attempt + 1)

def Worker.idle {Payload : Type} : Worker Payload :=
  { delivery := none
    phase := .idle }

/-- `handleDelivery` on the results of `ClaimForProcessing` other than `EventClaimed`. -/
def settlementOf (opening : Nat) : EventClaimResult → Settlement
  | .final => .ack opening
  | .inProgress => .requeue
  | .missing => .discard
  | .claimed => .requeue

/-! ### The retry scheduler -/

/-- A scheduler inside `retry`: about to replay `item`, waiting for its `ReplayDeadLetter`, or
about to reschedule it. -/
inductive Scheduler where
  | idle
  | retrying (item : RetryableDeadLetterDetail) (rest : List RetryableDeadLetterDetail)
  | replaying (item : RetryableDeadLetterDetail) (rest : List RetryableDeadLetterDetail)
  | rescheduling (item : RetryableDeadLetterDetail) (error : ReplayError)
      (rest : List RetryableDeadLetterDetail)
deriving Repr, DecidableEq

namespace Scheduler

/-- The head of the loop over the claimed items. -/
def loop : List RetryableDeadLetterDetail → Scheduler
  | [] => .idle
  | item :: rest => .retrying item rest

/-- The claimed items that are not dealt with yet. -/
def pending : Scheduler → List RetryableDeadLetterDetail
  | .idle => []
  | .retrying item rest => item :: rest
  | .replaying item rest => item :: rest
  | .rescheduling item _ rest => item :: rest

end Scheduler

end WebhookProcessor
