/-
Module: WebhookProcessor.Model.RetryCycle
Layer: Model
Purpose: `DLQRetryScheduler.retry` and the loop of `run` as one scheduler executes them when nobody
  else touches the database: claim a batch, replay its items one after the other, and reschedule
  those whose replay failed.  Every statement may fail.
Trusted boundary: as in `Model.EventStore`; `RETURNING` lists the claimed rows in some order.
Main exports: RetryCall, RetryCall.replayDeadLetter, retryLoop, retry, retryCycles
-/
import WebhookProcessor.Model.Config
import WebhookProcessor.Model.Replay

namespace WebhookProcessor

/-- What one call of `retry` samples, draws and is answered: the `now`, the outcome and the order of
its claim, and for each event the outcome of `ReplayDeadLetter` with its `now` and error text, and
the outcome of the reschedule with its `now` and its jitter. -/
structure RetryCall where
  now : Time
  claim : Outcome
  order : List RetryableDeadLetterDetail → List RetryableDeadLetterDetail
  order_perm : ∀ items, (order items).Perm items
  replay : EventId → Outcome
  replayedAt : EventId → Time
  storeError : EventId → String
  reschedule : EventId → Outcome
  rescheduledAt : EventId → Time
  draw : EventId → Nat

namespace RetryCall

variable (call : RetryCall)

/-- `ReplayDeadLetter` with the outcome of its transaction; a lost commit is reported as an error. -/
def replayDeadLetter (db : Database) (id : EventId) : Option ReplayError × Database :=
  match call.replay id, db.replayDeadLetter id (call.replayedAt id) with
  | .failed, _ => (some (.store (call.storeError id)), db)
  | _, .error error => (some error, db)
  | .ok, .ok after => (none, after)
  | .lost, .ok after => (some (.store (call.storeError id)), after)

/-- `RescheduleDeadLetterRetryWithDelay`; its error is only logged. -/
def rescheduleWithDelay (db : Database) (id : EventId) (error : ReplayError) (delay : Duration) :
    Database :=
  if (call.reschedule id).Effective then
    db.rescheduleDeadLetterRetry id error.message (call.rescheduledAt id + delay.toInt)
  else db

end RetryCall

/-- An item that the loop has dealt with, and whether its replay failed. -/
structure RetryAttempt where
  item : RetryableDeadLetterDetail
  failed : Bool
deriving Repr, DecidableEq

variable (interval : Duration) (maxAttempts : Nat)

/-- The loop of `retry` over the claimed items; `none` when `retryDelay` panics. -/
def retryLoop (call : RetryCall) :
    List RetryableDeadLetterDetail → Database → Option (List RetryAttempt × Database)
  | [], db => some ([], db)
  | item :: rest, db =>
      match call.replayDeadLetter db item.eventId with
      | (none, db) =>
          (retryLoop call rest db).map fun result =>
            ({ item := item, failed := false } :: result.1, result.2)
      | (some error, db) =>
          (retryDelay interval (Int64.ofNat item.replayAttempt) (call.draw item.eventId)).bind
            fun delay =>
              (retryLoop call rest (call.rescheduleWithDelay db item.eventId error delay)).map
                fun result => ({ item := item, failed := true } :: result.1, result.2)

/-- `retry`.  A claim that reports an error ends the call; if only its answer was lost, the items
are claimed all the same. -/
def retry (call : RetryCall) (db : Database) : Option (List RetryAttempt × Database) :=
  let claimed := db.claimRetryableDeadLetterDetails 10 maxAttempts call.now
  match call.claim with
  | .ok => retryLoop interval call (call.order claimed.1) claimed.2
  | .failed => some ([], db)
  | .lost => some ([], claimed.2)

/-- The loop of `run`, with the attempts of all its cycles. -/
def retryCycles : List RetryCall → Database → Option (List RetryAttempt × Database)
  | [], db => some ([], db)
  | call :: calls, db =>
      (retry interval maxAttempts call db).bind fun result =>
        (retryCycles calls result.2).map fun later => (result.1 ++ later.1, later.2)

end WebhookProcessor
