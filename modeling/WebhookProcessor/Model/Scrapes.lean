/-
Module: WebhookProcessor.Model.Scrapes
Layer: Model
Purpose: The counters of `Metrics` under concurrency.  Every part of the service that counts is a
  straight line of atomic increments; `Snapshot` and the Prometheus handlers are straight lines of
  atomic loads, in the order in which Go evaluates them.  Any number of them run at the same time.
Trusted boundary: the operations of `atomic.Int64` are sequentially consistent, as the Go memory
  model says; calls in an expression are evaluated from left to right.
Main exports: Activity, Activity.program, MetricsState, MetricsState.count, MetricsState.Reached
-/
import WebhookProcessor.Concurrency.Counters
import WebhookProcessor.Model.Intake
import WebhookProcessor.Model.Replay

namespace WebhookProcessor

open Concurrency

/-- The last counter of a `handleDelivery` call: none where the claim failed or the loop was left
without a result. -/
inductive DeliveryEnd where
  | uncounted
  | skipped
  | processed
  | failed
deriving Repr, DecidableEq

/-- What runs between its first and its last use of the counters. -/
inductive Activity where
  | createEvent (response : CreateResponse)
  | replayDeadLetter (response : ReplayResponse)
  /-- One item of `DLQRetryScheduler.retry`. -/
  | autoRetry (failed : Bool)
  /-- A message whose `MarkOutboxPublished` succeeded. -/
  | published
  | delivery (retries : Nat) (ending : DeliveryEnd)
  /-- `Snapshot`, for `metricsHandler`. -/
  | snapshot
  /-- `PrometheusWithOperationalMetrics`, for `prometheusMetricsHandler`. -/
  | prometheus
deriving Repr, DecidableEq

/-- What `replayDeadLetterHandler` counts for a response. -/
def ReplayResponse.increments : ReplayResponse → List Counter
  | .accepted _ => [.deadLetterReplays]
  | .rejected _ _ => [.deadLetterReplayRejected]

def DeliveryEnd.increments : DeliveryEnd → List Counter
  | .uncounted => []
  | .skipped => [.eventsSkippedDuplicate]
  | .processed => [.eventsProcessed]
  | .failed => [.eventsFailedPermanent]

/-- The loads of `Snapshot`. -/
def snapshotLoads : List Counter :=
  [.eventsQueued, .eventsRejected, .eventsDuplicated, .eventsSkippedDuplicate, .eventsProcessed,
    .eventsFailedPermanent, .eventRetries, .deadLetterReplays, .deadLetterReplayRejected,
    .deadLetterAutoRetries, .deadLetterAutoRetryFailed]

/-- The loads for the arguments of the two calls of `ratio`. -/
def ratioLoads : List Counter :=
  [.eventsRejected, .eventsQueued, .eventsRejected, .eventsFailedPermanent, .eventsProcessed,
    .eventsFailedPermanent]

namespace Activity

/-- The counters that the activity increments, in order. -/
def increments : Activity → List Counter
  | .createEvent response => response.increments
  | .replayDeadLetter response => response.increments
  | .autoRetry failed =>
      .deadLetterAutoRetries :: if failed then [.deadLetterAutoRetryFailed] else []
  | .published => [.eventsQueued]
  | .delivery retries ending => List.replicate retries .eventRetries ++ ending.increments
  | .snapshot | .prometheus => []

/-- The counters that it loads, in order. -/
def loads : Activity → List Counter
  | .snapshot => snapshotLoads
  | .prometheus => snapshotLoads ++ ratioLoads
  | _ => []

def program (activity : Activity) : List (CounterOp Counter) :=
  activity.increments.map .add ++ activity.loads.map .load

end Activity

/-- The counters and the activities that have started. -/
abbrev MetricsState := Counters.State Counter Int64

namespace MetricsState

/-- `NewMetrics`. -/
def new : MetricsState := Counters.zero

/-- An activity starts, or one of them makes its next atomic operation. -/
def count : MetricsState → PoolAction Activity → Option MetricsState :=
  Counters.next Activity.program

/-- States that some interleaving leads to. -/
abbrev Reached (state : MetricsState) : Prop := Transition.Reachable new count state

/-- The number of increments made so far. -/
def increments (state : MetricsState) : Nat :=
  (state.threads.map fun thread => thread.made.countP fun operation => operation.loaded? = none).sum

end MetricsState

end WebhookProcessor
