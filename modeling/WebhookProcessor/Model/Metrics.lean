/-
Module: WebhookProcessor.Model.Metrics
Layer: Model
Purpose: The counters of `Metrics` by name, and what the calls of a worker do to them.  The other
  functions of the service that count return the counters they increment, in order;
  `Model.Scrapes` runs these increments against each other.
Trusted boundary: none
Main exports: Counter, ProcessingLatency, Metrics, Metrics.inc
-/
import WebhookProcessor.Model.Config

namespace WebhookProcessor

/-- The fields of `metrics.go: Metrics`, without the latency aggregate. -/
inductive Counter where
  | eventsQueued
  | eventsRejected
  | eventsDuplicated
  | eventsSkippedDuplicate
  | eventsProcessed
  | eventsFailedPermanent
  | eventRetries
  | deadLetterReplays
  | deadLetterReplayRejected
  | deadLetterAutoRetries
  | deadLetterAutoRetryFailed
deriving Repr, DecidableEq

/-- `latency-metrics.go: ProcessingLatency`. -/
structure ProcessingLatency where
  count : Int64
  sumNS : Int64
  maxNS : Int64
deriving Repr, DecidableEq

/-- `metrics.go: Metrics`. -/
structure Metrics where
  counter : Counter → Int64
  processingLatency : ProcessingLatency

namespace Metrics

/-- `NewMetrics`. -/
def new : Metrics :=
  { counter := fun _ => 0
    processingLatency :=
      { count := 0
        sumNS := 0
        maxNS := 0 } }

variable (metrics : Metrics)

/-- `Add(1)` on one counter. -/
def inc (counter : Counter) : Metrics :=
  { metrics with
    counter := Function.update metrics.counter counter (metrics.counter counter + 1) }

def incEventsSkippedDuplicate : Metrics := metrics.inc .eventsSkippedDuplicate

def incEventsProcessed : Metrics := metrics.inc .eventsProcessed

def incEventsFailedPermanent : Metrics := metrics.inc .eventsFailedPermanent

def incEventRetries : Metrics := metrics.inc .eventRetries

def observeEventProcessingDuration (duration : Duration) : Metrics :=
  { metrics with
    processingLatency :=
      { count := metrics.processingLatency.count + 1
        sumNS := metrics.processingLatency.sumNS + duration
        maxNS := if metrics.processingLatency.maxNS < duration then duration
          else metrics.processingLatency.maxNS } }

end Metrics

end WebhookProcessor
