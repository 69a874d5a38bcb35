/-
Module: WebhookProcessor.Model.Exposition
Layer: Model
Purpose: What `prometheusMetricsHandler` answers: an error where the database does not, and
  otherwise the text that `Prometheus` and `PrometheusWithOperationalMetrics` write from the values
  that they load, with the two ratios that are computed in floating point.
Trusted boundary: `fmt` writes `%d` in base ten and rounds `%.6f` to the nearest decimal, ties to
  even; `float64` conversion and division round to the nearest binary64 number.
Main exports: MetricsResponse, OperationalMetrics, Database.operationalMetrics, Scrape,
  Scrape.loads, ratio, Series, Scrape.prometheus, Scrape.prometheusWithOperationalMetrics,
  PrometheusResponse, prometheusMetricsHandler
-/
import WebhookProcessor.Exposition.Text
import WebhookProcessor.Model.Metrics

namespace WebhookProcessor

/-- `metrics.go: MetricsResponse`. -/
structure MetricsResponse where
  eventsQueued : Int64
  eventsRejected : Int64
  eventsDuplicated : Int64
  eventsSkippedDuplicate : Int64
  eventsProcessed : Int64
  eventsFailedPermanent : Int64
  eventRetries : Int64
  deadLetterReplays : Int64
  deadLetterReplayRejected : Int64
  deadLetterAutoRetries : Int64
  deadLetterAutoRetryFailed : Int64
  queueLength : Int64
  queueCapacity : Int64
deriving Repr, DecidableEq

/-- `operational_metrics.go: OperationalMetrics`. -/
structure OperationalMetrics where
  pendingOutbox : Int64
  pendingDeadLetters : Int64
deriving Repr, DecidableEq

/-- `EventStore.OperationalMetrics`: both subqueries of its statement read one snapshot. -/
def Database.operationalMetrics (db : Database) : OperationalMetrics :=
  { pendingOutbox := Int64.ofNat (db.outbox.countWhere fun row => row.publishedAt = none)
    pendingDeadLetters := Int64.ofNat (db.deadLetters.countWhere fun row => row.replayedAt = none) }

/-- The loads for `ratio(part.Load(), other.Load()+part.Load())`, in order. -/
structure RatioLoads where
  part : Int64
  other : Int64
  partAgain : Int64
deriving Repr, DecidableEq

/-- The values that one call of `PrometheusWithOperationalMetrics` loads. -/
structure Scrape where
  snapshot : MetricsResponse
  processingLatency : ProcessingLatency
  rejection : RatioLoads
  failure : RatioLoads
deriving Repr, DecidableEq

/-- The counters that are loaded for them, in order. -/
def Scrape.loads (scrape : Scrape) : List (Counter × Int64) :=
  [(.eventsQueued, scrape.snapshot.eventsQueued),
    (.eventsRejected, scrape.snapshot.eventsRejected),
    (.eventsDuplicated, scrape.snapshot.eventsDuplicated),
    (.eventsSkippedDuplicate, scrape.snapshot.eventsSkippedDuplicate),
    (.eventsProcessed, scrape.snapshot.eventsProcessed),
    (.eventsFailedPermanent, scrape.snapshot.eventsFailedPermanent),
    (.eventRetries, scrape.snapshot.eventRetries),
    (.deadLetterReplays, scrape.snapshot.deadLetterReplays),
    (.deadLetterReplayRejected, scrape.snapshot.deadLetterReplayRejected),
    (.deadLetterAutoRetries, scrape.snapshot.deadLetterAutoRetries),
    (.deadLetterAutoRetryFailed, scrape.snapshot.deadLetterAutoRetryFailed),
    (.eventsRejected, scrape.rejection.part),
    (.eventsQueued, scrape.rejection.other),
    (.eventsRejected, scrape.rejection.partAgain),
    (.eventsFailedPermanent, scrape.failure.part),
    (.eventsProcessed, scrape.failure.other),
    (.eventsFailedPermanent, scrape.failure.partAgain)]

/-- `float64(numerator) / float64(denominator)`, without the sign of a zero. -/
def float64Quotient (numerator denominator : Int64) : ℚ :=
  Binary64.nearest (Binary64.nearest numerator.toInt / Binary64.nearest denominator.toInt)

/-- `metrics-prometheus-extra.go: ratio`. -/
def ratio (numerator denominator : Int64) : String :=
  if denominator = 0 then "0"
  else
    -- The sign is that of the division, so a zero over a negative number is written with one.
    (if numerator < 0 ↔ denominator < 0 then "" else "-") ++
      String.ofList (Decimal.write 6 |float64Quotient numerator denominator|)

def RatioLoads.text (loads : RatioLoads) : String :=
  ratio loads.part (loads.other + loads.partAgain)

/-- One call of `writeCounter` or `writeGauge`. -/
structure Series where
  kind : Exposition.Kind
  name : String
  help : String
  value : String

def writeCounter (name help : String) (value : Int64) : Series :=
  { kind := .counter
    name := name
    help := help
    value := toString value }

def writeGauge (name help : String) (value : Int64) : Series :=
  { kind := .gauge
    name := name
    help := help
    value := toString value }

def writeRatio (name help value : String) : Series :=
  { kind := .gauge
    name := name
    help := help
    value := value }

/-- The word that the format string of the call has. -/
def Series.type (series : Series) : String :=
  match series.kind with
  | .counter => "counter"
  | .gauge => "gauge"

/-- The format string of the calls. -/
def Series.text (series : Series) : String :=
  "# HELP " ++ series.name ++ " " ++ series.help ++ "\n" ++
    "# TYPE " ++ series.name ++ " " ++ series.type ++ "\n" ++
    series.name ++ " " ++ series.value ++ "\n"

namespace Scrape

variable (scrape : Scrape)

/-- `metrics_prometheus.go: Prometheus`. -/
def prometheus : List Series :=
  let snapshot := scrape.snapshot
  let latency := scrape.processingLatency
  [writeCounter "webhook_events_queued_total" "Events accepted into the outbox."
      snapshot.eventsQueued,
    writeCounter "webhook_events_rejected_total" "Events rejected by the API."
      snapshot.eventsRejected,
    writeCounter "webhook_events_duplicated_total" "Duplicate events rejected by the API."
      snapshot.eventsDuplicated,
    writeCounter "webhook_events_processed_total" "Events processed successfully."
      snapshot.eventsProcessed,
    writeCounter "webhook_events_failed_permanent_total" "Events that reached permanent failure."
      snapshot.eventsFailedPermanent,
    writeCounter "webhook_event_retries_total" "Event processing retries." snapshot.eventRetries,
    writeCounter "webhook_dead_letter_replays_total" "Dead letters replayed manually."
      snapshot.deadLetterReplays,
    writeCounter "webhook_dead_letter_replay_rejected_total"
      "Rejected dead letter replay requests." snapshot.deadLetterReplayRejected,
    writeCounter "webhook_dead_letter_auto_retries_total" "Dead letters replayed automatically."
      snapshot.deadLetterAutoRetries,
    writeCounter "webhook_dead_letter_auto_retry_failed_total"
      "Failed automatic dead letter replays." snapshot.deadLetterAutoRetryFailed,
    writeGauge "webhook_queue_length" "Current in-process queue length." snapshot.queueLength,
    writeGauge "webhook_queue_capacity" "Configured in-process queue capacity."
      snapshot.queueCapacity,
    writeCounter "webhook_event_processing_duration_nanoseconds_total"
      "Total event processing duration in nanoseconds." latency.sumNS,
    writeCounter "webhook_event_processing_attempts_total"
      "Total event processing attempts measured for latency." latency.count,
    writeGauge "webhook_event_processing_duration_nanoseconds_max"
      "Maximum observed event processing duration in nanoseconds." latency.maxNS]

/-- `metrics-prometheus-extra.go: PrometheusWithOperationalMetrics`. -/
def prometheusWithOperationalMetrics (operational : OperationalMetrics) : List Series :=
  scrape.prometheus ++
    [writeGauge "webhook_outbox_pending_messages" "Current unpublished Outbox messages."
        operational.pendingOutbox,
      writeGauge "webhook_dead_letters_pending" "Current unreplayed dead letters."
        operational.pendingDeadLetters,
      writeRatio "webhook_events_rejection_ratio"
        "Rejected events divided by accepted and rejected events." scrape.rejection.text,
      writeRatio "webhook_events_failure_ratio"
        "Permanently failed events divided by processed and failed events." scrape.failure.text]

/-- The text that the calls write. -/
def body (operational : OperationalMetrics) : List Char :=
  (scrape.prometheusWithOperationalMetrics operational).flatMap fun series => series.text.toList

end Scrape

/-- A text with status 200, or the status and the message of `writeError`. -/
inductive PrometheusResponse where
  | written (contentType : String) (body : List Char)
  | rejected (statusCode : Nat) (message : String)

/-- `prometheus-handler.go: prometheusMetricsHandler`.  The statement of `OperationalMetrics` comes
first; where it fails, `operational` is `none` and nothing is loaded. -/
def prometheusMetricsHandler (operational : Option OperationalMetrics) (scrape : Scrape) :
    PrometheusResponse :=
  match operational with
  | none => .rejected 503 "metrics unavailable"
  | some operational =>
      .written "text/plain; version=0.0.4; charset=utf-8" (scrape.body operational)

end WebhookProcessor
