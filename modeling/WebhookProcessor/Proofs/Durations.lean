/-
Module: WebhookProcessor.Proofs.Durations
Layer: Proofs
Purpose: The durations derived from a loaded configuration.  `LoadConfig` bounds every number from
  below only, while the durations are 64-bit products with `10^6` or `10^9` nanoseconds and with
  the number of the attempt.  They are exact and positive exactly for numbers whose products are
  still a `time.Duration`; then the tickers start, no lease is negative, and every event is
  attempted.
Trusted boundary: none
Main exports: ExactProduct, DurationsExact, WithinDurations, durations_exact_iff
-/
import Mathlib.Algebra.Order.Ring.Int
import WebhookProcessor.Proofs.Configuration
import WebhookProcessor.Proofs.RetryLoop

namespace WebhookProcessor

open Machine

/-- The duration is the product of a number and a unit, without overflow, and positive. -/
def ExactProduct (duration : Duration) (number : Int64) (unit : Duration) : Prop :=
  duration.toInt = number.toInt * unit.toInt ∧ 0 < duration

/-- Every derived duration is exact and positive, there is a first attempt, and what depends on
them works: the tickers do not panic, no lease is negative, and the retry loop attempts every
event. -/
structure DurationsExact (config : LoadedConfig) : Prop where
  readHeaderTimeout :
    ExactProduct config.readHeaderTimeout config.readHeaderTimeoutSeconds second
  shutdownTimeout : ExactProduct config.shutdownTimeout config.shutdownTimeoutSeconds second
  rabbitMQReconnectInterval :
    ExactProduct config.rabbitMQReconnectInterval config.rabbitMQReconnectMs millisecond
  rabbitMQConnectTimeout :
    ExactProduct config.rabbitMQConnectTimeout config.rabbitMQConnectTimeoutMs millisecond
  outboxPollInterval :
    ExactProduct config.outboxPollInterval config.outboxPollIntervalMs millisecond
  outboxDispatchLease :
    ExactProduct config.outboxDispatchLease config.outboxDispatchLeaseSeconds second
  processingLease : ExactProduct config.processingLease config.processingLeaseSeconds second
  processingRequeueDelay :
    ExactProduct config.processingRequeueDelay config.processingRequeueDelayMs millisecond
  dlqRetryInterval :
    ExactProduct config.dlqRetryInterval config.dlqAutoRetryIntervalSeconds second
  retryBackoff : ∀ attempt : Int64, 1 ≤ attempt → attempt ≤ config.maxRetries →
    (config.retryBackoff attempt).toInt =
        attempt.toInt * config.retryBackoffSeconds.toInt * second.toInt ∧
      0 < config.retryBackoff attempt
  maxAttempts : 0 < config.maxRetries + 1
  outboxTicker : config.outboxTicker ≠ none
  dlqRetryTicker : config.dlqRetryTicker ≠ none
  outboxDispatchLease_nonneg : 0 ≤ config.outboxDispatchLease
  processingLease_nonneg : 0 ≤ config.processingLease
  attempted : ∀ {Payload : Type} (codec : Codec Payload) (answers : Answers)
    (event : Event Payload) (journal : Journal Payload), ∃ calls, 0 < calls ∧
      (processEventWithRetry codec config answers event journal).1.select WorkerCall.processed? =
        journal.select WorkerCall.processed? ++ List.replicate calls event

/-- The largest number of units that is a `time.Duration`. -/
def longest (unit : Duration) : Int := (2 ^ 63 - 1) / unit.toInt

example : longest second = 9223372036 := by decide

example : longest millisecond = 9223372036854 := by decide

/-- No configured number leads out of `time.Duration`. -/
structure WithinDurations (config : LoadedConfig) : Prop where
  readHeaderTimeoutSeconds : config.readHeaderTimeoutSeconds.toInt ≤ longest second
  shutdownTimeoutSeconds : config.shutdownTimeoutSeconds.toInt ≤ longest second
  rabbitMQReconnectMs : config.rabbitMQReconnectMs.toInt ≤ longest millisecond
  rabbitMQConnectTimeoutMs : config.rabbitMQConnectTimeoutMs.toInt ≤ longest millisecond
  outboxPollIntervalMs : config.outboxPollIntervalMs.toInt ≤ longest millisecond
  outboxDispatchLeaseSeconds : config.outboxDispatchLeaseSeconds.toInt ≤ longest second
  processingLeaseSeconds : config.processingLeaseSeconds.toInt ≤ longest second
  processingRequeueDelayMs : config.processingRequeueDelayMs.toInt ≤ longest millisecond
  dlqAutoRetryIntervalSeconds : config.dlqAutoRetryIntervalSeconds.toInt ≤ longest second
  backoffSeconds :
    config.maxRetries.toInt * config.retryBackoffSeconds.toInt ≤ longest second

/-! ### One product -/

theorem toInt_pos_of_lt {value : Int64} (positive : 0 < value) : 0 < value.toInt :=
  Int64.lt_iff_toInt_lt.mp positive

/-- A number of units is a `time.Duration` up to the largest such number. -/
theorem fits_mul_iff {number : Int} {unit : Duration} (nonneg : 0 ≤ number)
    (unitPositive : 0 < unit.toInt) : Fits (number * unit.toInt) ↔ number ≤ longest unit := by
  have productNonneg : 0 ≤ number * unit.toInt := Int.mul_nonneg nonneg (Int.le_of_lt unitPositive)
  rw [longest, Int.le_ediv_iff_mul_le unitPositive]
  constructor
  · rintro ⟨_, upper⟩
    omega
  · intro upper
    constructor
    · omega
    · omega

/-- Each of the products of `config.go`, by the number alone. -/
theorem exactProduct_iff {number : Int64} {unit : Duration} (positive : 0 < number)
    (unitPositive : 0 < unit.toInt) :
    ExactProduct (number * unit) number unit ↔ number.toInt ≤ longest unit := by
  have numberPositive := toInt_pos_of_lt positive
  rw [← fits_mul_iff (Int.le_of_lt numberPositive) unitPositive, ← toInt_mul_eq_iff]
  constructor
  · rintro ⟨exactly, _⟩
    exact exactly
  · intro exactly
    refine ⟨exactly, Int64.lt_iff_toInt_lt.mpr ?_⟩
    rw [exactly]
    exact Int.mul_pos numberPositive unitPositive

theorem second_positive : 0 < second.toInt := by decide

theorem seconds_iff {number : Int64} (positive : 0 < number) :
    ExactProduct (number * second) number second ↔ number.toInt ≤ longest second :=
  exactProduct_iff positive second_positive

theorem milliseconds_iff {number : Int64} (positive : 0 < number) :
    ExactProduct (number * millisecond) number millisecond ↔
      number.toInt ≤ longest millisecond :=
  exactProduct_iff positive (by decide)

/-! ### The backoff of the retry loop -/

section Backoff

variable {config : LoadedConfig}

/-- All backoffs are exact and positive exactly if the longest one is a `time.Duration`. -/
theorem retryBackoff_exact_iff (retries : 0 ≤ config.maxRetries)
    (positive : 0 < config.retryBackoffSeconds) :
    (∀ attempt : Int64, 1 ≤ attempt → attempt ≤ config.maxRetries →
        (config.retryBackoff attempt).toInt =
            attempt.toInt * config.retryBackoffSeconds.toInt * second.toInt ∧
          0 < config.retryBackoff attempt) ↔
      config.maxRetries.toInt * config.retryBackoffSeconds.toInt ≤ longest second := by
  have retriesNonneg : 0 ≤ config.maxRetries.toInt := Int64.le_iff_toInt_le.mp retries
  have backoffPositive := toInt_pos_of_lt positive
  have nonneg : 0 ≤ config.maxRetries.toInt * config.retryBackoffSeconds.toInt :=
    Int.mul_nonneg retriesNonneg (Int.le_of_lt backoffPositive)
  rw [← fits_mul_iff nonneg second_positive]
  constructor
  · intro exactly
    by_cases none : config.maxRetries.toInt = 0
    · rw [none, Int.zero_mul, Int.zero_mul]
      decide
    · -- the longest backoff is the one after the last retry
      have first : 1 ≤ config.maxRetries := Int64.le_iff_toInt_le.mpr (by show 1 ≤ _; omega)
      rw [← (exactly config.maxRetries first (Int64.le_refl _)).1]
      exact fits_toInt _
  · intro fits attempt first within
    have least : 1 ≤ attempt.toInt := Int64.le_iff_toInt_le.mp first
    have most := Int64.le_iff_toInt_le.mp within
    have value := toInt_retryBackoff (by omega) backoffPositive most fits
    refine ⟨value, Int64.lt_iff_toInt_lt.mpr ?_⟩
    rw [value]
    exact Int.mul_pos (Int.mul_pos (by omega) backoffPositive) second_positive

/-- Backoffs within the range leave room for the attempt after the last retry. -/
theorem maxAttempts_positive (retries : 0 ≤ config.maxRetries)
    (positive : 0 < config.retryBackoffSeconds)
    (within : config.maxRetries.toInt * config.retryBackoffSeconds.toInt ≤ longest second) :
    0 < config.maxRetries + 1 := by
  have retriesNonneg : 0 ≤ config.maxRetries.toInt := Int64.le_iff_toInt_le.mp retries
  have atLeast : config.maxRetries.toInt ≤
      config.maxRetries.toInt * config.retryBackoffSeconds.toInt :=
    le_mul_of_one_le_right retriesNonneg (toInt_pos_of_lt positive)
  have limit : longest second = 9223372036 := by decide
  have value : (config.maxRetries + 1).toInt = config.maxRetries.toInt + 1 := by
    apply toInt_add_of_fits
    show Fits (config.maxRetries.toInt + 1)
    constructor
    · omega
    · omega
  apply Int64.lt_iff_toInt_lt.mpr
  rw [value, Int64.toInt_zero]
  omega

/-- With a first attempt the processor is called. -/
theorem attempted_of_maxAttempts {Payload : Type} (entered : 0 < config.maxRetries + 1)
    (codec : Codec Payload) (answers : Answers) (event : Event Payload)
    (journal : Journal Payload) :
    ∃ calls, 0 < calls ∧
      (processEventWithRetry codec config answers event journal).1.select WorkerCall.processed? =
        journal.select WorkerCall.processed? ++ List.replicate calls event := by
  have positive := toInt_pos_of_lt entered
  obtain ⟨calls, called, atLeastOne⟩ := @attemptLoop_calls Payload codec config answers event
    (config.maxRetries + 1).toInt.toNat 1 journal
  refine ⟨calls, ?_, called⟩
  apply atLeastOne
  · omega
  · exact Int64.le_iff_toInt_le.mpr positive

end Backoff

/-! ### The configuration -/

theorem newTicker_ne_none {interval : Duration} (positive : 0 < interval) :
    newTicker interval ≠ none := by
  rw [newTicker, if_neg (Int64.not_le.mpr positive)]
  exact Option.some_ne_none _

/-- The derived durations are exact and positive, and what depends on them works, exactly if every
number of seconds or milliseconds and the longest backoff are still a `time.Duration`. -/
theorem durations_exact_iff {parse : String → Option Url} {environment : Environment}
    {config : LoadedConfig} (loaded : loadConfig parse environment = .ok config) :
    DurationsExact config ↔ WithinDurations config := by
  have admitted := admitted_of_loadConfig loaded
  have backoffs := retryBackoff_exact_iff admitted.maxRetries admitted.retryBackoffSeconds
  constructor
  · intro exactly
    exact
      { readHeaderTimeoutSeconds :=
          (seconds_iff admitted.readHeaderTimeoutSeconds).mp exactly.readHeaderTimeout
        shutdownTimeoutSeconds :=
          (seconds_iff admitted.shutdownTimeoutSeconds).mp exactly.shutdownTimeout
        rabbitMQReconnectMs :=
          (milliseconds_iff admitted.rabbitMQReconnectMs).mp exactly.rabbitMQReconnectInterval
        rabbitMQConnectTimeoutMs :=
          (milliseconds_iff admitted.rabbitMQConnectTimeoutMs).mp exactly.rabbitMQConnectTimeout
        outboxPollIntervalMs :=
          (milliseconds_iff admitted.outboxPollIntervalMs).mp exactly.outboxPollInterval
        outboxDispatchLeaseSeconds :=
          (seconds_iff admitted.outboxDispatchLeaseSeconds).mp exactly.outboxDispatchLease
        processingLeaseSeconds :=
          (seconds_iff admitted.processingLeaseSeconds).mp exactly.processingLease
        processingRequeueDelayMs :=
          (milliseconds_iff admitted.processingRequeueDelayMs).mp exactly.processingRequeueDelay
        dlqAutoRetryIntervalSeconds :=
          (seconds_iff admitted.dlqAutoRetryIntervalSeconds).mp exactly.dlqRetryInterval
        backoffSeconds := backoffs.mp exactly.retryBackoff }
  · intro within
    have poll := (milliseconds_iff admitted.outboxPollIntervalMs).mpr within.outboxPollIntervalMs
    have interval :=
      (seconds_iff admitted.dlqAutoRetryIntervalSeconds).mpr within.dlqAutoRetryIntervalSeconds
    have dispatch :=
      (seconds_iff admitted.outboxDispatchLeaseSeconds).mpr within.outboxDispatchLeaseSeconds
    have processing :=
      (seconds_iff admitted.processingLeaseSeconds).mpr within.processingLeaseSeconds
    have entered := maxAttempts_positive admitted.maxRetries admitted.retryBackoffSeconds
      within.backoffSeconds
    exact
      { readHeaderTimeout :=
          (seconds_iff admitted.readHeaderTimeoutSeconds).mpr within.readHeaderTimeoutSeconds
        shutdownTimeout :=
          (seconds_iff admitted.shutdownTimeoutSeconds).mpr within.shutdownTimeoutSeconds
        rabbitMQReconnectInterval :=
          (milliseconds_iff admitted.rabbitMQReconnectMs).mpr within.rabbitMQReconnectMs
        rabbitMQConnectTimeout :=
          (milliseconds_iff admitted.rabbitMQConnectTimeoutMs).mpr within.rabbitMQConnectTimeoutMs
        outboxPollInterval := poll
        outboxDispatchLease := dispatch
        processingLease := processing
        processingRequeueDelay :=
          (milliseconds_iff admitted.processingRequeueDelayMs).mpr within.processingRequeueDelayMs
        dlqRetryInterval := interval
        retryBackoff := backoffs.mpr within.backoffSeconds
        maxAttempts := entered
        outboxTicker := newTicker_ne_none poll.2
        dlqRetryTicker := newTicker_ne_none interval.2
        outboxDispatchLease_nonneg := Int64.le_of_lt dispatch.2
        processingLease_nonneg := Int64.le_of_lt processing.2
        attempted := attempted_of_maxAttempts entered }

theorem durations_exact_of_defaults :
    ∃ config, loadConfig parseDefaultUrls (fun _ => none) = .ok config ∧
      DurationsExact config := by
  refine ⟨readConfig fun _ => none, rfl, ?_⟩
  apply (durations_exact_iff (show loadConfig parseDefaultUrls (fun _ => none) = _ from rfl)).mpr
  constructor <;> decide

/-- A poll interval of 9223372036855 ms is admitted; its nanoseconds wrap around to a negative
duration, and `NewTicker` panics. -/
theorem durations_overflow :
    ∃ config, loadConfig parseDefaultUrls
        (fun key => if key = "OUTBOX_POLL_INTERVAL_MS" then some "9223372036855" else none) =
          .ok config ∧
      config.outboxPollInterval < 0 ∧ config.outboxTicker = none ∧ ¬ DurationsExact config := by
  refine ⟨_, rfl, by decide +kernel, by decide +kernel, ?_⟩
  intro exactly
  exact exactly.outboxTicker (by decide +kernel)

end WebhookProcessor
