/-
Module: WebhookProcessor.Proofs.RetryLoop
Layer: Proofs
Purpose: What one call of `processEventWithRetry` does, for every sequence of processor outcomes and
  every outcome of its store calls.  The loop is cut into its failed attempts, described by one
  induction, and the attempt that ends it.  A summary of the journal collects everything a call can
  add; each piece of the loop says what it adds to the summary.
Trusted boundary: none
Main exports: RetrySummary, attemptLoop_failures, processEventWithRetry_summary
-/
import WebhookProcessor.Machine.Int64
import WebhookProcessor.Model.Calls
import WebhookProcessor.Model.Delivery

namespace WebhookProcessor

open Machine

variable {Payload : Type}

/-! ### Views of the journal operations -/

namespace Journal

variable {Passed : Type} (kind : WorkerCall Payload → Option Passed) (journal : Journal Payload)

@[simp] theorem select_execute (call : WorkerCall Payload) (db : Database) :
    (journal.execute call db).select kind = journal.select kind ++ (kind call).toList := by
  unfold select execute
  rw [List.filterMap_append]
  cases passed : kind call with
  | none => simp [passed]
  | some value => simp [passed]

@[simp] theorem select_record (call : WorkerCall Payload) :
    (journal.record call).select kind = journal.select kind ++ (kind call).toList :=
  select_execute kind journal call journal.db

@[simp] theorem select_withMetrics (update : Metrics → Metrics) :
    (journal.withMetrics update).select kind = journal.select kind := rfl

@[simp] theorem db_execute (call : WorkerCall Payload) (db : Database) :
    (journal.execute call db).db = db := rfl

@[simp] theorem metrics_execute (call : WorkerCall Payload) (db : Database) :
    (journal.execute call db).metrics = journal.metrics := rfl

end Journal

/-- What the specification of the retry loop counts: the calls by kind with what they passed, the
sleeps in nanoseconds, and the four counters. -/
structure RetrySummary (Payload : Type) where
  processorCalls : List (Event Payload)
  sleeps : List Int
  marksProcessed : List (EventId × Int64)
  adds : List (Event Payload × String × Int64)
  marksFailed : List (EventId × Int64 × String)
  eventRetries : Int64
  eventsProcessed : Int64
  eventsFailedPermanent : Int64
  latencyCount : Int64

def Journal.summary (journal : Journal Payload) : RetrySummary Payload :=
  { processorCalls := journal.select WorkerCall.processed?
    sleeps := (journal.select WorkerCall.sleep?).map Int64.toInt
    marksProcessed := journal.select WorkerCall.markProcessed?
    adds := journal.select WorkerCall.add?
    marksFailed := journal.select WorkerCall.markFailed?
    eventRetries := journal.metrics.counter .eventRetries
    eventsProcessed := journal.metrics.counter .eventsProcessed
    eventsFailedPermanent := journal.metrics.counter .eventsFailedPermanent
    latencyCount := journal.metrics.processingLatency.count }

/-- What a call adds to the summary. -/
def RetrySummary.note (summary : RetrySummary Payload) : WorkerCall Payload → RetrySummary Payload
  | .process event =>
      { summary with processorCalls := summary.processorCalls ++ [event] }
  | .sleep duration => { summary with sleeps := summary.sleeps ++ [duration.toInt] }
  | .markProcessed id attempts _ =>
      { summary with marksProcessed := summary.marksProcessed ++ [(id, attempts)] }
  | .addDeadLetter event error attempts _ =>
      { summary with adds := summary.adds ++ [(event, error, attempts)] }
  | .markFailed id attempts error _ =>
      { summary with marksFailed := summary.marksFailed ++ [(id, attempts, error)] }
  | .claimUpdate _ _ | .claimSelect _ _ | .settle _ => summary

theorem summary_execute (journal : Journal Payload) (call : WorkerCall Payload) (db : Database) :
    (journal.execute call db).summary = journal.summary.note call := by
  cases call <;> simp [Journal.summary, RetrySummary.note, WorkerCall.processed?,
    WorkerCall.sleep?, WorkerCall.markProcessed?, WorkerCall.add?, WorkerCall.markFailed?]

section Pieces

variable (codec : Codec Payload) (config : LoadedConfig) (answers : Answers)
  (event : Event Payload) (attempt : Int64) (journal : Journal Payload)

theorem runProcessor_summary :
    (runProcessor answers event attempt journal).summary =
      { journal.summary with
        processorCalls := journal.summary.processorCalls ++ [event]
        latencyCount := journal.summary.latencyCount + 1 } := by
  calc (runProcessor answers event attempt journal).summary
      = { (journal.record (.process event)).summary with
          latencyCount := journal.summary.latencyCount + 1 } := rfl
    _ = _ := by
        rw [Journal.record, summary_execute]
        rfl

theorem retryLater_summary :
    (retryLater config attempt journal).summary =
      { journal.summary with
        sleeps := journal.summary.sleeps ++ [(config.retryBackoff attempt).toInt]
        eventRetries := journal.summary.eventRetries + 1 } := by
  rw [retryLater, Journal.record, summary_execute]
  rfl

theorem succeed_summary :
    (succeed answers event attempt journal).1.summary =
      { journal.summary with
        marksProcessed := journal.summary.marksProcessed ++ [(event.id, attempt)]
        eventsProcessed := journal.summary.eventsProcessed + 1 } := by
  apply summary_execute

/-- `Add` succeeds: the payload marshals and the statement is answered. -/
def Answers.Added : Prop :=
  codec.marshal event.payload ≠ none ∧ answers.add.outcome = .ok

instance : Decidable (answers.Added codec event) :=
  inferInstanceAs (Decidable (_ ∧ _))

theorem addDeadLetter_added (error : String) :
    (journal.addDeadLetter codec answers.add event error attempt).2 =
      decide (answers.Added codec event) := by
  unfold Journal.addDeadLetter
  cases marshalled : codec.marshal event.payload with
  | none => simp [Answers.Added, marshalled]
  | some payload => simp [Answers.Added, marshalled]

theorem addDeadLetter_summary (error : String) :
    (journal.addDeadLetter codec answers.add event error attempt).1.summary =
      { journal.summary with adds := journal.summary.adds ++ [(event, error, attempt)] } := by
  unfold Journal.addDeadLetter
  cases codec.marshal event.payload with
  | none => apply summary_execute
  | some payload => apply summary_execute

theorem markFailed_summary (error : String) :
    (journal.markFailed answers.markFailed event.id attempt error).1.summary =
      { journal.summary with
        marksFailed := journal.summary.marksFailed ++ [(event.id, attempt, error)] } := by
  apply summary_execute

theorem giveUp_eq (error : String) :
    giveUp codec answers event attempt error journal =
      let add := (journal.withMetrics Metrics.incEventsFailedPermanent).addDeadLetter codec
        answers.add event error attempt
      let mark := add.1.markFailed answers.markFailed event.id attempt error
      if add.2 then (mark.1, false, mark.2) else (add.1, false, false) := rfl

theorem giveUp_summary (error : String) :
    (giveUp codec answers event attempt error journal).1.summary =
      { journal.summary with
        adds := journal.summary.adds ++ [(event, error, attempt)]
        marksFailed := journal.summary.marksFailed ++
          if answers.Added codec event then [(event.id, attempt, error)] else []
        eventsFailedPermanent := journal.summary.eventsFailedPermanent + 1 } := by
  simp only [giveUp_eq, addDeadLetter_added]
  by_cases added : answers.Added codec event
  · simp only [added, decide_true, if_true]
    rw [markFailed_summary, addDeadLetter_summary]
    rfl
  · simp only [added, decide_false, if_false, List.append_nil, Bool.false_eq_true]
    rw [addDeadLetter_summary]
    rfl

theorem giveUp_result (error : String) :
    (giveUp codec answers event attempt error journal).2 =
      (false, decide (answers.Added codec event ∧ answers.markFailed.outcome = .ok)) := by
  simp only [giveUp_eq, addDeadLetter_added]
  by_cases added : answers.Added codec event
  · simp [added, Journal.markFailed]
  · simp [added]

end Pieces

/-! ### The loop -/

section Loop

variable (codec : Codec Payload) (config : LoadedConfig) (answers : Answers)
  (event : Event Payload)

/-- The journal after `count` failed attempts from `attempt` on, each followed by its sleep. -/
def failedAttempts : (count : Nat) → (attempt : Int64) → Journal Payload → Journal Payload
  | 0, _, journal => journal
  | count + 1, attempt, journal =>
      failedAttempts count (attempt + 1)
        (retryLater config attempt (runProcessor answers event attempt journal))

variable {config} {answers}

/-- The successor of an attempt below another one is exact. -/
theorem toInt_succ_of_lt {attempt last : Int64} (below : attempt.toInt < last.toInt) :
    (attempt + 1).toInt = attempt.toInt + 1 := by
  have upper := last.toInt_lt
  have lower := attempt.le_toInt
  apply toInt_add_of_fits
  constructor
  · show -2 ^ 63 ≤ attempt.toInt + 1
    omega
  · show attempt.toInt + 1 < 2 ^ 63
    omega

/-- Attempts that fail before the last one leave the loop running at the next attempt. -/
theorem attemptLoop_failures (count rounds : Nat) {attempt last : Int64}
    (journal : Journal Payload) (distance : last.toInt = attempt.toInt + count)
    (within : last ≤ config.maxRetries + 1)
    (failed : ∀ earlier, attempt ≤ earlier → earlier < last → answers.processor earlier ≠ none) :
    attemptLoop codec config answers event (count + rounds) attempt journal =
      attemptLoop codec config answers event rounds last
        (failedAttempts config answers event count attempt journal) := by
  induction count generalizing attempt journal with
  | zero =>
      have same : last = attempt := Int64.toInt_inj.mp (by simpa using distance)
      rw [same, Nat.zero_add, failedAttempts]
  | succ count inductionHypothesis =>
      have below : attempt < last := Int64.lt_iff_toInt_lt.mpr (by omega)
      have next := toInt_succ_of_lt (Int64.lt_iff_toInt_lt.mp below)
      obtain ⟨error, answered⟩ :=
        Option.ne_none_iff_exists'.mp (failed attempt (Int64.le_refl _) below)
      have inside : attempt ≤ config.maxRetries + 1 :=
        Int64.le_trans (Int64.le_of_lt below) within
      have notLast : attempt ≠ config.maxRetries + 1 := by
        rintro rfl
        exact Int64.lt_irrefl (Int64.lt_of_lt_of_le below within)
      rw [Nat.add_right_comm, attemptLoop]
      simp only [if_pos inside, answered, if_neg notLast]
      apply inductionHypothesis
      · omega
      · intro earlier after before
        apply failed earlier _ before
        have order := Int64.le_iff_toInt_le.mp after
        exact Int64.le_iff_toInt_le.mpr (by omega)

/-- `RetryBackoff` is exact while the longest backoff of the loop is a `time.Duration`. -/
theorem toInt_retryBackoff {attempt : Int64} (nonneg : 0 ≤ attempt.toInt)
    (positive : 0 < config.retryBackoffSeconds.toInt)
    (within : attempt.toInt ≤ config.maxRetries.toInt)
    (fits : Fits (config.maxRetries.toInt * config.retryBackoffSeconds.toInt * second.toInt)) :
    (config.retryBackoff attempt).toInt =
      attempt.toInt * config.retryBackoffSeconds.toInt * second.toInt := by
  rw [show second.toInt = 1000000000 by decide] at fits ⊢
  have product : attempt.toInt * config.retryBackoffSeconds.toInt ≤
      config.maxRetries.toInt * config.retryBackoffSeconds.toInt :=
    Int.mul_le_mul_of_nonneg_right within (Int.le_of_lt positive)
  have productNonneg : 0 ≤ attempt.toInt * config.retryBackoffSeconds.toInt :=
    Int.mul_nonneg nonneg (Int.le_of_lt positive)
  unfold Fits at fits
  have seconds : (config.retryBackoffSeconds * attempt).toInt =
      attempt.toInt * config.retryBackoffSeconds.toInt := by
    rw [Int.mul_comm attempt.toInt] at product productNonneg ⊢
    apply toInt_mul_of_fits
    unfold Fits
    omega
  rw [LoadedConfig.retryBackoff, toInt_mul_of_fits, seconds]
  · rfl
  · rw [seconds]
    show Fits (_ * 1000000000)
    unfold Fits
    omega

/-- The sleeps after the failed attempts `first`, …, `first + count - 1`, in nanoseconds. -/
def backoffs (backoffSeconds : Int) (first count : Nat) : List Int :=
  (List.range' first count).map fun attempt : Nat => (attempt : Int) * backoffSeconds * second.toInt

theorem failedAttempts_summary (count first : Nat) {attempt last : Int64}
    (journal : Journal Payload) (begins : attempt.toInt = first)
    (distance : last.toInt = attempt.toInt + count)
    (exactly : ∀ earlier, attempt ≤ earlier → earlier < last →
      (config.retryBackoff earlier).toInt =
        earlier.toInt * config.retryBackoffSeconds.toInt * second.toInt) :
    (failedAttempts config answers event count attempt journal).summary =
      { journal.summary with
        processorCalls := journal.summary.processorCalls ++ List.replicate count event
        sleeps := journal.summary.sleeps ++
          backoffs config.retryBackoffSeconds.toInt first count
        eventRetries := journal.summary.eventRetries + (last - attempt)
        latencyCount := journal.summary.latencyCount + (last - attempt) } := by
  induction count generalizing attempt first journal with
  | zero =>
      have same : last = attempt := Int64.toInt_inj.mp (by simpa using distance)
      simp [same, failedAttempts, backoffs]
  | succ count inductionHypothesis =>
      have below : attempt < last := Int64.lt_iff_toInt_lt.mpr (by omega)
      have next := toInt_succ_of_lt (Int64.lt_iff_toInt_lt.mp below)
      have here := exactly attempt (Int64.le_refl _) below
      have rest : ∀ earlier, attempt + 1 ≤ earlier → earlier < last →
          (config.retryBackoff earlier).toInt =
            earlier.toInt * config.retryBackoffSeconds.toInt * second.toInt := by
        intro earlier after before
        apply exactly earlier _ before
        have order := Int64.le_iff_toInt_le.mp after
        exact Int64.le_iff_toInt_le.mpr (by omega)
      have later := inductionHypothesis (first + 1)
        (retryLater config attempt (runProcessor answers event attempt journal))
        (by omega) (by omega) rest
      have counted : ∀ counter : Int64, counter + 1 + (last - (attempt + 1)) =
          counter + (last - attempt) := by
        intro counter
        grind
      rw [failedAttempts, later, retryLater_summary, runProcessor_summary]
      simp only [counted, here, begins, backoffs, List.range'_succ, List.map_cons,
        List.append_assoc, List.singleton_append, List.replicate_succ]

end Loop

/-! ### The whole call -/

namespace RetrySummary

variable (before : RetrySummary Payload) (event : Event Payload) (backoffSeconds : Int)
  (attempts : Int64)

/-- The first success is at attempt `attempts`. -/
def afterSuccess : RetrySummary Payload :=
  { before with
    processorCalls := before.processorCalls ++ List.replicate attempts.toInt.toNat event
    sleeps := before.sleeps ++ backoffs backoffSeconds 1 (attempts.toInt.toNat - 1)
    marksProcessed := before.marksProcessed ++ [(event.id, attempts)]
    eventRetries := before.eventRetries + (attempts - 1)
    eventsProcessed := before.eventsProcessed + 1
    latencyCount := before.latencyCount + attempts }

/-- All `attempts` attempts fail, the last one with `error`. -/
def afterFailure (error : String) (added : Prop) [Decidable added] : RetrySummary Payload :=
  { before with
    processorCalls := before.processorCalls ++ List.replicate attempts.toInt.toNat event
    sleeps := before.sleeps ++ backoffs backoffSeconds 1 (attempts.toInt.toNat - 1)
    adds := before.adds ++ [(event, error, attempts)]
    marksFailed := before.marksFailed ++ if added then [(event.id, attempts, error)] else []
    eventRetries := before.eventRetries + (attempts - 1)
    eventsFailedPermanent := before.eventsFailedPermanent + 1
    latencyCount := before.latencyCount + attempts }

end RetrySummary

section Call

variable {codec : Codec Payload} {config : LoadedConfig} {answers : Answers}
  {event : Event Payload} {start : Journal Payload}

/-- The failed attempts before `last`, cut off the loop. -/
theorem attemptLoop_eq {last : Int64} (first : 1 ≤ last) (within : last ≤ config.maxRetries + 1)
    (failed : ∀ earlier, 1 ≤ earlier → earlier < last → answers.processor earlier ≠ none) :
    ∃ rounds, attemptLoop codec config answers event (config.maxRetries + 1).toInt.toNat 1 start =
      attemptLoop codec config answers event (rounds + 1) last
        (failedAttempts config answers event (last.toInt.toNat - 1) 1 start) := by
  have positive : 1 ≤ last.toInt := Int64.le_iff_toInt_le.mp first
  have ordered := Int64.le_iff_toInt_le.mp within
  refine ⟨(config.maxRetries + 1).toInt.toNat - last.toInt.toNat, ?_⟩
  rw [← attemptLoop_failures codec event (last.toInt.toNat - 1) _ start _ within failed]
  · congr 1
    omega
  · show last.toInt = 1 + _
    omega

/-- What the failed attempts before `last` and the call of the processor at `last` add. -/
theorem attempts_summary {last : Int64} (first : 1 ≤ last) (within : last ≤ config.maxRetries + 1)
    (attemptsFit : Fits (config.maxRetries.toInt + 1))
    (positive : 0 < config.retryBackoffSeconds.toInt)
    (backoffsFit :
      Fits (config.maxRetries.toInt * config.retryBackoffSeconds.toInt * second.toInt)) :
    (runProcessor answers event last
        (failedAttempts config answers event (last.toInt.toNat - 1) 1 start)).summary =
      { start.summary with
        processorCalls := start.summary.processorCalls ++ List.replicate last.toInt.toNat event
        sleeps := start.summary.sleeps ++
          backoffs config.retryBackoffSeconds.toInt 1 (last.toInt.toNat - 1)
        eventRetries := start.summary.eventRetries + (last - 1)
        latencyCount := start.summary.latencyCount + last } := by
  have atLeastOne : 1 ≤ last.toInt := Int64.le_iff_toInt_le.mp first
  have bound : (config.maxRetries + 1).toInt = config.maxRetries.toInt + 1 :=
    toInt_add_of_fits attemptsFit
  have ordered := Int64.le_iff_toInt_le.mp within
  have exactly : ∀ earlier : Int64, 1 ≤ earlier → earlier < last →
      (config.retryBackoff earlier).toInt =
        earlier.toInt * config.retryBackoffSeconds.toInt * second.toInt := by
    intro earlier after below
    have least : 1 ≤ earlier.toInt := Int64.le_iff_toInt_le.mp after
    have most := Int64.lt_iff_toInt_lt.mp below
    exact toInt_retryBackoff (by omega) positive (by omega) backoffsFit
  have distance : last.toInt = (1 : Int64).toInt + (last.toInt.toNat - 1 : Nat) := by
    show last.toInt = 1 + _
    omega
  have calls : List.replicate (last.toInt.toNat - 1) event ++ [event] =
      List.replicate last.toInt.toNat event := by
    rw [← List.replicate_succ']
    congr 1
    omega
  have counted : ∀ counter : Int64, counter + (last - 1) + 1 = counter + last := by
    intro counter
    grind
  rw [runProcessor_summary,
    failedAttempts_summary event (last.toInt.toNat - 1) 1 start rfl distance exactly]
  simp only [List.append_assoc, calls, counted]

theorem attemptLoop_success (rounds : Nat) {attempt : Int64} (journal : Journal Payload)
    (within : attempt ≤ config.maxRetries + 1) (answered : answers.processor attempt = none) :
    attemptLoop codec config answers event (rounds + 1) attempt journal =
      let ended := succeed answers event attempt (runProcessor answers event attempt journal)
      (ended.1, some ended.2) := by
  rw [attemptLoop]
  simp only [if_pos within, answered]

theorem attemptLoop_exhausted (rounds : Nat) {error : String} (journal : Journal Payload)
    (answered : answers.processor (config.maxRetries + 1) = some error) :
    attemptLoop codec config answers event (rounds + 1) (config.maxRetries + 1) journal =
      let ended := giveUp codec answers event (config.maxRetries + 1) error
        (runProcessor answers event (config.maxRetries + 1) journal)
      (ended.1, some ended.2) := by
  rw [attemptLoop]
  simp only [if_pos (Int64.le_refl _), answered, if_true]

/-- The loop is left by a `return` as long as the last attempt is still ahead. -/
theorem attemptLoop_returns (rounds : Nat) {attempt : Int64} (journal : Journal Payload)
    (distance : (config.maxRetries + 1).toInt = attempt.toInt + rounds) :
    (attemptLoop codec config answers event (rounds + 1) attempt journal).2 ≠ none := by
  induction rounds generalizing attempt journal with
  | zero =>
      have last : config.maxRetries + 1 = attempt := Int64.toInt_inj.mp (by simpa using distance)
      rw [← last]
      cases answered : answers.processor (config.maxRetries + 1) with
      | none =>
          rw [attemptLoop_success 0 journal (Int64.le_refl _) answered]
          exact Option.some_ne_none _
      | some error =>
          rw [attemptLoop_exhausted 0 journal answered]
          exact Option.some_ne_none _
  | succ rounds inductionHypothesis =>
      have below : attempt < config.maxRetries + 1 := Int64.lt_iff_toInt_lt.mpr (by omega)
      have next := toInt_succ_of_lt (Int64.lt_iff_toInt_lt.mp below)
      have inside := Int64.le_of_lt below
      cases answered : answers.processor attempt with
      | none =>
          rw [attemptLoop_success (rounds + 1) journal inside answered]
          exact Option.some_ne_none _
      | some error =>
          have notLast : attempt ≠ config.maxRetries + 1 := by
            rintro rfl
            exact Int64.lt_irrefl below
          rw [attemptLoop]
          simp only [if_pos inside, answered, if_neg notLast]
          apply inductionHypothesis
          omega

/-- A loop that is entered calls the processor. -/
theorem attemptLoop_calls (rounds : Nat) (attempt : Int64) (journal : Journal Payload) :
    ∃ calls,
      (attemptLoop codec config answers event rounds attempt journal).1.summary.processorCalls =
        journal.summary.processorCalls ++ List.replicate calls event ∧
      (0 < rounds → attempt ≤ config.maxRetries + 1 → 0 < calls) := by
  induction rounds generalizing attempt journal with
  | zero =>
      refine ⟨0, (List.append_nil _).symm, ?_⟩
      intro positive
      omega
  | succ rounds inductionHypothesis =>
      rw [attemptLoop]
      by_cases inside : attempt ≤ config.maxRetries + 1
      · simp only [if_pos inside]
        cases answers.processor attempt with
        | none =>
            refine ⟨1, ?_, fun _ _ => Nat.one_pos⟩
            simp only [succeed_summary, runProcessor_summary]
            rfl
        | some error =>
            by_cases last : attempt = config.maxRetries + 1
            · refine ⟨1, ?_, fun _ _ => Nat.one_pos⟩
              simp only [if_pos last, giveUp_summary, runProcessor_summary]
              rfl
            · obtain ⟨calls, later, _⟩ := inductionHypothesis (attempt + 1)
                (retryLater config attempt (runProcessor answers event attempt journal))
              refine ⟨calls + 1, ?_, fun _ _ => Nat.succ_pos calls⟩
              simp only [if_neg last, later, retryLater_summary, runProcessor_summary,
                List.append_assoc, List.singleton_append, List.replicate_succ]
      · refine ⟨0, ?_, fun _ entered => absurd entered inside⟩
        simp only [if_neg inside, List.replicate_zero, List.append_nil]

/-- `processEventWithRetry` for every sequence of processor outcomes: it stops at the first success,
or gives up after the last attempt, and it never runs off the end of the loop. -/
theorem processEventWithRetry_summary (nonneg : 0 ≤ config.maxRetries)
    (positive : 0 < config.retryBackoffSeconds) (attemptsFit : Fits (config.maxRetries.toInt + 1))
    (backoffsFit :
      Fits (config.maxRetries.toInt * config.retryBackoffSeconds.toInt * second.toInt)) :
    (∀ attempts, 1 ≤ attempts → attempts ≤ config.maxRetries + 1 →
      (∀ earlier, 1 ≤ earlier → earlier < attempts → answers.processor earlier ≠ none) →
      answers.processor attempts = none →
        (processEventWithRetry codec config answers event start).1.summary =
            start.summary.afterSuccess event config.retryBackoffSeconds.toInt attempts ∧
          (processEventWithRetry codec config answers event start).2 =
            (true, decide (answers.markProcessed.outcome = .ok))) ∧
      (∀ error,
        (∀ earlier, 1 ≤ earlier → earlier < config.maxRetries + 1 →
          answers.processor earlier ≠ none) →
        answers.processor (config.maxRetries + 1) = some error →
          (processEventWithRetry codec config answers event start).1.summary =
              start.summary.afterFailure event config.retryBackoffSeconds.toInt
                (config.maxRetries + 1) error (answers.Added codec event) ∧
            (processEventWithRetry codec config answers event start).2 =
              (false, decide (answers.Added codec event ∧ answers.markFailed.outcome = .ok))) ∧
      (attemptLoop codec config answers event (config.maxRetries + 1).toInt.toNat 1 start).2 ≠
        none := by
  have backoffPositive : 0 < config.retryBackoffSeconds.toInt := Int64.lt_iff_toInt_lt.mp positive
  have retries : 0 ≤ config.maxRetries.toInt := Int64.le_iff_toInt_le.mp nonneg
  have bound : (config.maxRetries + 1).toInt = config.maxRetries.toInt + 1 :=
    toInt_add_of_fits attemptsFit
  have atLeastOne : 1 ≤ config.maxRetries + 1 := by
    apply Int64.le_iff_toInt_le.mpr
    show 1 ≤ (config.maxRetries + 1).toInt
    omega
  refine ⟨?_, ?_, ?_⟩
  · intro attempts first within failed answered
    obtain ⟨rounds, cut⟩ := attemptLoop_eq first within failed
    rw [attemptLoop_success rounds _ within answered] at cut
    rw [processEventWithRetry, cut]
    constructor
    · rw [succeed_summary, attempts_summary first within attemptsFit backoffPositive backoffsFit]
      rfl
    · rfl
  · intro error failed answered
    have within := Int64.le_refl (config.maxRetries + 1)
    obtain ⟨rounds, cut⟩ := attemptLoop_eq atLeastOne within failed
    rw [attemptLoop_exhausted rounds _ answered] at cut
    rw [processEventWithRetry, cut]
    constructor
    · rw [giveUp_summary,
        attempts_summary atLeastOne within attemptsFit backoffPositive backoffsFit]
      rfl
    · exact giveUp_result codec answers event _ _ error
  · have rounds : (config.maxRetries + 1).toInt.toNat = config.maxRetries.toInt.toNat + 1 := by
      omega
    rw [rounds]
    apply attemptLoop_returns
    show (config.maxRetries + 1).toInt = 1 + _
    omega

/-- With the default configuration, a processor that fails once is called twice. -/
theorem processEventWithRetry_of_one_failure :
    let start : Journal String := Journal.start Database.empty Metrics.new
    let answers := Answers.quiet 0 fun attempt => if attempt = 1 then some "failure" else none
    (processEventWithRetry Codec.text (readConfig fun _ => none) answers Sample.event
      start).1.summary = start.summary.afterSuccess Sample.event 1 2 :=
  ((processEventWithRetry_summary (by decide) (by decide) (by decide) (by decide)).1 2 (by decide)
    (by decide)
    (fun earlier first before => by
      have lower : 1 ≤ earlier.toInt := Int64.le_iff_toInt_le.mp first
      have upper : earlier.toInt < 2 := Int64.lt_iff_toInt_lt.mp before
      have one : earlier = 1 := Int64.toInt_inj.mp (by show earlier.toInt = 1; omega)
      rw [one]
      decide)
    (by decide)).1

end Call

end WebhookProcessor
