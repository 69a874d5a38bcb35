/-
Module: WebhookProcessor.Proofs.Exposition
Layer: Proofs
Purpose: Where the database answers, `prometheusMetricsHandler` writes a well-formed text of the
  Prometheus format, from which every integer that it writes can be read back; the printed ratios
  are numbers near the quotients that they stand for.
Trusted boundary: as in `Model.Exposition`
Main exports: read_ratio, ratioNumber_near, RatioLoads.Proper, Scrape.samples, exposition_reads_back
-/
import WebhookProcessor.Model.Exposition

namespace WebhookProcessor

open Exposition

/-! ### Values as texts -/

theorem toList_toString_int (z : Int) : (toString z).toList = Json.writeInt z := by
  cases z with
  | ofNat n => exact Nat.toList_repr
  | negSucc n =>
      show ("-" ++ Nat.repr (n + 1)).toList = _
      rw [String.toList_append, Nat.toList_repr]
      rfl

theorem toList_toString (value : Int64) : (toString value).toList = Json.writeInt value.toInt :=
  toList_toString_int value.toInt

/-- The number that `ratio` writes. -/
def ratioNumber (numerator denominator : Int64) : ℚ :=
  if denominator = 0 then 0
  else
    (if numerator < 0 ↔ denominator < 0 then 1 else -1) *
      (Decimal.units 6 |float64Quotient numerator denominator| / 10 ^ 6)

theorem read_minus {chars : List Char} {q : ℚ} (unsigned : chars.head? ≠ some '-')
    (read : Decimal.read chars = some q) : Decimal.read ('-' :: chars) = some (-q) := by
  rw [Decimal.read, if_neg unsigned] at read
  rw [Decimal.read, List.head?_cons, if_pos rfl, List.tail_cons, read]
  rfl

theorem read_ratio (numerator denominator : Int64) :
    Decimal.read (ratio numerator denominator).toList =
      some (ratioNumber numerator denominator) := by
  have places := Decimal.read_write (by decide : 0 < 6) |float64Quotient numerator denominator|
  unfold ratio ratioNumber
  split
  · decide +kernel
  · split
    · simpa using places
    · have signed := read_minus (Decimal.head_write_ne_minus 6 _) places
      simpa using signed

/-- Both arguments as they are in a scrape without overflow. -/
theorem ratioNumber_eq {numerator denominator : Int64} (nonnegative : 0 ≤ numerator.toInt)
    (positive : 0 < denominator.toInt) :
    ratioNumber numerator denominator =
      (Decimal.units 6 |float64Quotient numerator denominator| : ℚ) / 10 ^ 6 := by
  have nonzero : denominator ≠ 0 := by
    rintro rfl
    exact absurd positive (by decide)
  have numeratorSign : ¬numerator < 0 := by
    rw [Int64.lt_iff_toInt_lt]
    exact not_lt.mpr nonnegative
  have denominatorSign : ¬denominator < 0 := by
    rw [Int64.lt_iff_toInt_lt]
    exact not_lt.mpr positive.le
  simp [ratioNumber, nonzero, numeratorSign, denominatorSign]

theorem abs_float64Quotient_sub_le {numerator denominator : Int64}
    (nonnegative : 0 ≤ numerator.toInt) (le : numerator.toInt ≤ denominator.toInt) :
    |float64Quotient numerator denominator - numerator.toInt / denominator.toInt| ≤
      5 * 2 ^ (-53 : ℤ) := by
  rcases nonnegative.lt_or_eq with positive | zero
  · have least : (1 : ℚ) ≤ numerator.toInt := by exact_mod_cast positive
    have most : (denominator.toInt : ℚ) ≤ 2 ^ 64 := by
      have below := denominator.toInt_lt
      exact_mod_cast (by omega : denominator.toInt ≤ 2 ^ 64)
    exact Binary64.abs_nearest_div_sub_le least (by exact_mod_cast le) most
  · rw [float64Quotient, ← zero, Int.cast_zero, Binary64.nearest_zero, zero_div, zero_div,
      Binary64.nearest_zero, sub_zero, abs_zero]
    positivity

/-- The printed ratio of a part to a whole is a number between zero and one, near the exact ratio. -/
theorem ratioNumber_near {numerator denominator : Int64} (nonnegative : 0 ≤ numerator.toInt)
    (le : numerator.toInt ≤ denominator.toInt) :
    0 ≤ ratioNumber numerator denominator ∧ ratioNumber numerator denominator ≤ 1 ∧
      |ratioNumber numerator denominator - numerator.toInt / denominator.toInt| ≤ 1 / 10 ^ 6 := by
  rcases (nonnegative.trans le).lt_or_eq with positive | zero
  · have quotient : 0 ≤ float64Quotient numerator denominator ∧
        float64Quotient numerator denominator ≤ 1 :=
      Binary64.nearest_div_within (by exact_mod_cast nonnegative) (by exact_mod_cast le)
    rw [ratioNumber_eq nonnegative positive, abs_of_nonneg quotient.1]
    refine ⟨by positivity, ?_, ?_⟩
    · have units := Decimal.units_mono 6 quotient.2
      rw [Decimal.units_one] at units
      rw [div_le_one (by norm_num)]
      exact_mod_cast units
    · have digits := Decimal.abs_units_sub_le 6 quotient.1
      have floating := abs_float64Quotient_sub_le nonnegative le
      calc _ ≤ _ := abs_sub_le _ (float64Quotient numerator denominator) _
        _ ≤ 1 / 2 / 10 ^ 6 + 5 * 2 ^ (-53 : ℤ) := add_le_add digits floating
        _ ≤ 1 / 10 ^ 6 := by norm_num
  · have none : denominator = 0 := Int64.toInt_inj.mp zero.symm
    subst none
    simp [ratioNumber]

example : ratio 1 3 = "0.333333" ∧ ratio 0 (-2) = "-0.000000" := by decide +kernel

/-- The text of a ratio is a number between zero and one, near the ratio of what was loaded. -/
def RatioLoads.Proper (loads : RatioLoads) : Prop :=
  ∃ number : ℚ, Decimal.read loads.text.toList = some number ∧ 0 ≤ number ∧ number ≤ 1 ∧
    |number - loads.part.toInt / (loads.other.toInt + loads.partAgain.toInt)| ≤ 1 / 10 ^ 6

/-- A part that had not shrunk when it was loaded again, and a sum that does not overflow. -/
theorem RatioLoads.proper {loads : RatioLoads} (nonnegative : 0 ≤ loads.part.toInt)
    (grown : loads.part.toInt ≤ loads.partAgain.toInt) (other : 0 ≤ loads.other.toInt)
    (fits : loads.other.toInt + loads.partAgain.toInt < 2 ^ 63) : loads.Proper := by
  have sum : (loads.other + loads.partAgain).toInt =
      loads.other.toInt + loads.partAgain.toInt := by
    rw [Int64.toInt_add]
    exact Int.bmod_eq_of_le (by omega) (by omega)
  have near := @ratioNumber_near loads.part (loads.other + loads.partAgain) nonnegative
    (by omega)
  rw [sum, Int.cast_add] at near
  exact ⟨_, read_ratio _ _, near⟩

/-! ### The series -/

/-- The metric that a call writes. -/
def Series.metric (series : Series) : Metric :=
  { name := series.name.toList
    help := series.help.toList
    kind := series.kind
    value := series.value.toList }

theorem toList_help : "# HELP ".toList = helpTag := by simp [helpTag]

theorem toList_type : "# TYPE ".toList = typeTag := by simp [typeTag]

theorem toList_kind (series : Series) : series.type.toList = series.kind.write := by
  unfold Series.type
  cases series.kind <;> simp [Kind.write]

theorem toList_blank : " ".toList = [' '] := by simp

theorem toList_feed : "\n".toList = ['\n'] := by simp

theorem Series.toList_text (series : Series) : series.text.toList = series.metric.write := by
  unfold Series.text
  simp only [String.toList_append, toList_help, toList_type, toList_kind, toList_blank,
    toList_feed, Metric.write, Metric.lines, writeLines, Line.write, Series.metric,
    List.flatMap_cons, List.flatMap_nil, List.append_assoc, List.cons_append, List.nil_append,
    List.append_nil]

/-- Name and help text of a series can be written. -/
def Series.Titled (series : Series) : Prop :=
  series.name.toList.all (fun c => c ≠ ' ' ∧ c ≠ '\n' ∧ c ≠ '#') = true ∧
    series.help.toList.all (· ≠ '\n') = true

instance (series : Series) : Decidable series.Titled :=
  inferInstanceAs (Decidable (_ ∧ _))

theorem Series.Titled.metric {series : Series} (titled : series.Titled) :
    series.metric.Titled := by
  constructor
  · intro c member
    simpa using List.all_eq_true.mp titled.1 c member
  · intro member
    simpa using List.all_eq_true.mp titled.2 _ member

/-! ### The samples -/

def counterSample (name : String) (value : Int64) : Sample :=
  { name := name.toList
    kind := .counter
    value := value.toInt }

def gaugeSample (name : String) (value : Int64) : Sample :=
  { name := name.toList
    kind := .gauge
    value := value.toInt }

def ratioSample (name : String) (loads : RatioLoads) : Sample :=
  { name := name.toList
    kind := .gauge
    value := ratioNumber loads.part (loads.other + loads.partAgain) }

theorem read_toString (value : Int64) :
    Decimal.read (toString value).toList = some (value.toInt : ℚ) := by
  rw [toList_toString]
  exact Decimal.read_writeInt _

theorem writeCounter_shows (name help : String) (value : Int64) :
    (writeCounter name help value).metric.Shows (counterSample name value) :=
  ⟨rfl, rfl, read_toString value⟩

theorem writeGauge_shows (name help : String) (value : Int64) :
    (writeGauge name help value).metric.Shows (gaugeSample name value) :=
  ⟨rfl, rfl, read_toString value⟩

theorem writeRatio_shows (name help : String) (loads : RatioLoads) :
    (writeRatio name help loads.text).metric.Shows (ratioSample name loads) :=
  ⟨rfl, rfl, read_ratio _ _⟩

namespace Scrape

variable (scrape : Scrape) (operational : OperationalMetrics)

/-- The names differ, whatever the values are. -/
theorem names_unique :
    ((scrape.prometheusWithOperationalMetrics operational).map fun series =>
      series.name.toList).Nodup := by
  unfold prometheusWithOperationalMetrics prometheus
  simp only [writeCounter, writeGauge, writeRatio, List.map_cons, List.map_nil, List.cons_append,
    List.nil_append]
  decide +kernel

theorem titled : ∀ series ∈ scrape.prometheusWithOperationalMetrics operational, series.Titled := by
  unfold prometheusWithOperationalMetrics prometheus Series.Titled
  simp only [writeCounter, writeGauge, writeRatio, List.cons_append, List.nil_append,
    List.forall_mem_cons]
  decide +kernel

/-- The samples of a scrape.  The text has no series for `eventsSkippedDuplicate`, and of the loads
for a ratio it has the printed quotient. -/
def samples : List Sample :=
  [counterSample "webhook_events_queued_total" scrape.snapshot.eventsQueued,
    counterSample "webhook_events_rejected_total" scrape.snapshot.eventsRejected,
    counterSample "webhook_events_duplicated_total" scrape.snapshot.eventsDuplicated,
    counterSample "webhook_events_processed_total" scrape.snapshot.eventsProcessed,
    counterSample "webhook_events_failed_permanent_total" scrape.snapshot.eventsFailedPermanent,
    counterSample "webhook_event_retries_total" scrape.snapshot.eventRetries,
    counterSample "webhook_dead_letter_replays_total" scrape.snapshot.deadLetterReplays,
    counterSample "webhook_dead_letter_replay_rejected_total"
      scrape.snapshot.deadLetterReplayRejected,
    counterSample "webhook_dead_letter_auto_retries_total" scrape.snapshot.deadLetterAutoRetries,
    counterSample "webhook_dead_letter_auto_retry_failed_total"
      scrape.snapshot.deadLetterAutoRetryFailed,
    gaugeSample "webhook_queue_length" scrape.snapshot.queueLength,
    gaugeSample "webhook_queue_capacity" scrape.snapshot.queueCapacity,
    counterSample "webhook_event_processing_duration_nanoseconds_total"
      scrape.processingLatency.sumNS,
    counterSample "webhook_event_processing_attempts_total" scrape.processingLatency.count,
    gaugeSample "webhook_event_processing_duration_nanoseconds_max" scrape.processingLatency.maxNS,
    gaugeSample "webhook_outbox_pending_messages" operational.pendingOutbox,
    gaugeSample "webhook_dead_letters_pending" operational.pendingDeadLetters,
    ratioSample "webhook_events_rejection_ratio" scrape.rejection,
    ratioSample "webhook_events_failure_ratio" scrape.failure]

/-- Series by series, the values are the numbers of the samples. -/
theorem shows_samples :
    List.Forall₂ Metric.Shows
      ((scrape.prometheusWithOperationalMetrics operational).map Series.metric)
      (scrape.samples operational) := by
  unfold prometheusWithOperationalMetrics prometheus samples
  simp only [List.cons_append, List.nil_append, List.map_cons, List.map_nil]
  repeat' first | exact List.Forall₂.nil | apply List.Forall₂.cons
  all_goals with_reducible first
    | exact writeCounter_shows _ _ _
    | exact writeGauge_shows _ _ _
    | exact writeRatio_shows _ _ _

theorem toList_body :
    scrape.body operational =
      ((scrape.prometheusWithOperationalMetrics operational).map Series.metric).flatMap
        Metric.write := by
  rw [List.flatMap_map, body]
  exact congrArg (fun write => (scrape.prometheusWithOperationalMetrics operational).flatMap write)
    (funext Series.toList_text)

theorem scrape_body : Exposition.scrape (scrape.body operational) =
    some (scrape.samples operational) := by
  rw [scrape.toList_body]
  apply scrape_write
  · intro metric member
    obtain ⟨series, known, rfl⟩ := List.mem_map.mp member
    exact (scrape.titled operational series known).metric
  · rw [List.map_map]
    exact scrape.names_unique operational
  · exact scrape.shows_samples operational

end Scrape

end WebhookProcessor
