/-
Module: WebhookProcessor.Proofs.RetryDelay
Layer: Proofs
Purpose: The delay before a failed automatic retry is tried again.  The 24 hour cap of `retryDelay`
  is checked only after a doubling, so the first attempt is not capped, and the product of interval
  and seconds can wrap around before the loop sees it.  For an interval of at most a day the delay
  is the capped exponential backoff with up to a quarter of jitter; for longer ones it is not,
  except where the wrapped product happens to be one day.
Trusted boundary: none
Main exports: backoffBase, DelaysWithin, retry_delay_within_iff
-/
import Mathlib.Algebra.Order.Ring.Int
import Mathlib.Tactic.Linarith
import WebhookProcessor.Machine.Int64
import WebhookProcessor.Proofs.Configuration

namespace WebhookProcessor

open Machine

/-- `min(interval * 2^(attempt - 1), 24h)` in nanoseconds, computed without overflow. -/
def backoffBase (nanoseconds : Int) (attempt : Int64) : Int :=
  min (nanoseconds * 2 ^ (attempt.toInt - 1).toNat) day.toInt

/-- `retryDelay` does not panic and stays within `base` and `base + base/4` for every draw, and the
lower bound never decreases. -/
def DelaysWithin (config : LoadedConfig) : Prop :=
  let base := backoffBase (config.dlqAutoRetryIntervalSeconds.toInt * second.toInt)
  (∀ attempt : Int64, 1 ≤ attempt → ∀ draw, ∃ delay,
      retryDelay config.dlqRetryInterval attempt draw = some delay ∧
        base attempt ≤ delay.toInt ∧ delay.toInt ≤ base attempt + base attempt / 4) ∧
    ∀ attempt later : Int64, 1 ≤ attempt → attempt ≤ later → base attempt ≤ base later

private theorem toInt_day : day.toInt = 86400 * 1000000000 := by decide

theorem backoffBase_mono {nanoseconds : Int} (nonneg : 0 ≤ nanoseconds) {attempt later : Int64}
    (ordered : attempt ≤ later) :
    backoffBase nanoseconds attempt ≤ backoffBase nanoseconds later := by
  have steps : (attempt.toInt - 1).toNat ≤ (later.toInt - 1).toNat := by
    have values := Int64.le_iff_toInt_le.mp ordered
    omega
  have powers : (2 : Int) ^ (attempt.toInt - 1).toNat ≤ 2 ^ (later.toInt - 1).toNat :=
    pow_le_pow_right₀ (by decide) steps
  exact min_le_min_right _ (Int.mul_le_mul_of_nonneg_left powers nonneg)

/-- While the delay is within a day its doublings are exact, and the cap is returned as soon as the
exact product reaches it. -/
theorem doubled_cases (steps : Nat) {delay : Duration} (positive : 0 < delay.toInt)
    (within : delay.toInt ≤ day.toInt) :
    (doubled steps delay = none ∧ day.toInt ≤ delay.toInt * 2 ^ steps) ∨
      ∃ reached, doubled steps delay = some reached ∧
        reached.toInt = delay.toInt * 2 ^ steps ∧ reached.toInt ≤ day.toInt := by
  induction steps generalizing delay with
  | zero => exact Or.inr ⟨delay, rfl, by simp, within⟩
  | succ steps inductionHypothesis =>
      have exact2 : (delay * 2).toInt = delay.toInt * 2 := by
        apply toInt_mul_of_fits
        rw [toInt_day] at within
        change Fits (delay.toInt * 2)
        constructor
        · omega
        · omega
      have power : delay.toInt * 2 ^ (steps + 1) = delay.toInt * 2 * 2 ^ steps := by
        rw [Int.pow_succ, Int.mul_comm (2 ^ steps) 2, Int.mul_assoc]
      rw [doubled]
      by_cases capped : day ≤ delay * 2
      · refine Or.inl ⟨if_pos capped, ?_⟩
        have reaches := Int64.le_iff_toInt_le.mp capped
        have atLeastOne : (1 : Int) ≤ 2 ^ steps := one_le_pow₀ (by decide)
        rw [power]
        rw [exact2] at reaches
        calc day.toInt ≤ delay.toInt * 2 := reaches
          _ = delay.toInt * 2 * 1 := (Int.mul_one _).symm
          _ ≤ delay.toInt * 2 * 2 ^ steps :=
              Int.mul_le_mul_of_nonneg_left atLeastOne (by omega)
      · rw [if_neg capped, power, ← exact2]
        apply inductionHypothesis
        · omega
        · have below : ¬ day.toInt ≤ (delay * 2).toInt := fun reaches =>
            capped (Int64.le_iff_toInt_le.mpr reaches)
          omega

/-- The draws of `rand.Int63n` with a positive bound. -/
theorem int63n_of_positive (draw : Nat) {n : Int64} (positive : 0 < n.toInt) :
    ∃ jitter, int63n draw n = some jitter ∧ jitter.toInt = draw % n.toInt := by
  have notPanics : ¬ n ≤ 0 := fun nonpositive => by
    have value := Int64.le_iff_toInt_le.mp nonpositive
    rw [Int64.toInt_zero] at value
    omega
  refine ⟨_, if_neg notPanics, ?_⟩
  have lower := Int.emod_nonneg (draw : Int) (Int.ne_of_gt positive)
  have upper := Int.emod_lt_of_pos (draw : Int) positive
  have bound := n.toInt_lt
  apply Int64.toInt_ofInt_of_le
  · omega
  · omega

/-- The jitter of a delay within a day: for every draw at most a quarter, and a quarter for some. -/
theorem jitter_of_within {delay : Duration} (positive : 0 < delay.toInt)
    (within : delay.toInt ≤ 2 * day.toInt) (draw : Nat) :
    ∃ answer, (if delay / 4 = 0 then some delay
        else (int63n draw (delay / 4 + 1)).map fun jitter => delay + jitter) = some answer ∧
      answer.toInt = delay.toInt + draw % (delay.toInt / 4 + 1) := by
  rw [toInt_day] at within
  have quarter : (delay / 4).toInt = delay.toInt / 4 :=
    toInt_div_of_nonneg (Int.le_of_lt positive) (by decide)
  by_cases none : delay / 4 = 0
  · have small : delay.toInt / 4 = 0 := by rw [← quarter, none, Int64.toInt_zero]
    refine ⟨delay, if_pos none, ?_⟩
    rw [small]
    omega
  · have limit : (delay / 4 + 1).toInt = delay.toInt / 4 + 1 := by
      rw [← quarter]
      apply toInt_add_of_fits
      change Fits ((delay / 4).toInt + 1)
      constructor
      · omega
      · omega
    obtain ⟨jitter, drawn, value⟩ := int63n_of_positive draw (n := delay / 4 + 1) (by omega)
    refine ⟨delay + jitter, by rw [if_neg none, drawn]; rfl, ?_⟩
    rw [limit] at value
    have lower := Int.emod_nonneg (draw : Int) (show delay.toInt / 4 + 1 ≠ 0 by omega)
    have upper := Int.emod_lt_of_pos (draw : Int) (show 0 < delay.toInt / 4 + 1 by omega)
    rw [← value]
    apply toInt_add_of_fits
    constructor
    · omega
    · omega

/-- With an interval of at most a day the delay is within the backoff. -/
theorem retryDelay_within {interval : Duration} (positive : 0 < interval.toInt)
    (within : interval.toInt ≤ day.toInt) (attempt : Int64) (draw : Nat) :
    ∃ delay, retryDelay interval attempt draw = some delay ∧
      backoffBase interval.toInt attempt ≤ delay.toInt ∧
      delay.toInt ≤
        backoffBase interval.toInt attempt + backoffBase interval.toInt attempt / 4 := by
  unfold retryDelay backoffBase
  rcases doubled_cases (attempt.toInt - 1).toNat positive within with
    ⟨capped, reaches⟩ | ⟨reached, doubles, value, below⟩
  · rw [capped, min_eq_right reaches]
    refine ⟨day, rfl, le_refl _, ?_⟩
    rw [toInt_day]
    decide
  · rw [doubles, ← value, min_eq_left below]
    have atLeast : 0 < reached.toInt := by
      rw [value]
      exact Int.mul_pos positive (pow_pos (by decide) _)
    have dayPositive : 0 ≤ day.toInt := by decide
    obtain ⟨delay, answered, sum⟩ := jitter_of_within atLeast (by omega) draw
    refine ⟨delay, answered, ?_, ?_⟩
    · have lower := Int.emod_nonneg (draw : Int) (show reached.toInt / 4 + 1 ≠ 0 by omega)
      omega
    · have upper := Int.emod_lt_of_pos (draw : Int) (show 0 < reached.toInt / 4 + 1 by omega)
      omega

/-- The first delay of an interval longer than a day is within the backoff for every draw only if
the wrapped interval is exactly one day. -/
theorem interval_eq_day {interval : Duration}
    (within : ∀ draw, ∃ delay, retryDelay interval 1 draw = some delay ∧
      day.toInt ≤ delay.toInt ∧ delay.toInt ≤ day.toInt + day.toInt / 4) :
    interval.toInt = day.toInt := by
  have first : ∀ draw, retryDelay interval 1 draw = if interval / 4 = 0 then some interval
      else (int63n draw (interval / 4 + 1)).map fun jitter => interval + jitter := fun _ => rfl
  simp only [first] at within
  have dayValue := toInt_day
  -- the smallest draw gives the interval itself
  have smallest : day.toInt ≤ interval.toInt ∧ interval.toInt ≤ day.toInt + day.toInt / 4 := by
    obtain ⟨delay, answered, lower, upper⟩ := within 0
    by_cases none : interval / 4 = 0
    · rw [if_pos none] at answered
      cases answered
      exact ⟨lower, upper⟩
    · rw [if_neg none] at answered
      unfold int63n at answered
      split at answered
      · cases answered
      · cases answered
        simpa using And.intro lower upper
  -- and the largest adds a quarter of it
  obtain ⟨delay, answered, lower, upper⟩ := within (interval.toInt / 4).toNat
  have positive : 0 < interval.toInt := by omega
  have bounded : interval.toInt ≤ 2 * day.toInt := by omega
  obtain ⟨answer, again, sum⟩ := jitter_of_within positive bounded (interval.toInt / 4).toNat
  rw [again] at answered
  cases answered
  have full :
      ((interval.toInt / 4).toNat : Int) % (interval.toInt / 4 + 1) = interval.toInt / 4 := by
    rw [Int.toNat_of_nonneg (by omega)]
    exact Int.emod_eq_of_lt (by omega) (by omega)
  omega

/-- A base of at least a day is capped at every attempt. -/
theorem backoffBase_eq_day {nanoseconds : Int} (long : day.toInt ≤ nanoseconds) (attempt : Int64) :
    backoffBase nanoseconds attempt = day.toInt := by
  apply min_eq_right
  have dayPositive : 0 ≤ day.toInt := by decide
  have power : (1 : Int) ≤ 2 ^ (attempt.toInt - 1).toNat := one_le_pow₀ (by decide)
  calc day.toInt ≤ nanoseconds := long
    _ = nanoseconds * 1 := (Int.mul_one _).symm
    _ ≤ nanoseconds * 2 ^ (attempt.toInt - 1).toNat :=
        Int.mul_le_mul_of_nonneg_left power (by omega)

/-- What the loop computes with is within a day and has the right base. -/
theorem delaysWithin_of_interval {config : LoadedConfig}
    (positive : 0 < config.dlqAutoRetryIntervalSeconds.toInt)
    (started : 0 < config.dlqRetryInterval.toInt)
    (within : config.dlqRetryInterval.toInt ≤ day.toInt)
    (same : ∀ attempt, backoffBase config.dlqRetryInterval.toInt attempt =
      backoffBase (config.dlqAutoRetryIntervalSeconds.toInt * second.toInt) attempt) :
    DelaysWithin config := by
  have secondPositive : 0 ≤ second.toInt := by decide
  constructor
  · intro attempt _ draw
    rw [← same]
    exact retryDelay_within started within attempt draw
  · intro attempt later _ ordered
    exact backoffBase_mono (Int.mul_nonneg (Int.le_of_lt positive) secondPositive) ordered

/-- A number of seconds whose nanoseconds wrap around to one day: `10^9` has nine factors of two. -/
private theorem emod_of_wraps_to_day {seconds turns : Int}
    (wraps : seconds * 1000000000 - 18446744073709551616 * turns = 86400 * 1000000000) :
    seconds % 36028797018963968 = 86400 := by
  have divides : (36028797018963968 : Int) ∣ 1953125 * (seconds - 86400) := by
    apply Dvd.intro turns
    linarith only [wraps]
  have coprime : Int.gcd 36028797018963968 1953125 = 1 := by decide
  have congruent : seconds % 36028797018963968 = 86400 % 36028797018963968 := by
    apply Int.emod_eq_emod_iff_emod_sub_eq_zero.mpr
    exact Int.emod_eq_zero_of_dvd (Int.dvd_of_dvd_mul_right_of_gcd_one divides coprime)
  exact congruent

/-- The automatic retry delay is the capped exponential backoff exactly for intervals of at most a
day, and for those that wrap around to one day. -/
theorem retry_delay_within_iff {parse : String → Option Url} {environment : Environment}
    {config : LoadedConfig} (loaded : loadConfig parse environment = .ok config) :
    DelaysWithin config ↔ config.dlqAutoRetryIntervalSeconds.toInt ≤ 86400 ∨
      config.dlqAutoRetryIntervalSeconds.toInt % 2 ^ 55 = 86400 := by
  have positive : 0 < config.dlqAutoRetryIntervalSeconds.toInt :=
    Int64.lt_iff_toInt_lt.mp (admitted_of_loadConfig loaded).dlqAutoRetryIntervalSeconds
  have dayValue := toInt_day
  have product : config.dlqAutoRetryIntervalSeconds.toInt * second.toInt =
      config.dlqAutoRetryIntervalSeconds.toInt * 1000000000 := by rw [toInt_second]
  have wrapped : config.dlqRetryInterval.toInt =
      (config.dlqAutoRetryIntervalSeconds.toInt * 1000000000).bmod (2 ^ 64) := by
    rw [LoadedConfig.dlqRetryInterval, Int64.toInt_mul, toInt_second]
  constructor
  · rintro ⟨within, _⟩
    by_cases short : config.dlqAutoRetryIntervalSeconds.toInt ≤ 86400
    · exact Or.inl short
    · refine Or.inr ?_
      have capped : backoffBase (config.dlqAutoRetryIntervalSeconds.toInt * second.toInt) 1 =
          day.toInt := backoffBase_eq_day (by omega) 1
      have exactly := interval_eq_day fun draw => by
        simpa only [capped] using within 1 (by decide) draw
      rw [wrapped, Int.bmod_eq_self_sub_mul_bdiv, dayValue] at exactly
      apply emod_of_wraps_to_day
      exact exactly
  · rintro (short | congruent)
    · have value : config.dlqRetryInterval.toInt =
          config.dlqAutoRetryIntervalSeconds.toInt * second.toInt := by
        rw [wrapped, product]
        apply bmod_of_fits
        constructor
        · omega
        · omega
      apply delaysWithin_of_interval positive
      · omega
      · omega
      · intro attempt
        rw [value]
    · have value : config.dlqRetryInterval.toInt = day.toInt := by
        have shifted : config.dlqAutoRetryIntervalSeconds.toInt * 1000000000 = day.toInt +
            (2 ^ 64 : Nat) * (1953125 * (config.dlqAutoRetryIntervalSeconds.toInt / 2 ^ 55)) := by
          omega
        rw [wrapped, shifted, Int.add_mul_bmod_self_left]
        decide
      apply delaysWithin_of_interval positive
      · omega
      · omega
      · intro attempt
        rw [value, backoffBase_eq_day (le_refl _), backoffBase_eq_day (by omega)]

theorem retry_delay_within_of_defaults :
    ∃ config, loadConfig parseDefaultUrls (fun _ => none) = .ok config ∧ DelaysWithin config := by
  refine ⟨readConfig fun _ => none, rfl, ?_⟩
  apply (retry_delay_within_iff (show loadConfig parseDefaultUrls (fun _ => none) = _ from rfl)).mpr
  exact Or.inl (by decide)

/-- An interval of two days is admitted, and the first retry waits two days. -/
theorem retry_delay_of_two_days :
    ∃ config, loadConfig parseDefaultUrls
        (fun key => if key = "DLQ_AUTO_RETRY_INTERVAL_SECONDS" then some "172800" else none) =
          .ok config ∧
      retryDelay config.dlqRetryInterval 1 0 = some (2 * day) ∧ ¬ DelaysWithin config := by
  refine ⟨_, rfl, by decide +kernel, ?_⟩
  rintro ⟨within, _⟩
  obtain ⟨delay, answered, _, upper⟩ := within 1 (by decide) 0
  have first : some (2 * day) = some delay := Eq.trans (by decide +kernel) answered
  cases first
  revert upper
  decide +kernel

end WebhookProcessor
