/-
Module: WebhookProcessor.Numeric.Rounding
Layer: Numeric
Purpose: Rounding to binary64 keeps the order of numbers and is off by at most one part in `2^53`.
Trusted boundary: none
Main exports: nearestInt_mono, nearest_mono, abs_nearestInt_sub_le, abs_nearest_sub_le, nearest_neg,
  nearest_monotone
-/
import Mathlib.Tactic.GCongr
import Mathlib.Tactic.Positivity
import WebhookProcessor.Numeric.Binary64

namespace Binary64

/-! ### Rounding keeps the order -/

theorem nearestInt_mono {p q : ℚ} (le : p ≤ q) : nearestInt p ≤ nearestInt q := by
  rcases (Int.floor_mono le).lt_or_eq with floors | floors
  · calc nearestInt p ≤ ⌈p⌉ := nearestInt_le_ceil p
      _ ≤ ⌊p⌋ + 1 := Int.ceil_le_floor_add_one p
      _ ≤ ⌊q⌋ := floors
      _ ≤ nearestInt q := floor_le_nearestInt q
  · by_cases tie : Int.fract p = 1 / 2 ∧ Even ⌊p⌋
    · rw [nearestInt, if_pos tie, floors]
      exact floor_le_nearestInt q
    · rw [nearestInt, if_neg tie, nearestInt]
      split
      · rename_i tieAbove
        -- `p` lies in the same unit interval as the tie `q`, and below it.
        have half : p < ⌊q⌋ + 1 / 2 := by
          have value : q = ⌊q⌋ + 1 / 2 := by
            rw [← tieAbove.1, Int.floor_add_fract]
          apply lt_of_le_of_ne (value ▸ le)
          intro same
          apply tie
          rw [floors]
          refine ⟨?_, tieAbove.2⟩
          rw [← Int.self_sub_floor, floors, same]
          ring
        rw [round_eq]
        apply Int.lt_add_one_iff.mp
        apply Int.floor_lt.mpr
        push_cast
        linarith
      · rw [round_eq, round_eq]
        apply Int.floor_mono
        linarith

theorem quantum_mono {p q : ℚ} (positive : 0 < p) (le : p ≤ q) : quantum p ≤ quantum q := by
  have logs : Int.log 2 |p| ≤ Int.log 2 |q| := by
    apply Int.log_mono_right (abs_pos.mpr positive.ne')
    rwa [abs_of_pos positive, abs_of_pos (positive.trans_le le)]
  unfold quantum
  omega

theorem nearest_zero : nearest 0 = 0 := by
  simp [nearest, nearestInt]

theorem nearest_nonneg {q : ℚ} (nonnegative : 0 ≤ q) : 0 ≤ nearest q := by
  have scale : (0 : ℚ) < 2 ^ quantum q := zpow_pos (by norm_num) _
  apply mul_nonneg _ scale.le
  have least := nearestInt_mono (div_nonneg nonnegative scale.le)
  have zero := nearestInt_intCast 0
  rw [Int.cast_zero] at zero
  rw [zero] at least
  exact_mod_cast least

/-- A number above the binade of another one is rounded above it: the power of two between them is
representable. -/
theorem nearest_le_nearest_of_quantum_lt {p q : ℚ} (nonnegative : 0 < q)
    (lt : quantum p < quantum q) : nearest p ≤ nearest q := by
  have scale : (0 : ℚ) < 2 ^ quantum q := zpow_pos (by norm_num) _
  have scaleBelow : (0 : ℚ) < 2 ^ quantum p := zpow_pos (by norm_num) _
  have normal : quantum q = Int.log 2 |q| - 52 := by
    have least : -1074 ≤ quantum p := le_max_left _ _
    unfold quantum at lt least ⊢
    omega
  have upper : (nearestInt (p / 2 ^ quantum p) : ℚ) ≤ 2 ^ (53 : ℤ) := by
    have bounded := (abs_le.mp (abs_nearestInt_le (abs_div_quantum_le p))).2
    exact_mod_cast bounded
  have lower : (2 : ℚ) ^ (52 : ℤ) ≤ nearestInt (q / 2 ^ quantum q) := by
    have above : ((2 ^ 52 : ℤ) : ℚ) ≤ q / 2 ^ quantum q := by
      rw [le_div_iff₀ scale]
      have power := Int.zpow_log_le_self (b := 2) (by norm_num) (abs_pos.mpr nonnegative.ne')
      rw [abs_of_pos nonnegative] at power normal
      calc ((2 ^ 52 : ℤ) : ℚ) * 2 ^ quantum q = 2 ^ (52 : ℤ) * 2 ^ quantum q := by norm_num
        _ = 2 ^ Int.log 2 q := by
          rw [← zpow_add₀ (by norm_num), normal, add_sub_cancel]
        _ ≤ q := by exact_mod_cast power
    have rounded := nearestInt_mono above
    rw [nearestInt_intCast] at rounded
    exact_mod_cast rounded
  calc nearest p ≤ 2 ^ (53 : ℤ) * 2 ^ quantum p := mul_le_mul_of_nonneg_right upper scaleBelow.le
    _ = 2 ^ (53 + quantum p) := by rw [zpow_add₀ (by norm_num)]
    _ ≤ 2 ^ (52 + quantum q) := zpow_le_zpow_right₀ (by norm_num) (by omega)
    _ = 2 ^ (52 : ℤ) * 2 ^ quantum q := by rw [zpow_add₀ (by norm_num)]
    _ ≤ nearest q := mul_le_mul_of_nonneg_right lower scale.le

theorem nearest_mono {p q : ℚ} (nonnegative : 0 ≤ p) (le : p ≤ q) : nearest p ≤ nearest q := by
  rcases nonnegative.lt_or_eq with positive | rfl
  · rcases (quantum_mono positive le).lt_or_eq with lower | same
    · exact nearest_le_nearest_of_quantum_lt (positive.trans_le le) lower
    · have scale : (0 : ℚ) < 2 ^ quantum q := zpow_pos (by norm_num) _
      unfold nearest
      rw [same]
      apply mul_le_mul_of_nonneg_right _ scale.le
      have divided : p / 2 ^ quantum q ≤ q / 2 ^ quantum q := by gcongr
      exact_mod_cast nearestInt_mono divided
  · rw [nearest_zero]
    exact nearest_nonneg le

/-! ### The error of rounding -/

theorem abs_nearestInt_sub_le (q : ℚ) : |nearestInt q - q| ≤ 1 / 2 := by
  unfold nearestInt
  split
  · rename_i tie
    rw [abs_sub_comm, Int.self_sub_floor, tie.1]
    norm_num
  · rw [abs_sub_comm]
    exact abs_sub_round q

/-- A number is off by at most half a unit of its last bit. -/
theorem abs_nearest_sub_le_quantum (q : ℚ) : |nearest q - q| ≤ 1 / 2 * 2 ^ quantum q := by
  have scale : (0 : ℚ) < 2 ^ quantum q := zpow_pos (by norm_num) _
  calc |nearest q - q| = |nearestInt (q / 2 ^ quantum q) - q / 2 ^ quantum q| * 2 ^ quantum q := by
        rw [← abs_of_pos scale, ← abs_mul, abs_of_pos scale, sub_mul, div_mul_cancel₀ _ scale.ne']
        rfl
    _ ≤ 1 / 2 * 2 ^ quantum q := by
        apply mul_le_mul_of_nonneg_right _ scale.le
        exact abs_nearestInt_sub_le _

/-- A number that is not subnormal is rounded by at most one part in `2^53`. -/
theorem abs_nearest_sub_le {q : ℚ} (normal : (2 : ℚ) ^ (-1022 : ℤ) ≤ q) :
    |nearest q - q| ≤ q * 2 ^ (-53 : ℤ) := by
  have positive : 0 < q := lt_of_lt_of_le (zpow_pos (by norm_num) _) normal
  have magnitude : quantum q = Int.log 2 q - 52 := by
    have least : -1022 ≤ Int.log 2 q :=
      (Int.zpow_le_iff_le_log (by norm_num) positive).mp (by exact_mod_cast normal)
    rw [quantum, abs_of_pos positive]
    omega
  have power : (2 : ℚ) ^ Int.log 2 q ≤ q := by
    exact_mod_cast Int.zpow_log_le_self (b := 2) (by norm_num) positive
  calc |nearest q - q| ≤ 1 / 2 * 2 ^ quantum q := abs_nearest_sub_le_quantum q
    _ = 2 ^ Int.log 2 q * 2 ^ (-53 : ℤ) := by
        rw [magnitude, ← zpow_add₀ (by norm_num), sub_eq_add_neg, zpow_add₀ (by norm_num),
          zpow_add₀ (by norm_num)]
        norm_num
        ring
    _ ≤ q * 2 ^ (-53 : ℤ) := by
        apply mul_le_mul_of_nonneg_right power
        positivity

/-! ### Rounding and signs -/

theorem nearestInt_eq_of_abs_lt {q : ℚ} {z : ℤ} (close : |z - q| < 1 / 2) : nearestInt q = z := by
  have apart : |((nearestInt q - z : ℤ) : ℚ)| < 1 := by
    push_cast
    calc |(nearestInt q : ℚ) - z| = |(nearestInt q - q) - (z - q)| := by ring_nf
      _ ≤ |nearestInt q - q| + |z - q| := abs_sub _ _
      _ < 1 := by linarith [abs_nearestInt_sub_le q]
  have whole : |nearestInt q - z| < 1 := by exact_mod_cast apart
  exact sub_eq_zero.mp (Int.abs_lt_one_iff.mp whole)

theorem nearestInt_neg (q : ℚ) : nearestInt (-q) = -nearestInt q := by
  by_cases tie : Int.fract q = 1 / 2
  · -- the two integers around a tie change places, and with them the even one
    have value : q = ⌊q⌋ + 1 / 2 := by rw [← tie, Int.floor_add_fract]
    have floorNeg : ⌊-q⌋ = -⌊q⌋ - 1 := by
      rw [Int.floor_eq_iff]
      push_cast
      exact ⟨by linarith, by linarith⟩
    have fractNeg : Int.fract (-q) = 1 / 2 := by
      rw [← Int.self_sub_floor, floorNeg]
      push_cast
      linarith
    have roundUp : ∀ r : ℚ, Int.fract r = 1 / 2 → round r = ⌊r⌋ + 1 := by
      intro r half
      have split : r = ⌊r⌋ + 1 / 2 := by rw [← half, Int.floor_add_fract]
      rw [round_eq_iff]
      push_cast
      exact ⟨by linarith, by linarith⟩
    by_cases even : Even ⌊q⌋
    · have odd : ¬ Even ⌊-q⌋ := by
        rw [floorNeg]
        grind
      rw [nearestInt, if_neg fun both => odd both.2, nearestInt, if_pos ⟨tie, even⟩,
        roundUp _ fractNeg, floorNeg]
      ring
    · have evenNeg : Even ⌊-q⌋ := by
        rw [floorNeg]
        grind
      rw [nearestInt, if_pos ⟨fractNeg, evenNeg⟩, nearestInt, if_neg fun both => even both.2,
        roundUp _ tie, floorNeg]
      ring
  · apply nearestInt_eq_of_abs_lt
    have strict : |nearestInt q - q| < 1 / 2 := by
      rw [nearestInt, if_neg fun both => tie both.1, abs_sub_comm, abs_sub_round_eq_min,
        min_lt_iff]
      rcases lt_or_gt_of_ne tie with below | above
      · exact .inl below
      · exact .inr (by linarith)
    push_cast
    rw [← abs_neg]
    calc |-(-(nearestInt q : ℚ) - -q)| = |nearestInt q - q| := by ring_nf
      _ < 1 / 2 := strict

theorem nearest_neg (q : ℚ) : nearest (-q) = -nearest q := by
  have same : quantum (-q) = quantum q := by rw [quantum, abs_neg, quantum]
  rw [nearest, same, neg_div, nearestInt_neg, nearest]
  push_cast
  ring

theorem nearest_monotone : Monotone nearest := by
  intro p q le
  rcases le_total 0 p with nonnegative | nonpositive
  · exact nearest_mono nonnegative le
  · have below : nearest p ≤ 0 := by
      have mirrored := nearest_nonneg (neg_nonneg.mpr nonpositive)
      rw [nearest_neg] at mirrored
      linarith
    rcases le_total 0 q with above | negative
    · exact below.trans (nearest_nonneg above)
    · have mirrored := nearest_mono (neg_nonneg.mpr negative) (neg_le_neg le)
      rw [nearest_neg, nearest_neg] at mirrored
      linarith

/-! ### Quotients of rounded numbers -/

theorem nearest_one : nearest 1 = 1 :=
  nearest_of_representable ⟨1, 0, by norm_num, by norm_num, by norm_num⟩

theorem one_le_nearest {q : ℚ} (least : 1 ≤ q) : 1 ≤ nearest q := by
  have mono := nearest_mono zero_le_one least
  rwa [nearest_one] at mono

/-- A quotient of at most one stays one when all three operations round. -/
theorem nearest_div_within {p q : ℚ} (nonnegative : 0 ≤ p) (le : p ≤ q) :
    0 ≤ nearest (nearest p / nearest q) ∧ nearest (nearest p / nearest q) ≤ 1 := by
  have lower : 0 ≤ nearest p / nearest q :=
    div_nonneg (nearest_nonneg nonnegative) (nearest_nonneg (nonnegative.trans le))
  have upper : nearest p / nearest q ≤ 1 :=
    div_le_one_of_le₀ (nearest_mono nonnegative le) (nearest_nonneg (nonnegative.trans le))
  have rounded := nearest_mono lower upper
  rw [nearest_one] at rounded
  exact ⟨nearest_nonneg lower, rounded⟩

/-- Relative errors of at most `ε` in both parts of a quotient of at most one. -/
theorem abs_div_sub_div_le {p q a b ε : ℚ} (positive : 0 < p) (le : p ≤ q) (small : ε ≤ 1 / 2)
    (numerator : |a - p| ≤ p * ε) (denominator : |b - q| ≤ q * ε) : |a / b - p / q| ≤ 4 * ε := by
  have positiveAbove : 0 < q := positive.trans_le le
  have nonnegative : 0 ≤ ε := nonneg_of_mul_nonneg_right ((abs_nonneg _).trans numerator) positive
  have half : q ≤ 2 * b := by
    have below := (abs_le.mp denominator).1
    have most : q * ε ≤ q * (1 / 2) := mul_le_mul_of_nonneg_left small positiveAbove.le
    linarith
  have bound : 0 < b := by linarith
  rw [div_sub_div _ _ bound.ne' positiveAbove.ne', abs_div, abs_of_pos (mul_pos bound positiveAbove),
    div_le_iff₀ (mul_pos bound positiveAbove)]
  calc |a * q - b * p| = |(a - p) * q + p * (q - b)| := by ring_nf
    _ ≤ |(a - p) * q| + |p * (q - b)| := abs_add_le _ _
    _ = |a - p| * q + p * |b - q| := by
      rw [abs_mul, abs_mul, abs_of_pos positive, abs_of_pos positiveAbove, abs_sub_comm q b]
    _ ≤ p * ε * q + p * (q * ε) := by gcongr
    _ = 2 * ε * (p * q) := by ring
    _ ≤ 2 * ε * (2 * b * q) := by
      have parts : p * q ≤ 2 * b * q := mul_le_mul_of_nonneg_right (le.trans half) positiveAbove.le
      gcongr
    _ = 4 * ε * (b * q) := by ring

/-- The rounded quotient of numbers between one and `2^64` is close to the exact one. -/
theorem abs_nearest_div_sub_le {p q : ℚ} (least : 1 ≤ p) (le : p ≤ q) (most : q ≤ 2 ^ 64) :
    |nearest (nearest p / nearest q) - p / q| ≤ 5 * 2 ^ (-53 : ℤ) := by
  have normal : ∀ {r : ℚ}, (2 : ℚ) ^ (-64 : ℤ) ≤ r → |nearest r - r| ≤ r * 2 ^ (-53 : ℤ) := by
    intro r above
    apply abs_nearest_sub_le
    have lower : (2 : ℚ) ^ (-1022 : ℤ) ≤ 2 ^ (-64 : ℤ) :=
      zpow_le_zpow_right₀ (by norm_num) (by norm_num)
    exact lower.trans above
  have small : (2 : ℚ) ^ (-64 : ℤ) ≤ 1 := by norm_num
  have numerator := normal (small.trans least)
  have denominator := normal (small.trans (least.trans le))
  have parts := abs_div_sub_div_le (by linarith) le (by norm_num) numerator denominator
  have above : 1 ≤ nearest p := one_le_nearest least
  have bound : nearest q ≤ 2 ^ 64 := by
    have mono := nearest_mono (by linarith) most
    have power : nearest (2 ^ 64) = 2 ^ 64 :=
      nearest_of_representable ⟨1, 64, by norm_num, by norm_num, by norm_num⟩
    rwa [power] at mono
  have positive : 0 < nearest q := by linarith [one_le_nearest (least.trans le)]
  have lower : (2 : ℚ) ^ (-64 : ℤ) ≤ nearest p / nearest q := by
    rw [le_div_iff₀ positive]
    calc (2 : ℚ) ^ (-64 : ℤ) * nearest q ≤ 2 ^ (-64 : ℤ) * 2 ^ 64 := by gcongr
      _ = 1 := by norm_num
      _ ≤ nearest p := above
  have upper : nearest p / nearest q ≤ 1 :=
    div_le_one_of_le₀ (nearest_mono (by linarith) le) positive.le
  have quotient := normal lower
  calc |nearest (nearest p / nearest q) - p / q|
      ≤ |nearest (nearest p / nearest q) - nearest p / nearest q| +
          |nearest p / nearest q - p / q| := abs_sub_le _ _ _
    _ ≤ nearest p / nearest q * 2 ^ (-53 : ℤ) + 4 * 2 ^ (-53 : ℤ) := add_le_add quotient parts
    _ ≤ 1 * 2 ^ (-53 : ℤ) + 4 * 2 ^ (-53 : ℤ) := by gcongr
    _ = 5 * 2 ^ (-53 : ℤ) := by ring

end Binary64
