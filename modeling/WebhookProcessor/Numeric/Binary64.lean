/-
Module: WebhookProcessor.Numeric.Binary64
Layer: Numeric
Purpose: The finite IEEE 754 binary64 numbers as a set of rationals, and the rounding of an exact
  number to the nearest of them: 53 significant bits, ties to even, exponents from -1074 on.  The
  numbers that rounding leaves alone are the representable ones.
Trusted boundary: none
Main exports: nearest, Representable, nearest_eq_self_iff, InRange
-/
import Mathlib.Algebra.Order.Round
import Mathlib.Data.Int.Log
import Mathlib.Data.Nat.Prime.Basic
import Mathlib.Data.Rat.Floor

namespace Binary64

/-- The nearest integer; of two equally near ones, the even one. -/
def nearestInt (q : ℚ) : ℤ :=
  if Int.fract q = 1 / 2 ∧ Even ⌊q⌋ then ⌊q⌋ else round q

/-- The exponent of the last of the 53 significant bits of `q`. -/
def quantum (q : ℚ) : ℤ :=
  max (-1074) (Int.log 2 |q| - 52)

/-- `q` rounded to 53 significant bits, ties to even. -/
def nearest (q : ℚ) : ℚ :=
  nearestInt (q / 2 ^ quantum q) * 2 ^ quantum q

/-- An integer of at most 53 bits, scaled by a power of two. -/
def Representable (q : ℚ) : Prop :=
  ∃ mantissa exponent : ℤ, |mantissa| ≤ 2 ^ 53 ∧ -1074 ≤ exponent ∧ q = mantissa * 2 ^ exponent

/-- The rounded number does not overflow to an infinity. -/
def InRange (q : ℚ) : Prop :=
  |nearest q| < 2 ^ 1024

instance (q : ℚ) : Decidable (InRange q) :=
  inferInstanceAs (Decidable (_ < _))

/-! ### Rounding to an integer -/

theorem nearestInt_intCast (n : ℤ) : nearestInt n = n := by
  simp [nearestInt]

theorem floor_le_nearestInt (q : ℚ) : ⌊q⌋ ≤ nearestInt q := by
  unfold nearestInt
  split
  · exact le_refl _
  · rw [round_eq]
    apply Int.floor_mono
    linarith

theorem nearestInt_le_ceil (q : ℚ) : nearestInt q ≤ ⌈q⌉ := by
  unfold nearestInt
  split
  · exact Int.floor_le_ceil q
  · rw [round_eq]
    apply Int.lt_add_one_iff.mp
    apply Int.floor_lt.mpr
    push_cast
    linarith [Int.le_ceil q]

theorem abs_nearestInt_le {q : ℚ} {bound : ℤ} (bounded : |q| ≤ bound) :
    |nearestInt q| ≤ bound := by
  obtain ⟨lower, upper⟩ := abs_le.mp bounded
  apply abs_le.mpr
  constructor
  · apply le_trans _ (floor_le_nearestInt q)
    apply Int.le_floor.mpr
    simpa using lower
  · apply le_trans (nearestInt_le_ceil q)
    exact Int.ceil_le.mpr upper

/-! ### Rounding to 53 significant bits -/

theorem abs_div_quantum_le (q : ℚ) : |q / 2 ^ quantum q| ≤ (2 ^ 53 : ℤ) := by
  have positive : (0 : ℚ) < 2 ^ quantum q := zpow_pos (by norm_num) _
  have upper := Int.lt_zpow_succ_log_self (b := 2) (by norm_num) |q|
  have grows : (2 : ℚ) ^ (Int.log 2 |q| + 1) ≤ 2 ^ (53 + quantum q) := by
    apply zpow_le_zpow_right₀ (by norm_num)
    unfold quantum
    omega
  rw [abs_div, abs_of_pos positive, div_le_iff₀ positive]
  calc |q| ≤ 2 ^ (Int.log 2 |q| + 1) := by exact_mod_cast upper.le
    _ ≤ 2 ^ (53 + quantum q) := grows
    _ = ((2 ^ 53 : ℤ) : ℚ) * 2 ^ quantum q := by
      rw [zpow_add₀ (by norm_num)]
      norm_num

theorem representable_nearest (q : ℚ) : Representable (nearest q) :=
  ⟨nearestInt (q / 2 ^ quantum q), quantum q, abs_nearestInt_le (abs_div_quantum_le q),
    le_max_left _ _, rfl⟩

/-- A mantissa of 54 bits is a power of two, so one bit can go to the exponent. -/
theorem Representable.exists_lt {q : ℚ} (representable : Representable q) :
    ∃ mantissa exponent : ℤ, |mantissa| < 2 ^ 53 ∧ -1074 ≤ exponent ∧
      q = mantissa * 2 ^ exponent := by
  obtain ⟨mantissa, exponent, bounded, least, value⟩ := representable
  rcases bounded.lt_or_eq with smaller | full
  · exact ⟨mantissa, exponent, smaller, least, value⟩
  · obtain ⟨half, split⟩ : ∃ half, mantissa = half * 2 := by
      rcases (abs_eq (by norm_num)).mp full with rfl | rfl
      · exact ⟨2 ^ 52, by norm_num⟩
      · exact ⟨-2 ^ 52, by norm_num⟩
    refine ⟨half, exponent + 1, ?_, by omega, ?_⟩
    · rw [split, abs_mul] at full
      norm_num at full ⊢
      omega
    · rw [value, split, zpow_add₀ (by norm_num)]
      push_cast
      ring

theorem quantum_le {mantissa exponent : ℤ} (bounded : |mantissa| < 2 ^ 53)
    (nonzero : mantissa ≠ 0) (least : -1074 ≤ exponent) :
    quantum (mantissa * 2 ^ exponent) ≤ exponent := by
  apply max_le least
  have positive : (0 : ℚ) < |(mantissa : ℚ) * 2 ^ exponent| := by
    apply abs_pos.mpr
    exact mul_ne_zero (Int.cast_ne_zero.mpr nonzero) (zpow_ne_zero _ (by norm_num))
  have scale : (0 : ℚ) < 2 ^ exponent := zpow_pos (by norm_num) _
  have below : |(mantissa : ℚ) * 2 ^ exponent| < ((2 : ℕ) : ℚ) ^ (53 + exponent) := by
    rw [abs_mul, abs_of_pos scale, Nat.cast_ofNat, zpow_add₀ (by norm_num)]
    apply mul_lt_mul_of_pos_right _ scale
    exact_mod_cast bounded
  have logarithm := (Int.lt_zpow_iff_log_lt (by norm_num) positive).mp below
  omega

theorem nearest_of_representable {q : ℚ} (representable : Representable q) : nearest q = q := by
  obtain ⟨mantissa, exponent, bounded, least, value⟩ := representable.exists_lt
  by_cases zero : mantissa = 0
  · subst zero
    simp [value, nearest, nearestInt]
  · have fits := quantum_le bounded zero least
    rw [← value] at fits
    have scaled : q / 2 ^ quantum q = ((mantissa * 2 ^ (exponent - quantum q).toNat : ℤ) : ℚ) := by
      rw [div_eq_iff (zpow_ne_zero _ (by norm_num))]
      push_cast
      rw [← zpow_natCast, mul_assoc, ← zpow_add₀ (by norm_num), Int.toNat_of_nonneg (by omega),
        sub_add_cancel]
      exact value
    rw [nearest, scaled, nearestInt_intCast, ← scaled, div_mul_cancel₀]
    exact zpow_ne_zero _ (by norm_num)

theorem nearest_eq_self_iff {q : ℚ} : nearest q = q ↔ Representable q := by
  constructor
  · intro fixed
    rw [← fixed]
    exact representable_nearest q
  · exact nearest_of_representable

instance (q : ℚ) : Decidable (Representable q) :=
  decidable_of_iff _ nearest_eq_self_iff

theorem Representable.exists_den_eq {q : ℚ} (representable : Representable q) :
    ∃ places, q.den = 2 ^ places := by
  obtain ⟨mantissa, exponent, _, _, value⟩ := representable
  cases exponent with
  | ofNat n =>
      refine ⟨0, ?_⟩
      have integer : q = ((mantissa * 2 ^ n : ℤ) : ℚ) := by
        rw [value, Int.ofNat_eq_natCast, zpow_natCast]
        push_cast
        rfl
      rw [integer, Rat.den_intCast, pow_zero]
  | negSucc n =>
      have quotient : q = (mantissa : ℚ) / ((2 ^ (n + 1) : ℤ) : ℚ) := by
        rw [value, zpow_negSucc, div_eq_mul_inv]
        push_cast
        rfl
      have divides : q.den ∣ 2 ^ (n + 1) := by
        have divides := Rat.den_dvd mantissa (2 ^ (n + 1))
        rw [Rat.divInt_eq_div, ← quotient] at divides
        exact_mod_cast divides
      obtain ⟨places, _, power⟩ := (Nat.dvd_prime_pow Nat.prime_two).mp divides
      exact ⟨places, power⟩

end Binary64
