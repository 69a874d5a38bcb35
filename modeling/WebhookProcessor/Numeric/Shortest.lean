/-
Module: WebhookProcessor.Numeric.Shortest
Layer: Numeric
Purpose: The decimal that a printer writes for a binary64 number: of the decimals that are read back
  as the number, one with the fewest significant digits, and of those the closest.  The printer tries
  the two neighbours of the number on coarser and then on finer decimal grids.  A number is written
  exactly when no shorter decimal is read back as it, which covers the integers below `2^53`.
Trusted boundary: none
Main exports: Digits, Printed, IsShortest, Printed.eq_self_iff, shortest, printed_shortest,
  isShortest_of_abs_lt
-/
import Mathlib.Algebra.Order.Group.Pointwise.Interval
import Mathlib.Data.List.MinMax
import WebhookProcessor.Json.Text
import WebhookProcessor.Numeric.Rounding

namespace Binary64

/-! ### Significant digits -/

/-- `q` has a decimal form of at most `digits` significant digits. -/
def Digits (digits : ℕ) (q : ℚ) : Prop :=
  ∃ mantissa exponent : ℤ, |mantissa| < 10 ^ digits ∧ q = mantissa * 10 ^ exponent

/-- `p` is what a printer writes for `q`. -/
structure Printed (q p : ℚ) : Prop where
  readBack : nearest p = q
  shortest : ∀ other digits, nearest other = q → Digits digits other → Digits digits p
  closest : ∀ other, nearest other = q → (∀ digits, Digits digits p → Digits digits other) →
    |p - q| ≤ |other - q|

/-- No shorter decimal is read back as `q`. -/
def IsShortest (q : ℚ) : Prop :=
  ∀ other digits, nearest other = q → Digits digits other → Digits digits q

theorem Printed.eq_self_iff {q p : ℚ} (printed : Printed q p) (representable : Representable q) :
    p = q ↔ IsShortest q := by
  constructor
  · rintro rfl
    exact printed.shortest
  · intro isShortest
    have close := printed.closest q (nearest_of_representable representable)
      fun digits => isShortest p digits printed.readBack
    rw [sub_self, abs_zero] at close
    exact sub_eq_zero.mp (abs_nonpos_iff.mp close)

theorem Digits.mono {few many : ℕ} {q : ℚ} (le : few ≤ many) (short : Digits few q) :
    Digits many q := by
  obtain ⟨mantissa, exponent, bounded, value⟩ := short
  exact ⟨mantissa, exponent, bounded.trans_le (pow_le_pow_right₀ (by norm_num) le), value⟩

theorem Digits.neg {digits : ℕ} {q : ℚ} (short : Digits digits q) : Digits digits (-q) := by
  obtain ⟨mantissa, exponent, bounded, value⟩ := short
  refine ⟨-mantissa, exponent, by rwa [abs_neg], ?_⟩
  rw [value]
  push_cast
  ring

theorem digits_zero (digits : ℕ) : Digits digits 0 :=
  ⟨0, 0, by simp, by simp⟩

theorem eq_zero_of_digits {q : ℚ} (short : Digits 0 q) : q = 0 := by
  obtain ⟨mantissa, exponent, bounded, value⟩ := short
  rw [pow_zero] at bounded
  rw [value, Int.abs_lt_one_iff.mp bounded, Int.cast_zero, zero_mul]

/-- A decimal of few digits has an expansion that ends. -/
theorem Digits.terminating {digits : ℕ} {q : ℚ} (short : Digits digits q) :
    Json.Terminating q := by
  obtain ⟨mantissa, exponent, _, value⟩ := short
  cases exponent with
  | ofNat n =>
      have integer : q = ((mantissa * 10 ^ n : ℤ) : ℚ) := by
        rw [value, Int.ofNat_eq_natCast, zpow_natCast]
        push_cast
        rfl
      exact ⟨0, by rw [integer, Rat.den_intCast, pow_zero]⟩
  | negSucc n =>
      have quotient : q = (mantissa : ℚ) / ((10 ^ (n + 1) : ℤ) : ℚ) := by
        rw [value, zpow_negSucc, div_eq_mul_inv]
        push_cast
        rfl
      refine ⟨n + 1, ?_⟩
      have divides := Rat.den_dvd mantissa (10 ^ (n + 1))
      rw [Rat.divInt_eq_div, ← quotient] at divides
      exact_mod_cast divides

/-! ### What is read back as a number -/

/-- Whatever lies between a number and a decimal that is read back as it is read back, too. -/
theorem nearest_of_mem_uIcc {p q r : ℚ} (readBack : nearest p = q) (between : r ∈ Set.uIcc p q) :
    nearest r = q := by
  have fixed : nearest q = q := by
    rw [← readBack]
    exact nearest_of_representable (representable_nearest p)
  rcases Set.mem_uIcc.mp between with ⟨lower, upper⟩ | ⟨lower, upper⟩
  · apply le_antisymm
    · exact (nearest_monotone upper).trans_eq fixed
    · exact readBack.symm.trans_le (nearest_monotone lower)
  · apply le_antisymm
    · exact (nearest_monotone upper).trans_eq readBack
    · exact fixed.symm.trans_le (nearest_monotone lower)

theorem abs_sub_le_of_mem_uIcc {p q r : ℚ} (between : r ∈ Set.uIcc p q) : |r - q| ≤ |p - q| := by
  rw [abs_sub_comm r, abs_sub_comm p]
  exact Set.abs_sub_right_of_mem_uIcc between

/-! ### The decimal grid around a number -/

/-- The last of `digits` significant digits of `q`. -/
def unit (digits : ℕ) (q : ℚ) : ℚ :=
  10 ^ (Int.log 10 |q| + 1 - digits)

theorem unit_pos (digits : ℕ) (q : ℚ) : 0 < unit digits q :=
  zpow_pos (by norm_num) _

theorem unit_neg (digits : ℕ) (q : ℚ) : unit digits (-q) = unit digits q := by
  rw [unit, abs_neg, unit]

/-- The powers of ten around `q` lie on its grid. -/
theorem pow_mul_unit (digits : ℕ) (q : ℚ) :
    ((10 ^ digits : ℤ) : ℚ) * unit digits q = 10 ^ (Int.log 10 |q| + 1) := by
  rw [unit]
  push_cast
  rw [← zpow_natCast, ← zpow_add₀ (by norm_num)]
  congr 1
  ring

theorem lt_zpow_of_abs_lt {mantissa exponent : ℤ} {digits : ℕ} (bounded : |mantissa| < 10 ^ digits) :
    (mantissa * 10 ^ exponent : ℚ) < 10 ^ (digits + exponent) := by
  have scale : (0 : ℚ) < 10 ^ exponent := zpow_pos (by norm_num) _
  have below : (mantissa : ℚ) < 10 ^ (digits : ℤ) := by
    rw [zpow_natCast]
    exact_mod_cast (le_abs_self mantissa).trans_lt bounded
  rw [zpow_add₀ (by norm_num)]
  exact mul_lt_mul_of_pos_right below scale

/-- A decimal of `digits` digits that has as many places as `q` lies on the grid of `q`. -/
theorem exists_mul_unit_eq {digits : ℕ} {p q : ℚ} (positive : 0 < q)
    (large : 10 ^ Int.log 10 q ≤ p) (short : Digits digits p) : ∃ z : ℤ, z * unit digits q = p := by
  obtain ⟨mantissa, exponent, bounded, rfl⟩ := short
  have exponents := (zpow_lt_zpow_iff_right₀ (by norm_num)).mp
    (large.trans_lt (lt_zpow_of_abs_lt bounded))
  refine ⟨mantissa * 10 ^ (exponent - (Int.log 10 q + 1 - digits)).toNat, ?_⟩
  rw [unit, abs_of_pos positive]
  push_cast
  rw [← zpow_natCast, Int.toNat_of_nonneg (by omega), mul_assoc, ← zpow_add₀ (by norm_num),
    sub_add_cancel]

/-- Between a positive number and a decimal of `digits` digits lies a point of the grid: the decimal
itself, or the power of ten below the number. -/
theorem exists_mem_uIcc_of_pos {digits : ℕ} {p q : ℚ} (any : 0 < digits) (positive : 0 < q)
    (short : Digits digits p) :
    ∃ z : ℤ, z * unit digits q ∈ Set.uIcc p q := by
  rcases le_or_gt (10 ^ Int.log 10 q) p with large | small
  · obtain ⟨z, onGrid⟩ := exists_mul_unit_eq positive large short
    refine ⟨z, ?_⟩
    rw [onGrid]
    exact Set.left_mem_uIcc
  · obtain ⟨fewer, rfl⟩ := Nat.exists_eq_succ_of_ne_zero any.ne'
    have lower : (10 : ℚ) ^ Int.log 10 q ≤ q := by
      exact_mod_cast Int.zpow_log_le_self (b := 10) (by norm_num) positive
    have power : ((10 ^ fewer : ℤ) : ℚ) * unit fewer.succ q = 10 ^ Int.log 10 q := by
      rw [unit, abs_of_pos positive, Int.cast_pow, Int.cast_ofNat, ← zpow_natCast,
        ← zpow_add₀ (by norm_num)]
      congr 1
      push_cast
      ring
    refine ⟨10 ^ fewer, ?_⟩
    rw [power]
    exact Set.mem_uIcc.mpr (.inl ⟨small.le, lower⟩)

theorem exists_mem_uIcc {digits : ℕ} {p : ℚ} (any : 0 < digits) (short : Digits digits p) (q : ℚ) :
    ∃ z : ℤ, z * unit digits q ∈ Set.uIcc p q := by
  rcases lt_trichotomy q 0 with negative | rfl | positive
  · obtain ⟨z, between⟩ := exists_mem_uIcc_of_pos any (neg_pos.mpr negative) short.neg
    rw [unit_neg] at between
    refine ⟨-z, ?_⟩
    rw [Set.mem_uIcc] at between ⊢
    push_cast
    rcases between with ⟨lower, upper⟩ | ⟨lower, upper⟩
    · exact .inr ⟨by linarith, by linarith⟩
    · exact .inl ⟨by linarith, by linarith⟩
  · refine ⟨0, ?_⟩
    rw [Int.cast_zero, zero_mul]
    exact Set.right_mem_uIcc
  · exact exists_mem_uIcc_of_pos any positive short

/-- The neighbours of `q` on its grid. -/
def below (digits : ℕ) (q : ℚ) : ℚ :=
  ⌊q / unit digits q⌋ * unit digits q

def above (digits : ℕ) (q : ℚ) : ℚ :=
  ⌈q / unit digits q⌉ * unit digits q

theorem below_le (digits : ℕ) (q : ℚ) : below digits q ≤ q :=
  (le_div_iff₀ (unit_pos digits q)).mp (Int.floor_le _)

theorem le_above (digits : ℕ) (q : ℚ) : q ≤ above digits q :=
  (div_le_iff₀ (unit_pos digits q)).mp (Int.le_ceil _)

/-- If a decimal of `digits` digits is read back as `q`, so is a neighbour of `q` that is at least as
close. -/
theorem exists_neighbour {digits : ℕ} {p q : ℚ} (any : 0 < digits) (readBack : nearest p = q)
    (short : Digits digits p) :
    ∃ r ∈ [below digits q, above digits q], nearest r = q ∧ |r - q| ≤ |p - q| := by
  obtain ⟨z, between⟩ := exists_mem_uIcc any short q
  have scale := unit_pos digits q
  rcases Set.mem_uIcc.mp between with ⟨lower, upper⟩ | ⟨lower, upper⟩
  · have least : z * unit digits q ≤ below digits q := by
      apply mul_le_mul_of_nonneg_right _ scale.le
      exact_mod_cast Int.le_floor.mpr ((le_div_iff₀ scale).mpr upper)
    have inside : below digits q ∈ Set.uIcc p q :=
      Set.mem_uIcc.mpr (.inl ⟨lower.trans least, below_le digits q⟩)
    exact ⟨_, List.mem_cons_self, nearest_of_mem_uIcc readBack inside,
      abs_sub_le_of_mem_uIcc inside⟩
  · have most : above digits q ≤ z * unit digits q := by
      apply mul_le_mul_of_nonneg_right _ scale.le
      exact_mod_cast Int.ceil_le.mpr ((div_le_iff₀ scale).mpr lower)
    have inside : above digits q ∈ Set.uIcc p q :=
      Set.mem_uIcc.mpr (.inr ⟨le_above digits q, most.trans upper⟩)
    exact ⟨_, List.mem_cons_of_mem _ List.mem_cons_self, nearest_of_mem_uIcc readBack inside,
      abs_sub_le_of_mem_uIcc inside⟩

/-- A point of the grid next to `q` has no more digits than the grid. -/
theorem digits_of_abs_le {digits : ℕ} {q : ℚ} (any : 0 < digits) {z : ℤ}
    (bounded : |z| ≤ 10 ^ digits) : Digits digits (z * unit digits q) := by
  rcases bounded.lt_or_eq with smaller | full
  · exact ⟨z, _, smaller, rfl⟩
  · have power := pow_mul_unit digits q
    have single : |(1 : ℤ)| < 10 ^ digits := by
      rw [abs_one]
      exact one_lt_pow₀ (by norm_num) any.ne'
    have one : Digits digits (10 ^ (Int.log 10 |q| + 1)) :=
      ⟨1, Int.log 10 |q| + 1, single, by rw [Int.cast_one, one_mul]⟩
    rcases (abs_eq (by positivity)).mp full with rfl | rfl
    · rw [power]
      exact one
    · rw [Int.cast_neg, neg_mul, power]
      exact one.neg

theorem abs_div_unit_le (digits : ℕ) (q : ℚ) : |q / unit digits q| ≤ (10 ^ digits : ℤ) := by
  have upper : |q| < (10 : ℚ) ^ (Int.log 10 |q| + 1) := by
    exact_mod_cast Int.lt_zpow_succ_log_self (b := 10) (by norm_num) |q|
  rw [abs_div, abs_of_pos (unit_pos digits q), div_le_iff₀ (unit_pos digits q), pow_mul_unit]
  exact upper.le

theorem digits_neighbour {digits : ℕ} {q r : ℚ} (any : 0 < digits)
    (neighbour : r ∈ [below digits q, above digits q]) : Digits digits r := by
  obtain ⟨lower, upper⟩ := abs_le.mp (abs_div_unit_le digits q)
  simp only [List.mem_cons, List.not_mem_nil, or_false] at neighbour
  rcases neighbour with rfl | rfl
  · refine digits_of_abs_le any (abs_le.mpr ⟨?_, ?_⟩)
    · exact Int.le_floor.mpr (by exact_mod_cast lower)
    · exact Int.floor_le_iff.mpr (upper.trans_lt (lt_add_one _))
  · refine digits_of_abs_le any (abs_le.mpr ⟨?_, ?_⟩)
    · exact_mod_cast lower.trans (Int.le_ceil _)
    · exact Int.ceil_le.mpr upper

/-! ### The printer -/

/-- The closest neighbour of `q` that is read back. -/
def reading (digits : ℕ) (q : ℚ) : Option ℚ :=
  ([below digits q, above digits q].filter fun r => nearest r = q).argmin fun r => |r - q|

theorem of_reading {digits : ℕ} {q r : ℚ} (read : reading digits q = some r) :
    r ∈ [below digits q, above digits q] ∧ nearest r = q := by
  have member := List.argmin_mem (Option.mem_def.mpr read)
  simpa using List.mem_filter.mp member

theorem reading_ne_none {digits : ℕ} {p q : ℚ} (any : 0 < digits) (readBack : nearest p = q)
    (short : Digits digits p) : reading digits q ≠ none := by
  obtain ⟨r, neighbour, readsBack, _⟩ := exists_neighbour any readBack short
  intro none
  rw [reading, List.argmin_eq_none] at none
  exact List.filter_eq_nil_iff.mp none r neighbour (by simpa using readsBack)

theorem abs_reading_sub_le {digits : ℕ} {p q r : ℚ} (any : 0 < digits)
    (read : reading digits q = some r) (readBack : nearest p = q)
    (short : Digits digits p) : |r - q| ≤ |p - q| := by
  obtain ⟨other, neighbour, readsBack, close⟩ := exists_neighbour any readBack short
  refine le_trans ?_ close
  have candidate : other ∈ [below digits q, above digits q].filter fun r => nearest r = q :=
    List.mem_filter.mpr ⟨neighbour, by simpa using readsBack⟩
  exact List.le_of_mem_argmin (f := fun r => |r - q|) candidate read

/-- The first reading, from `digits` digits on. -/
def shortestFrom (q : ℚ) : (fuel digits : ℕ) → ℚ
  | 0, _ => q
  | fuel + 1, digits =>
      match reading digits q with
      | some r => r
      | none => shortestFrom q fuel (digits + 1)

/-- As many digits as `q` itself has. -/
def ownDigits (q : ℚ) : ℕ :=
  Nat.log 10 (Json.scaled q).natAbs + 1

/-- What a printer writes for a binary64 number. -/
def shortest (q : ℚ) : ℚ :=
  shortestFrom q (ownDigits q) 1

theorem shortestFrom_spec {q : ℚ} {fuel digits last : ℕ} (least : digits ≤ last)
    (enough : last < digits + fuel) (found : reading last q ≠ none) :
    ∃ first, digits ≤ first ∧ reading first q = some (shortestFrom q fuel digits) ∧
      ∀ fewer, digits ≤ fewer → fewer < first → reading fewer q = none := by
  induction fuel generalizing digits with
  | zero => omega
  | succ fuel inductionHypothesis =>
      rw [shortestFrom]
      cases read : reading digits q with
      | some r => exact ⟨digits, le_refl _, read, fun _ _ _ => by omega⟩
      | none =>
          have later : digits + 1 ≤ last := by
            rcases least.lt_or_eq with less | rfl
            · exact less
            · exact absurd read found
          obtain ⟨first, least, found, none⟩ := inductionHypothesis later (by omega)
          refine ⟨first, by omega, found, ?_⟩
          intro fewer lower upper
          rcases lower.lt_or_eq with less | rfl
          · exact none fewer less upper
          · exact read

theorem Representable.terminating {q : ℚ} (representable : Representable q) :
    Json.Terminating q := by
  obtain ⟨places, power⟩ := representable.exists_den_eq
  exact ⟨places, power ▸ pow_dvd_pow_of_dvd (by decide) places⟩

theorem digits_ownDigits {q : ℚ} (representable : Representable q) : Digits (ownDigits q) q := by
  refine ⟨Json.scaled q, _, ?_, representable.terminating.scaled_eq.symm⟩
  have bounded := Nat.lt_pow_succ_log_self (b := 10) (by decide) (Json.scaled q).natAbs
  rw [Int.abs_eq_natAbs]
  exact_mod_cast bounded

/-- The printer's decimal is the reading with the fewest digits. -/
theorem exists_reading_shortest {q : ℚ} (representable : Representable q) :
    ∃ first, 0 < first ∧ reading first q = some (shortest q) ∧
      ∀ fewer, 0 < fewer → fewer < first → reading fewer q = none := by
  have own : 0 < ownDigits q := Nat.succ_pos _
  have found := reading_ne_none own (nearest_of_representable representable)
    (digits_ownDigits representable)
  exact shortestFrom_spec own (by omega) found

theorem printed_shortest {q : ℚ} (representable : Representable q) : Printed q (shortest q) := by
  obtain ⟨first, positive, read, none⟩ := exists_reading_shortest representable
  obtain ⟨neighbour, readBack⟩ := of_reading read
  have own := digits_neighbour positive neighbour
  refine ⟨readBack, ?_, ?_⟩
  · intro other digits readsBack short
    rcases Nat.eq_zero_or_pos digits with rfl | any
    · -- only zero has no digits
      rw [eq_zero_of_digits short, nearest_zero] at readsBack
      subst readsBack
      have zero : shortest 0 = 0 := by simpa [below, above] using neighbour
      rw [zero]
      exact digits_zero 0
    · refine own.mono ?_
      by_contra fewer
      exact reading_ne_none any readsBack short (none digits any (by omega))
  · intro other readsBack asShort
    exact abs_reading_sub_le positive read readsBack (asShort first own)

theorem terminating_shortest {q : ℚ} (representable : Representable q) :
    Json.Terminating (shortest q) := by
  have readsBack := nearest_of_representable representable
  exact ((printed_shortest representable).shortest q _ readsBack
    (digits_ownDigits representable)).terminating

/-! ### Numbers that are their own shortest decimal -/

theorem nearest_abs (q : ℚ) : nearest |q| = |nearest q| := by
  have nonnegative := nearest_nonneg (abs_nonneg q)
  rcases abs_choice q with same | negated
  · rw [same] at nonnegative ⊢
    exact (abs_of_nonneg nonnegative).symm
  · rw [negated, nearest_neg] at nonnegative ⊢
    exact (abs_of_nonpos (neg_nonneg.mp nonnegative)).symm

/-- What is read as an integer below `2^53` is off by at most one half. -/
theorem abs_sub_le_half {p : ℚ} {n : ℤ} (readBack : nearest p = n) (small : |n| < 2 ^ 53) :
    |p - n| ≤ 1 / 2 := by
  have bounded : |p| < 2 ^ 53 := by
    by_contra large
    have power : nearest (2 ^ 53) = 2 ^ 53 :=
      nearest_of_representable ⟨2 ^ 53, 0, by norm_num, by norm_num, by norm_num⟩
    have rounded := nearest_monotone (not_lt.mp large)
    rw [power, nearest_abs, readBack] at rounded
    have whole : 2 ^ 53 ≤ |n| := by exact_mod_cast rounded
    omega
  have fine : quantum p ≤ 0 := by
    apply max_le (by norm_num)
    by_cases zero : p = 0
    · simp [zero]
    · have below : |p| < ((2 : ℕ) : ℚ) ^ (53 : ℤ) := by exact_mod_cast bounded
      have logarithm := (Int.lt_zpow_iff_log_lt (by norm_num) (abs_pos.mpr zero)).mp below
      omega
  calc |p - n| = |nearest p - p| := by rw [readBack, abs_sub_comm]
    _ ≤ 1 / 2 * 2 ^ quantum p := abs_nearest_sub_le_quantum p
    _ ≤ 1 / 2 * 1 := by
      have unit : (2 : ℚ) ^ quantum p ≤ 1 := zpow_le_one_of_nonpos₀ (by norm_num) fine
      linarith
    _ = 1 / 2 := mul_one _

theorem eq_of_abs_sub_le_half {m n : ℤ} (close : |(m : ℚ) - n| ≤ 1 / 2) : m = n := by
  have apart : |m - n| < 1 := by
    have cast : |((m - n : ℤ) : ℚ)| < 1 := by
      push_cast
      linarith
    exact_mod_cast cast
  exact sub_eq_zero.mp (Int.abs_lt_one_iff.mp apart)

/-- An integer next to a decimal with places behind the point has no more digits than it. -/
theorem digits_of_near_fraction {n mantissa exponent : ℤ} {fewer : ℕ} (fractional : exponent < 0)
    (bounded : |mantissa| < 10 ^ (fewer + 1))
    (close : |(mantissa * 10 ^ exponent : ℚ) - n| ≤ 1 / 2) : Digits (fewer + 1) n := by
  refine ⟨n, 0, ?_, by simp⟩
  have part : |(mantissa * 10 ^ exponent : ℚ)| ≤ |(mantissa : ℚ)| * 10⁻¹ := by
    have scale : (0 : ℚ) < 10 ^ exponent := zpow_pos (by norm_num) _
    rw [abs_mul, abs_of_pos scale]
    apply mul_le_mul_of_nonneg_left _ (abs_nonneg _)
    rw [← zpow_neg_one]
    exact zpow_le_zpow_right₀ (by norm_num) (by omega)
  have digitsBound : |(mantissa : ℚ)| < 10 ^ fewer * 10 := by exact_mod_cast bounded
  have within : |(n : ℚ)| ≤ |(mantissa * 10 ^ exponent : ℚ)| + 1 / 2 := by
    have triangle := abs_sub_abs_le_abs_sub (n : ℚ) (mantissa * 10 ^ exponent)
    rw [abs_sub_comm] at close
    linarith
  have power : (1 : ℚ) ≤ 10 ^ fewer := one_le_pow₀ (by norm_num)
  have final : |(n : ℚ)| < 10 ^ fewer * 10 := by linarith
  rw [pow_succ]
  exact_mod_cast final

/-- Below `2^53` every integer is written as it is. -/
theorem isShortest_of_abs_lt {n : ℤ} (small : |n| < 2 ^ 53) : IsShortest n := by
  intro other digits readBack short
  have close := abs_sub_le_half readBack small
  rcases Nat.eq_zero_or_pos digits with rfl | any
  · rw [eq_zero_of_digits short, nearest_zero] at readBack
    rw [← readBack]
    exact digits_zero 0
  · obtain ⟨fewer, rfl⟩ := Nat.exists_eq_succ_of_ne_zero any.ne'
    obtain ⟨mantissa, exponent, bounded, value⟩ := id short
    rcases le_or_gt 0 exponent with whole | fractional
    · -- an integer that close is the same one
      have integer : other = ((mantissa * 10 ^ exponent.toNat : ℤ) : ℚ) := by
        rw [value]
        push_cast
        rw [← zpow_natCast, Int.toNat_of_nonneg whole]
      rw [integer] at close
      rwa [← eq_of_abs_sub_le_half close, ← integer]
    · rw [value] at close
      exact digits_of_near_fraction fractional bounded close

end Binary64
