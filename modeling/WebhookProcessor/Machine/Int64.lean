/-
Module: WebhookProcessor.Machine.Int64
Layer: Machine
Purpose: When 64-bit two's complement arithmetic is exact.  `Int64` wraps around; these rules give
  the value of a sum, a product or a quotient whose exact result fits, and of a sum that wraps.
Trusted boundary: none
Main exports: toInt_add_of_fits, toInt_add_of_bmod, toInt_mul_of_fits, toInt_mul_eq_iff,
  toInt_div_of_nonneg
-/
import Mathlib.Algebra.Ring.Int.Defs
import Mathlib.Algebra.Ring.Nat

namespace Machine

/-- The value is one of the 64-bit integers. -/
def Fits (value : Int) : Prop :=
  -2 ^ 63 ≤ value ∧ value < 2 ^ 63

instance (value : Int) : Decidable (Fits value) :=
  inferInstanceAs (Decidable (_ ∧ _))

variable {a b : Int64}

theorem bmod_of_fits {value : Int} (fits : Fits value) : value.bmod (2 ^ 64) = value := by
  obtain ⟨lower, upper⟩ := fits
  apply Int.bmod_eq_of_le
  · omega
  · omega

theorem toInt_add_of_fits (fits : Fits (a.toInt + b.toInt)) :
    (a + b).toInt = a.toInt + b.toInt := by
  rw [Int64.toInt_add, bmod_of_fits fits]

/-- A wrapped total stays one when a summand is added. -/
theorem toInt_add_of_bmod {total : Int} (wrapped : a.toInt = total.bmod (2 ^ 64)) :
    (a + b).toInt = (total + b.toInt).bmod (2 ^ 64) := by
  rw [Int64.toInt_add, wrapped, Int.bmod_add_bmod]

theorem toInt_mul_of_fits (fits : Fits (a.toInt * b.toInt)) :
    (a * b).toInt = a.toInt * b.toInt := by
  rw [Int64.toInt_mul, bmod_of_fits fits]

theorem fits_toInt (a : Int64) : Fits a.toInt :=
  ⟨a.le_toInt, a.toInt_lt⟩

/-- A product is exact only if it fits. -/
theorem toInt_mul_eq_iff : (a * b).toInt = a.toInt * b.toInt ↔ Fits (a.toInt * b.toInt) := by
  constructor
  · intro exactly
    rw [← exactly]
    exact fits_toInt _
  · exact toInt_mul_of_fits

theorem toInt_div_of_nonneg (nonneg : 0 ≤ a.toInt) (positive : 0 < b.toInt) :
    (a / b).toInt = a.toInt / b.toInt := by
  have other : b ≠ -1 := by
    rintro rfl
    revert positive
    decide
  rw [Int64.toInt_div_of_ne_right a b other, Int.tdiv_eq_ediv_of_nonneg nonneg]

end Machine
