/-
Module: WebhookProcessor.Numeric.Decimal
Layer: Numeric
Purpose: Decimal texts with a fixed number of places, and a reader for them and for integers.  A
  number is written as the nearest multiple of the last place, ties to even.
Trusted boundary: none
Main exports: write, read, read_writeInt, read_write
-/
import Mathlib.Data.List.TakeWhile
import WebhookProcessor.Json.Text
import WebhookProcessor.Numeric.Rounding

namespace Decimal

/-- The number of units of the last place that a nonnegative number is rounded to. -/
def units (places : Nat) (q : ℚ) : Nat :=
  (Binary64.nearestInt (q * 10 ^ places)).toNat

/-- The places after the point. -/
def fraction (places part : Nat) : List Char :=
  List.leftpad places '0' (Nat.toDigits 10 part)

/-- A nonnegative number with a positive number of places after the point. -/
def write (places : Nat) (q : ℚ) : List Char :=
  Nat.toDigits 10 (units places q / 10 ^ places) ++
    '.' :: fraction places (units places q % 10 ^ places)

/-- Digits, or digits on both sides of a point. -/
def readUnsigned (chars : List Char) : Option ℚ :=
  let whole := chars.takeWhile Char.isDigit
  if whole = [] then none
  else
    match chars.dropWhile Char.isDigit with
    | [] => some (Nat.ofDigitChars 10 whole 0)
    | '.' :: fraction =>
        if fraction ≠ [] ∧ fraction.all Char.isDigit then
          some (Nat.ofDigitChars 10 (whole ++ fraction) 0 / 10 ^ fraction.length)
        else none
    | _ => none

def read (chars : List Char) : Option ℚ :=
  if chars.head? = some '-' then (readUnsigned chars.tail).map fun q => -q
  else readUnsigned chars

/-! ### What is read back -/

/-- What is read consists of digits, a point and a sign. -/
def IsNumeral (c : Char) : Prop := c.isDigit = true ∨ c = '.' ∨ c = '-'

theorem isNumeral_of_readUnsigned {chars : List Char} {q : ℚ}
    (read : readUnsigned chars = some q) : ∀ c ∈ chars, IsNumeral c := by
  unfold readUnsigned at read
  dsimp only at read
  intro c member
  rw [← List.takeWhile_append_dropWhile (p := Char.isDigit) (l := chars)] at member
  split at read
  · cases read
  · rcases List.mem_append.mp member with whole | later
    · exact .inl (List.mem_takeWhile_imp whole)
    · split at read
      · rename_i none
        rw [none] at later
        cases later
      · rename_i point
        rw [point] at later
        split at read
        · rename_i digits
          rcases List.mem_cons.mp later with rfl | part
          · exact .inr (.inl rfl)
          · exact .inl (List.all_eq_true.mp digits.2 c part)
        · cases read
      · cases read

theorem isNumeral_of_read {chars : List Char} {q : ℚ} (success : read chars = some q) :
    ∀ c ∈ chars, IsNumeral c := by
  unfold read at success
  split at success
  · rename_i signed
    obtain ⟨magnitude, unsigned, _⟩ := Option.map_eq_some_iff.mp success
    cases chars with
    | nil => cases signed
    | cons sign digits =>
        cases signed
        intro c member
        rcases List.mem_cons.mp member with rfl | digit
        · exact .inr (.inr rfl)
        · exact isNumeral_of_readUnsigned unsigned c digit
  · exact isNumeral_of_readUnsigned success

theorem readUnsigned_toDigits (n : Nat) : readUnsigned (Nat.toDigits 10 n) = some (n : ℚ) := by
  have digits := @Json.isDigit_of_mem_toDigits n
  unfold readUnsigned
  rw [List.takeWhile_eq_self_iff.mpr digits, List.dropWhile_eq_nil_iff.mpr digits]
  simp [Nat.ofDigitChars_toDigits]

theorem head_toDigits_ne_minus (n : Nat) (rest : List Char) :
    (Nat.toDigits 10 n ++ rest).head? ≠ some '-' := by
  obtain ⟨c, tail, digits, digit⟩ := Json.head_toDigits n rest
  rw [digits]
  rintro ⟨⟩
  exact absurd digit (by decide)

theorem read_writeInt (z : Int) : read (Json.writeInt z) = some (z : ℚ) := by
  cases z with
  | ofNat n =>
      have unsigned := head_toDigits_ne_minus n []
      rw [List.append_nil] at unsigned
      rw [Json.writeInt, read, if_neg unsigned, readUnsigned_toDigits]
      rfl
  | negSucc n =>
      have signed : ('-' :: Nat.toDigits 10 (n + 1)).head? = some '-' := rfl
      rw [Json.writeInt, read, if_pos signed, List.tail_cons, readUnsigned_toDigits,
        Int.cast_negSucc]
      rfl

theorem length_fraction {places part : Nat} (positive : 0 < places) (fits : part < 10 ^ places) :
    (fraction places part).length = places := by
  rw [fraction, List.length_leftpad]
  exact max_eq_left ((Nat.length_toDigits_le_iff (by decide) positive).mpr fits)

theorem isDigit_of_mem_fraction {places part : Nat} :
    ∀ c ∈ fraction places part, c.isDigit = true := by
  intro c member
  rcases List.mem_append.mp member with padding | digit
  · rw [List.eq_of_mem_replicate padding]
    decide
  · exact Json.isDigit_of_mem_toDigits c digit

/-- Zeros in front do not change the value. -/
theorem ofDigitChars_fraction (places part : Nat) :
    Nat.ofDigitChars 10 (fraction places part) 0 = part := by
  rw [fraction, List.leftpad, Nat.ofDigitChars_append, Nat.ofDigitChars_replicate_zero,
    Nat.mul_zero, Nat.ofDigitChars_ten_toDigits]

theorem readUnsigned_fixed (whole : Nat) {places part : Nat} (positive : 0 < places)
    (fits : part < 10 ^ places) :
    readUnsigned (Nat.toDigits 10 whole ++ '.' :: fraction places part) =
      some (((whole * 10 ^ places + part : Nat) : ℚ) / 10 ^ places) := by
  have noDigit : Json.NoDigit ('.' :: fraction places part) := by
    rintro c ⟨⟩
    decide
  have filled : fraction places part ≠ [] := by
    intro empty
    have length := length_fraction positive fits
    rw [empty] at length
    exact positive.ne length
  have digits : (fraction places part).all Char.isDigit = true :=
    List.all_eq_true.mpr isDigit_of_mem_fraction
  have value : Nat.ofDigitChars 10 (Nat.toDigits 10 whole ++ fraction places part) 0 =
      whole * 10 ^ places + part := by
    rw [Nat.ofDigitChars_append, Nat.ofDigitChars_eq_ofDigitChars_zero,
      length_fraction positive fits, Nat.ofDigitChars_ten_toDigits, ofDigitChars_fraction,
      Nat.mul_comm]
  unfold readUnsigned
  rw [List.takeWhile_append_of_pos Json.isDigit_of_mem_toDigits, noDigit.takeWhile_eq_nil,
    List.dropWhile_append_of_pos Json.isDigit_of_mem_toDigits, noDigit.dropWhile_eq_self]
  simp [filled, digits, value, length_fraction positive fits]

theorem head_write_ne_minus (places : Nat) (q : ℚ) : (write places q).head? ≠ some '-' :=
  head_toDigits_ne_minus _ _

/-- The reader finds the multiple of the last place that was written. -/
theorem read_write {places : Nat} (positive : 0 < places) (q : ℚ) :
    read (write places q) = some ((units places q : ℚ) / 10 ^ places) := by
  have fits : units places q % 10 ^ places < 10 ^ places :=
    Nat.mod_lt _ (Nat.pow_pos (by decide))
  have whole := readUnsigned_fixed (units places q / 10 ^ places) positive fits
  rw [Nat.div_add_mod'] at whole
  rw [read, if_neg (head_write_ne_minus places q), write]
  exact whole

theorem units_mono (places : Nat) {p q : ℚ} (le : p ≤ q) : units places p ≤ units places q := by
  apply Int.toNat_le_toNat
  apply Binary64.nearestInt_mono
  gcongr

theorem units_one (places : Nat) : units places 1 = 10 ^ places := by
  have whole := Binary64.nearestInt_intCast ((10 ^ places : Nat) : Int)
  push_cast at whole
  rw [units, one_mul, whole]
  exact Int.toNat_natCast _

/-- The text is off by at most half a unit of the last place. -/
theorem abs_units_sub_le (places : Nat) {q : ℚ} (nonnegative : 0 ≤ q) :
    |(units places q : ℚ) / 10 ^ places - q| ≤ 1 / 2 / 10 ^ places := by
  have scale : (0 : ℚ) < 10 ^ places := by positivity
  have natural : ((units places q : Int) : ℚ) = Binary64.nearestInt (q * 10 ^ places) := by
    have least := Binary64.nearestInt_mono (mul_nonneg nonnegative scale.le)
    have zero := Binary64.nearestInt_intCast 0
    rw [Int.cast_zero] at zero
    rw [units, Int.toNat_of_nonneg (zero ▸ least)]
  have near := Binary64.abs_nearestInt_sub_le (q * 10 ^ places)
  rw [← natural, Int.cast_natCast] at near
  rw [div_sub' scale.ne', abs_div, abs_of_pos scale, mul_comm _ q]
  gcongr

end Decimal
