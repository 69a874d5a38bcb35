/-
Module: WebhookProcessor.Json.Text
Layer: Json
Purpose: JSON texts.  A writer without blanks, and a reader that gives every written value back.
  Numbers are written exactly, which a decimal text can do for every number whose denominator
  divides a power of ten.
Trusted boundary: none
Main exports: write, read, Terminating, render, parse, parse_render
-/
import Mathlib.Algebra.Order.Field.Rat
import Mathlib.Data.Nat.Prime.Basic
import Mathlib.Tactic.FieldSimp
import Mathlib.Tactic.NormNum
import WebhookProcessor.Json.Value

namespace Json

/-! ### Numbers -/

def writeInt : Int → List Char
  | .ofNat n => Nat.toDigits 10 n
  | .negSucc n => '-' :: Nat.toDigits 10 (n + 1)

/-- The decimal expansion ends. -/
def Terminating (q : ℚ) : Prop :=
  ∃ places, q.den ∣ 10 ^ places

/-- Enough places after the point for a terminating expansion. -/
def places (q : ℚ) : Nat :=
  Nat.log2 q.den

/-- The number without its point. -/
def scaled (q : ℚ) : Int :=
  q.num * (10 ^ places q / q.den : Nat)

/-- A terminating number as an integer scaled by a power of ten. -/
def writeNumber (q : ℚ) : List Char :=
  writeInt (scaled q) ++
    if places q = 0 then [] else 'e' :: writeInt (-places q)

def readNat (chars : List Char) : Option (Nat × List Char) :=
  let digits := chars.takeWhile Char.isDigit
  if digits = [] then none
  else some (Nat.ofDigitChars 10 digits 0, chars.dropWhile Char.isDigit)

def readInt (chars : List Char) : Option (Int × List Char) :=
  if chars.head? = some '-' then
    (readNat chars.tail).map fun read => (-(read.1 : Int), read.2)
  else (readNat chars).map fun read => ((read.1 : Int), read.2)

def readNumber (chars : List Char) : Option (ℚ × List Char) :=
  (readInt chars).bind fun mantissa =>
    if mantissa.2.head? = some 'e' then
      (readInt mantissa.2.tail).map fun exponent =>
        (mantissa.1 * (10 : ℚ) ^ exponent.1, exponent.2)
    else some (mantissa.1, mantissa.2)

/-! ### Strings -/

def escape (c : Char) : List Char :=
  if c = '"' ∨ c = '\\' then ['\\', c]
  else if c.toNat < 32 then
    ['\\', 'u', '0', '0', Nat.digitChar (c.toNat / 16), Nat.digitChar (c.toNat % 16)]
  else [c]

def writeString (text : String) : List Char :=
  '"' :: text.toList.flatMap escape ++ ['"']

def hexValue (c : Char) : Nat :=
  if c.isDigit then c.toNat - '0'.toNat else c.toNat - 'a'.toNat + 10

/-- The characters up to the closing quote. -/
def readChars : List Char → Option (List Char × List Char)
  | [] => none
  | '"' :: rest => some ([], rest)
  | '\\' :: 'u' :: '0' :: '0' :: high :: low :: rest =>
      (readChars rest).map fun read =>
        (Char.ofNat (hexValue high * 16 + hexValue low) :: read.1, read.2)
  | '\\' :: c :: rest =>
      if c = '"' ∨ c = '\\' then (readChars rest).map fun read => (c :: read.1, read.2) else none
  | c :: rest => (readChars rest).map fun read => (c :: read.1, read.2)

/-! ### Values -/

/-- What stands between a member or an item and the rest of its list. -/
def separator {kind : Kind} : Tree kind → List Char
  | .noItem | .noMember => []
  | _ => [',']

/-- The text of a value; a list is written with its closing bracket. -/
def write {kind : Kind} : Tree kind → List Char
  | .null => ['n', 'u', 'l', 'l']
  | .bool true => ['t', 'r', 'u', 'e']
  | .bool false => ['f', 'a', 'l', 's', 'e']
  | .number value => writeNumber value
  | .string text => writeString text
  | .array items => '[' :: write items
  | .object members => '\x7b' :: write members
  | .noItem => [']']
  | .item head tail => write head ++ separator tail ++ write tail
  | .noMember => ['\x7d']
  | .member key value rest =>
      writeString key ++ ':' :: write value ++ separator rest ++ write rest

/-- Read one tree of the given category; `fuel` bounds the nesting and the lengths of lists. -/
def read : Nat → (kind : Kind) → List Char → Option (Tree kind × List Char)
  | 0, _, _ => none
  | _, _, [] => none
  | fuel + 1, .value, c :: rest =>
      if c = '-' ∨ c.isDigit then
        (readNumber (c :: rest)).map fun read => (.number read.1, read.2)
      else
        match c :: rest with
        | 'n' :: 'u' :: 'l' :: 'l' :: rest => some (.null, rest)
        | 't' :: 'r' :: 'u' :: 'e' :: rest => some (.bool true, rest)
        | 'f' :: 'a' :: 'l' :: 's' :: 'e' :: rest => some (.bool false, rest)
        | '"' :: rest =>
            (readChars rest).map fun read => (.string (String.ofList read.1), read.2)
        | '[' :: rest => (read fuel .items rest).map fun read => (.array read.1, read.2)
        | '\x7b' :: rest => (read fuel .members rest).map fun read => (.object read.1, read.2)
        | _ => none
  | fuel + 1, .items, c :: rest =>
      if c = ']' then some (.noItem, rest)
      else
        (read fuel .value (c :: rest)).bind fun head =>
          match head.2 with
          | ',' :: rest =>
              (read fuel .items rest).bind fun tail =>
                if tail.1 = .noItem then none else some (.item head.1 tail.1, tail.2)
          | ']' :: rest => some (.item head.1 .noItem, rest)
          | _ => none
  | fuel + 1, .members, c :: rest =>
      if c = '\x7d' then some (.noMember, rest)
      else if c = '"' then
        (readChars rest).bind fun key =>
          match key.2 with
          | ':' :: rest =>
              (read fuel .value rest).bind fun value =>
                match value.2 with
                | ',' :: rest =>
                    (read fuel .members rest).bind fun tail =>
                      if tail.1 = .noMember then none
                      else some (.member (String.ofList key.1) value.1 tail.1, tail.2)
                | '\x7d' :: rest =>
                    some (.member (String.ofList key.1) value.1 .noMember, rest)
                | _ => none
          | _ => none
      else none

def render (value : Value) : String :=
  String.ofList (write value)

def parse (text : String) : Option Value :=
  match read (2 * text.toList.length) .value text.toList with
  | some (value, []) => some value
  | _ => none

/-! ### Numbers are read as they were written -/

/-- No digit follows. -/
def NoDigit (rest : List Char) : Prop :=
  ∀ c ∈ rest.head?, c.isDigit = false

/-- What may follow a number: neither a digit nor an exponent. -/
def Ends (rest : List Char) : Prop :=
  NoDigit rest ∧ rest.head? ≠ some 'e'

theorem NoDigit.takeWhile_eq_nil {rest : List Char} (noDigit : NoDigit rest) :
    rest.takeWhile Char.isDigit = [] := by
  cases rest with
  | nil => rfl
  | cons c rest => simp [noDigit c rfl]

theorem NoDigit.dropWhile_eq_self {rest : List Char} (noDigit : NoDigit rest) :
    rest.dropWhile Char.isDigit = rest := by
  cases rest with
  | nil => rfl
  | cons c rest => simp [noDigit c rfl]

theorem isDigit_of_mem_toDigits {n : Nat} : ∀ c ∈ Nat.toDigits 10 n, c.isDigit = true := by
  intro c member
  exact Nat.isDigit_of_mem_toDigits (by decide) (by decide) member

theorem readNat_toDigits (n : Nat) {rest : List Char} (noDigit : NoDigit rest) :
    readNat (Nat.toDigits 10 n ++ rest) = some (n, rest) := by
  unfold readNat
  rw [List.takeWhile_append_of_pos isDigit_of_mem_toDigits, noDigit.takeWhile_eq_nil,
    List.dropWhile_append_of_pos isDigit_of_mem_toDigits, noDigit.dropWhile_eq_self]
  simp [Nat.ofDigitChars_toDigits]

theorem head_toDigits (n : Nat) (rest : List Char) :
    ∃ c tail, Nat.toDigits 10 n ++ rest = c :: tail ∧ c.isDigit = true := by
  cases digits : Nat.toDigits 10 n with
  | nil => exact absurd digits (by simp)
  | cons c tail =>
      refine ⟨c, tail ++ rest, rfl, ?_⟩
      exact isDigit_of_mem_toDigits c (digits ▸ List.mem_cons_self)

theorem head_writeInt (z : Int) (rest : List Char) :
    ∃ c tail, writeInt z ++ rest = c :: tail ∧ (c = '-' ∨ c.isDigit = true) := by
  cases z with
  | ofNat n =>
      obtain ⟨c, tail, digits, digit⟩ := head_toDigits n rest
      exact ⟨c, tail, digits, .inr digit⟩
  | negSucc n => exact ⟨'-', Nat.toDigits 10 (n + 1) ++ rest, rfl, .inl rfl⟩

theorem readInt_writeInt (z : Int) {rest : List Char} (noDigit : NoDigit rest) :
    readInt (writeInt z ++ rest) = some (z, rest) := by
  cases z with
  | ofNat n =>
      obtain ⟨c, tail, digits, digit⟩ := head_toDigits n rest
      have unsigned : (Nat.toDigits 10 n ++ rest).head? ≠ some '-' := by
        rw [digits]
        rintro ⟨⟩
        exact absurd digit (by decide)
      rw [writeInt, readInt, if_neg unsigned, readNat_toDigits n noDigit]
      rfl
  | negSucc n =>
      have signed : ('-' :: Nat.toDigits 10 (n + 1) ++ rest).head? = some '-' := rfl
      rw [writeInt, readInt, if_pos signed, List.cons_append, List.tail_cons,
        readNat_toDigits (n + 1) noDigit]
      rfl

/-- A factor of a power of ten has at most as many twos and fives as bits. -/
theorem Terminating.den_dvd {q : ℚ} (terminating : Terminating q) : q.den ∣ 10 ^ places q := by
  obtain ⟨digits, divides⟩ := terminating
  have tens : ∀ n, 10 ^ n = 2 ^ n * 5 ^ n := fun n => Nat.mul_pow 2 5 n
  rw [tens] at divides
  obtain ⟨even, odd, twos, fives, product⟩ := (Nat.dvd_mul).mp divides
  obtain ⟨i, _, rfl⟩ := (Nat.dvd_prime_pow Nat.prime_two).mp twos
  obtain ⟨j, _, rfl⟩ := (Nat.dvd_prime_pow Nat.prime_five).mp fives
  have bits : ∀ n, 2 ^ n ≤ q.den → n ≤ places q := by
    intro n small
    exact (Nat.le_log2 q.den_nz).mpr small
  have evenBits : i ≤ places q := by
    apply bits
    rw [← product]
    exact Nat.le_mul_of_pos_right _ (by positivity)
  have oddBits : j ≤ places q := by
    apply bits
    rw [← product]
    calc 2 ^ j ≤ 5 ^ j := Nat.pow_le_pow_left (by decide) j
      _ ≤ 2 ^ i * 5 ^ j := Nat.le_mul_of_pos_left _ (by positivity)
  rw [← product, tens]
  exact Nat.mul_dvd_mul (pow_dvd_pow 2 evenBits) (pow_dvd_pow 5 oddBits)

/-- The scaled integer has the value of the number. -/
theorem Terminating.scaled_eq {q : ℚ} (terminating : Terminating q) :
    (scaled q : ℚ) * 10 ^ (-(places q : Int)) = q := by
  obtain ⟨factor, tens⟩ := terminating.den_dvd
  have nonzero : (q.den : ℚ) ≠ 0 := Nat.cast_ne_zero.mpr q.den_nz
  have power : (10 : ℚ) ^ places q = q.den * factor := by exact_mod_cast tens
  have whole : (factor : ℚ) ≠ 0 := by
    intro zero
    rw [zero, mul_zero] at power
    exact absurd power (by positivity)
  rw [scaled, tens, Nat.mul_div_cancel_left _ q.den_pos, zpow_neg, zpow_natCast, power]
  push_cast
  field_simp
  rw [mul_comm, Rat.mul_den_eq_num]

theorem readNumber_writeNumber {q : ℚ} (terminating : Terminating q) {rest : List Char}
    (ends : Ends rest) : readNumber (writeNumber q ++ rest) = some (q, rest) := by
  have value := terminating.scaled_eq
  unfold writeNumber readNumber
  by_cases whole : places q = 0
  · simp only [whole, if_true, List.append_nil, readInt_writeInt _ ends.1, Option.bind_some,
      if_neg ends.2]
    rw [whole] at value
    simpa using value
  · have noDigit : NoDigit ('e' :: writeInt (-(places q : Int)) ++ rest) := by
      rintro c ⟨⟩
      decide
    simp only [if_neg whole, List.append_assoc, readInt_writeInt _ noDigit, Option.bind_some]
    simp only [List.cons_append, List.head?_cons, if_true, List.tail_cons,
      readInt_writeInt _ ends.1, Option.map_some, value]

/-! ### Strings are read as they were written -/

theorem hexValue_digitChar : ∀ digit < 16, hexValue (Nat.digitChar digit) = digit := by
  decide

theorem readChars_escape (c : Char) (rest : List Char) :
    readChars (escape c ++ rest) = (readChars rest).map fun read => (c :: read.1, read.2) := by
  unfold escape
  split
  · next quoted =>
      rcases quoted with rfl | rfl
      · rfl
      · rfl
  · next plain =>
      split
      · next control =>
          have value : Char.ofNat (c.toNat / 16 * 16 + c.toNat % 16) = c := by
            rw [Nat.div_add_mod', Char.ofNat_toNat]
          have high := hexValue_digitChar (c.toNat / 16) (by omega)
          have low := hexValue_digitChar (c.toNat % 16) (by omega)
          simp only [List.cons_append, List.nil_append, readChars, high, low, value]
      · obtain ⟨notQuote, notEscape⟩ := not_or.mp plain
        rw [List.singleton_append, readChars]
        · exact notQuote
        · exact fun _ _ _ equal _ => notEscape equal
        · exact fun _ _ equal _ => notEscape equal

theorem readChars_escaped (text : List Char) (rest : List Char) :
    readChars (text.flatMap escape ++ '"' :: rest) = some (text, rest) := by
  induction text with
  | nil => rfl
  | cons c text inductionHypothesis =>
      rw [List.flatMap_cons, List.append_assoc, readChars_escape, inductionHypothesis]
      rfl

theorem writeString_append (text : String) (rest : List Char) :
    writeString text ++ rest = '"' :: (text.toList.flatMap escape ++ '"' :: rest) := by
  simp [writeString]

/-! ### Values are read as they were written -/

def size {kind : Kind} : Tree kind → Nat
  | .null | .bool _ | .number _ | .string _ | .noItem | .noMember => 1
  | .array items => size items + 1
  | .object members => size members + 1
  | .item head tail => size head + size tail + 1
  | .member _ value rest => size value + size rest + 1

theorem ends_nil : Ends [] := by
  constructor
  · rintro c ⟨⟩
  · rintro ⟨⟩

theorem ends_cons {c : Char} {rest : List Char} (noDigit : c.isDigit = false) (plain : c ≠ 'e') :
    Ends (c :: rest) := by
  constructor
  · rintro _ ⟨⟩
    exact noDigit
  · rintro ⟨⟩
    exact plain rfl

theorem ends_items (tail : Items) (rest : List Char) :
    Ends (separator tail ++ (write tail ++ rest)) := by
  cases tail with
  | noItem => exact ends_cons (by decide) (by decide)
  | item head tail => exact ends_cons (by decide) (by decide)

theorem ends_members (tail : Members) (rest : List Char) :
    Ends (separator tail ++ (write tail ++ rest)) := by
  cases tail with
  | noMember => exact ends_cons (by decide) (by decide)
  | member key value tail => exact ends_cons (by decide) (by decide)

theorem read_number {fuel : Nat} {q : ℚ} (terminating : Terminating q) {rest : List Char}
    (ends : Ends rest) :
    read (fuel + 1) .value (writeNumber q ++ rest) = some (.number q, rest) := by
  have whole := readNumber_writeNumber terminating ends
  obtain ⟨c, tail, written, first⟩ : ∃ c tail, writeNumber q ++ rest = c :: tail ∧
      (c = '-' ∨ c.isDigit = true) := by
    rw [writeNumber, List.append_assoc]
    exact head_writeInt _ _
  rw [written] at whole ⊢
  rw [read, if_pos first, whole]
  rfl

theorem read_string {fuel : Nat} (text : String) (rest : List Char) :
    read (fuel + 1) .value (writeString text ++ rest) = some (.string text, rest) := by
  have whole := readChars_escaped text.toList rest
  rw [writeString_append, read, if_neg (by decide)]
  simp [whole]

/-- An item is read, and then the rest of the list or its closing bracket. -/
theorem read_item {fuel : Nat} {head : Value} {chars rest : List Char} {tail : Items}
    (first : read fuel .value chars = some (head, separator tail ++ (write tail ++ rest)))
    (later : read fuel .items (write tail ++ rest) = some (tail, rest)) :
    read (fuel + 1) .items chars = some (.item head tail, rest) := by
  -- a value starts with no closing bracket
  obtain ⟨c, others, rfl, opens⟩ : ∃ c others, chars = c :: others ∧ c ≠ ']' := by
    cases chars with
    | nil => cases fuel with
      | zero => cases first
      | succ fuel => cases first
    | cons c others =>
        refine ⟨c, others, rfl, ?_⟩
        rintro rfl
        cases fuel with
        | zero => cases first
        | succ fuel => cases first
  rw [read, if_neg opens, first]
  cases tail with
  | noItem => rfl
  | item next tail =>
      simp [separator, later]

/-- A member is read, and then the rest of the list or its closing bracket. -/
theorem read_member {fuel : Nat} {key : String} {value : Value} {chars rest : List Char}
    {tail : Members}
    (first : read fuel .value chars = some (value, separator tail ++ (write tail ++ rest)))
    (later : read fuel .members (write tail ++ rest) = some (tail, rest)) :
    read (fuel + 1) .members (writeString key ++ ':' :: chars) =
      some (.member key value tail, rest) := by
  have whole := readChars_escaped key.toList (':' :: chars)
  rw [writeString_append, read, if_neg (by decide), if_pos rfl, whole, Option.bind_some]
  simp only [first, Option.bind_some, String.ofList_toList]
  cases tail with
  | noMember => rfl
  | member next other tail => simp [separator, later]

theorem read_write {kind : Kind} (tree : Tree kind) {fuel : Nat} (enough : size tree ≤ fuel)
    (terminating : tree.All Terminating) {rest : List Char} (ends : Ends rest) :
    read fuel kind (write tree ++ rest) = some (tree, rest) := by
  induction tree generalizing fuel rest with
  | null | noItem | noMember =>
      obtain ⟨fuel, rfl⟩ := Nat.exists_eq_add_of_le' enough
      rfl
  | bool value =>
      obtain ⟨fuel, rfl⟩ := Nat.exists_eq_add_of_le' enough
      cases value with
      | false => rfl
      | true => rfl
  | number value =>
      obtain ⟨fuel, rfl⟩ := Nat.exists_eq_add_of_le' enough
      exact read_number terminating ends
  | string text =>
      obtain ⟨fuel, rfl⟩ := Nat.exists_eq_add_of_le' enough
      exact read_string text rest
  | array items inductionHypothesis =>
      obtain ⟨fuel, rfl⟩ := Nat.exists_eq_add_of_le' enough
      have inner := inductionHypothesis (Nat.le_add_left _ fuel) terminating ends
      show (read (fuel + size items) .items (write items ++ rest)).map _ = _
      rw [inner]
      rfl
  | object members inductionHypothesis =>
      obtain ⟨fuel, rfl⟩ := Nat.exists_eq_add_of_le' enough
      have inner := inductionHypothesis (Nat.le_add_left _ fuel) terminating ends
      show (read (fuel + size members) .members (write members ++ rest)).map _ = _
      rw [inner]
      rfl
  | item head tail headHypothesis tailHypothesis =>
      obtain ⟨fuel, rfl⟩ := Nat.exists_eq_add_of_le' enough
      have headFits : size head ≤ fuel + (size head + size tail) := by omega
      have tailFits : size tail ≤ fuel + (size head + size tail) := by omega
      rw [write, List.append_assoc, List.append_assoc]
      apply read_item
      · exact headHypothesis headFits terminating.1 (ends_items tail rest)
      · exact tailHypothesis tailFits terminating.2 ends
  | member key value tail valueHypothesis tailHypothesis =>
      obtain ⟨fuel, rfl⟩ := Nat.exists_eq_add_of_le' enough
      have valueFits : size value ≤ fuel + (size value + size tail) := by omega
      have tailFits : size tail ≤ fuel + (size value + size tail) := by omega
      simp only [write, List.append_assoc, List.cons_append]
      apply read_member
      · exact valueHypothesis valueFits terminating.1 (ends_members tail rest)
      · exact tailHypothesis tailFits terminating.2 ends

theorem writeInt_ne_nil (z : Int) : writeInt z ≠ [] := by
  cases z with
  | ofNat n => simp [writeInt]
  | negSucc n => simp [writeInt]

/-- The reader's fuel covers every written value. -/
theorem size_lt_length {kind : Kind} (tree : Tree kind) :
    size tree + 1 ≤ 2 * (write tree).length := by
  induction tree with
  | null | noItem | noMember => simp [size, write]
  | bool value =>
      cases value with
      | false => simp [size, write]
      | true => simp [size, write]
  | number value =>
      have nonempty := List.length_pos_iff.mpr (writeInt_ne_nil (scaled value))
      simp only [size, write, writeNumber, List.length_append]
      omega
  | string text =>
      simp only [size, write, writeString, List.length_append, List.length_cons]
      omega
  | array items inductionHypothesis | object items inductionHypothesis =>
      simp only [size, write, List.length_cons]
      omega
  | item head tail headHypothesis tailHypothesis =>
      simp only [size, write, List.length_append]
      omega
  | member key value tail valueHypothesis tailHypothesis =>
      simp only [size, write, List.length_append, List.length_cons]
      omega

theorem parse_render {value : Value} (terminating : value.All Terminating) :
    parse (render value) = some value := by
  have bound := size_lt_length value
  have whole : read (2 * (write value).length) .value (write value ++ []) = some (value, []) :=
    read_write value (by omega) terminating ends_nil
  rw [List.append_nil] at whole
  rw [parse, render, String.toList_ofList, whole]

end Json
