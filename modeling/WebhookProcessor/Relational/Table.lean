/-
Module: WebhookProcessor.Relational.Table
Layer: Relational
Purpose: Finite relations under a uniqueness constraint, with the row-wise statements that keep
  it: guarded insert, conditional update and upsert. A table carries the proof that no two of its
  rows clash on their keys, so a statement that would break the constraint cannot be written down.
  `lookup` reads the row a key predicate selects; the lemmas say what each statement does to every
  lookup, which is all that later modules need to know about tables.
Trusted boundary: none
Main exports: Table, Table.insert, Table.updateWhere, Table.upsert, Table.lookup,
  Table.lookup_updateWhere, Table.lookup_insert, Table.lookup_upsert, Table.lookup_of_mem,
  Table.countWhere, Table.length_le_countWhere, map_cases, map_ite_cases
-/
import Mathlib.Data.List.Sort
import Mathlib.Logic.Function.Basic

namespace Relational

variable {ρ κ : Type*} {key : ρ → κ} {clash : κ → κ → Prop}

/-- To show a property of an assigned lookup, show it of the lookup as it was and of the row found
after the assignment. -/
theorem map_cases {motive : Option ρ → Prop} {found : Option ρ} {f : ρ → ρ}
    (unchanged : motive found) (assigned : ∀ row, found = some row → motive (some (f row))) :
    motive (found.map f) := by
  cases found with
  | none => exact unchanged
  | some row => exact assigned row rfl

/-- The same for a conditional assignment, which also keeps the rows that miss the condition. -/
theorem map_ite_cases {motive : Option ρ → Prop} {found : Option ρ} {p : ρ → Prop}
    [DecidablePred p] {f : ρ → ρ} (unchanged : motive found)
    (assigned : ∀ row, found = some row → p row → motive (some (f row))) :
    motive (found.map fun row => if p row then f row else row) := by
  refine map_cases unchanged ?_
  rintro row rfl
  split
  · rename_i selected
    exact assigned row rfl selected
  · exact unchanged

/-- With unique keys, a key selects the one row that has it. -/
theorem filter_key_eq_singleton [DecidableEq κ] {rows : List ρ} (unique : (rows.map key).Nodup)
    {row : ρ} (member : row ∈ rows) :
    (rows.filter fun other => key other = key row) = [row] := by
  induction rows with
  | nil => cases member
  | cons head rest inductionHypothesis =>
      obtain ⟨fresh, restUnique⟩ := List.nodup_cons.mp unique
      rcases List.mem_cons.mp member with rfl | later
      · have none : (rest.filter fun other => key other = key row) = [] := by
          apply List.filter_eq_nil_iff.mpr
          intro other otherMember
          simp only [decide_eq_true_eq]
          intro same
          exact fresh (same ▸ List.mem_map_of_mem otherMember)
        simp [none]
      · have apart : key head ≠ key row := fun same => fresh (same ▸ List.mem_map_of_mem later)
        simp [apart, inductionHypothesis restUnique later]

/-- A finite relation whose rows are pairwise free of key clashes.  With `clash` equality this is
a primary key; several uniqueness constraints are one disjunctive `clash`. -/
structure Table (key : ρ → κ) (clash : κ → κ → Prop) where
  rows : List ρ
  unique : rows.Pairwise fun first second => ¬ clash (key first) (key second)

namespace Table

/-- The relation without rows. -/
def empty : Table key clash :=
  { rows := []
    unique := List.Pairwise.nil }

/-- `UPDATE ... SET f WHERE p`.  The assignment must leave the constrained columns alone. -/
def updateWhere (table : Table key clash) (p : ρ → Prop) [DecidablePred p] (f : ρ → ρ)
    (keeps : ∀ row, key (f row) = key row) : Table key clash :=
  { rows := table.rows.map fun row => if p row then f row else row
    unique := by
      rw [List.pairwise_map]
      refine table.unique.imp ?_
      intro first second apart
      have keyOf : ∀ row, key (if p row then f row else row) = key row := by
        intro row
        split
        · exact keeps row
        · rfl
      rwa [keyOf, keyOf] }

theorem updateWhere_eq_self (table : Table key clash) {p : ρ → Prop} [DecidablePred p] {f : ρ → ρ}
    {keeps : ∀ row, key (f row) = key row} (unmatched : ∀ row ∈ table.rows, ¬ p row) :
    table.updateWhere p f keeps = table := by
  have unchanged : (table.rows.map fun row => if p row then f row else row) = table.rows := by
    calc (table.rows.map fun row => if p row then f row else row) = table.rows.map id :=
          List.map_congr_left fun row member => if_neg (unmatched row member)
      _ = table.rows := List.map_id _
  cases table
  simpa only [updateWhere, mk.injEq] using unchanged

/-- No row of the table clashes with `row`. -/
def Admits (table : Table key clash) (row : ρ) : Prop :=
  ∀ old ∈ table.rows, ¬ clash (key old) (key row)

instance [DecidableRel clash] (table : Table key clash) (row : ρ) :
    Decidable (table.Admits row) :=
  inferInstanceAs (Decidable (∀ old ∈ table.rows, ¬ clash (key old) (key row)))

/-- Append a row that the constraint admits. -/
def append (table : Table key clash) (row : ρ) (admits : table.Admits row) : Table key clash :=
  { rows := table.rows ++ [row]
    unique := by
      rw [List.pairwise_append]
      refine ⟨table.unique, List.pairwise_singleton _ _, ?_⟩
      intro old member new single
      rw [List.mem_singleton] at single
      subst single
      exact admits old member }

/-- `INSERT ... ON CONFLICT DO NOTHING`. -/
def insert [DecidableRel clash] (table : Table key clash) (row : ρ) : Table key clash :=
  if admits : table.Admits row then table.append row admits else table

/-- `INSERT ... ON CONFLICT DO UPDATE`: the rows that clash with the new one are assigned by
`merge`, and the new row is appended only when there are none. -/
def upsert [DecidableRel clash] (table : Table key clash) (row : ρ) (merge : ρ → ρ)
    (keeps : ∀ old, key (merge old) = key old) : Table key clash :=
  if admits : table.Admits row then table.append row admits
  else table.updateWhere (fun old => clash (key old) (key row)) merge keeps

/-- The first row whose key satisfies `q`. -/
def lookup (table : Table key clash) (q : κ → Prop) [DecidablePred q] : Option ρ :=
  table.rows.find? fun row => q (key row)

section Lookup

variable (table : Table key clash) (q : κ → Prop) [DecidablePred q]

theorem mem_of_lookup {row : ρ} (found : table.lookup q = some row) : row ∈ table.rows :=
  List.mem_of_find?_eq_some found

theorem key_of_lookup {row : ρ} (found : table.lookup q = some row) : q (key row) := by
  have selected := List.find?_some found
  simpa using selected

theorem lookup_eq_none_iff : table.lookup q = none ↔ ∀ row ∈ table.rows, ¬ q (key row) := by
  simp [lookup, List.find?_eq_none]

/-- An update acts on every lookup as it acts on the row found. -/
@[simp] theorem lookup_updateWhere (p : ρ → Prop) [DecidablePred p] (f : ρ → ρ)
    (keeps : ∀ row, key (f row) = key row) :
    (table.updateWhere p f keeps).lookup q =
      (table.lookup q).map fun row => if p row then f row else row := by
  have keyOf : ∀ row, key (if p row then f row else row) = key row := by
    intro row
    split
    · exact keeps row
    · rfl
  simp only [lookup, updateWhere, List.find?_map]
  congr 2
  funext row
  simp [Function.comp, keyOf]

/-- Appending a row changes only the lookups that found nothing before. -/
@[simp] theorem lookup_append (row : ρ) (admits : table.Admits row) :
    (table.append row admits).lookup q =
      (table.lookup q).or (if q (key row) then some row else none) := by
  simp only [lookup, append, List.find?_append, List.find?_singleton, decide_eq_true_eq]

theorem lookup_insert [DecidableRel clash] (row : ρ) :
    (table.insert row).lookup q =
      (table.lookup q).or (if table.Admits row ∧ q (key row) then some row else none) := by
  unfold insert
  split
  · rename_i admits
    simp [admits]
  · rename_i refused
    simp [refused]

theorem lookup_upsert [DecidableRel clash] (row : ρ) (merge : ρ → ρ)
    (keeps : ∀ old, key (merge old) = key old) :
    (table.upsert row merge keeps).lookup q =
      ((table.lookup q).map fun old => if clash (key old) (key row) then merge old else old).or
        (if table.Admits row ∧ q (key row) then some row else none) := by
  unfold upsert
  split
  · rename_i admits
    have untouched : (table.lookup q).map
        (fun old => if clash (key old) (key row) then merge old else old) = table.lookup q := by
      cases found : table.lookup q with
      | none => rfl
      | some old =>
          have apart := admits old (table.mem_of_lookup q found)
          simp [apart]
    simp [untouched, admits]
  · rename_i refused
    simp [refused]

omit [DecidablePred q] in
/-- A key predicate that selects only clashing keys selects at most one row of the table. -/
theorem eq_of_selective (selective : ∀ first second, q first → q second → clash first second)
    {first second : ρ} (firstMember : first ∈ table.rows) (secondMember : second ∈ table.rows)
    (firstKey : q (key first)) (secondKey : q (key second)) : first = second := by
  obtain ⟨i, iBound, rfl⟩ := List.mem_iff_getElem.mp firstMember
  obtain ⟨j, jBound, rfl⟩ := List.mem_iff_getElem.mp secondMember
  have apart := List.pairwise_iff_getElem.mp table.unique
  rcases Nat.lt_trichotomy i j with before | same | after
  · exact absurd (selective _ _ firstKey secondKey) (apart i j iBound jBound before)
  · subst same
    rfl
  · exact absurd (selective _ _ secondKey firstKey) (apart j i jBound iBound after)

/-- A selective lookup finds the row it selects. -/
theorem lookup_of_mem (selective : ∀ first second, q first → q second → clash first second)
    {row : ρ} (member : row ∈ table.rows) (selected : q (key row)) :
    table.lookup q = some row := by
  cases found : table.lookup q with
  | none =>
      have missed := (table.lookup_eq_none_iff q).mp found row member
      exact absurd selected missed
  | some other =>
      have same := table.eq_of_selective q selective (table.mem_of_lookup q found) member
        (table.key_of_lookup q found) selected
      rw [same]

end Lookup

section PrimaryKey

variable (keyed : Table key (Eq : κ → κ → Prop)) [DecidableEq κ]

/-- Under a primary key, an insert is visible exactly where the key was free. -/
theorem lookup_insert_eq (row : ρ) (k : κ) :
    (keyed.insert row).lookup (· = k) =
      (keyed.lookup (· = k)).or (if key row = k then some row else none) := by
  rw [lookup_insert]
  cases found : keyed.lookup (· = k) with
  | some old => rfl
  | none =>
      by_cases same : key row = k
      · have admits : keyed.Admits row := by
          intro old member equal
          exact (keyed.lookup_eq_none_iff (· = k)).mp found old member (equal.trans same)
        simp [admits, same]
      · simp [same]

/-- Under a primary key, an upsert assigns the row that was there or inserts the new one. -/
theorem lookup_upsert_eq (row : ρ) (merge : ρ → ρ) (keeps : ∀ old, key (merge old) = key old)
    (k : κ) :
    (keyed.upsert row merge keeps).lookup (· = k) =
      if key row = k then some ((keyed.lookup (· = k)).elim row merge)
      else keyed.lookup (· = k) := by
  rw [lookup_upsert]
  cases found : keyed.lookup (· = k) with
  | some old =>
      have oldKey : key old = k := keyed.key_of_lookup (· = k) found
      by_cases same : key row = k
      · simp [same, oldKey]
      · have apart : ¬ k = key row := fun equal => same equal.symm
        simp [same, oldKey, apart]
  | none =>
      by_cases same : key row = k
      · have admits : keyed.Admits row := by
          intro old member equal
          exact (keyed.lookup_eq_none_iff (· = k)).mp found old member (equal.trans same)
        simp [admits, same]
      · simp [same]

/-- Under a primary key, an update restricted to one key acts on that key's lookup only. -/
theorem lookup_updateWhere_eq (p : ρ → Prop) [DecidablePred p] (f : ρ → ρ)
    (keeps : ∀ row, key (f row) = key row) (target k : κ) :
    (keyed.updateWhere (fun row => key row = target ∧ p row) f keeps).lookup (· = k) =
      if k = target then (keyed.lookup (· = k)).map fun row => if p row then f row else row
      else keyed.lookup (· = k) := by
  rw [lookup_updateWhere]
  cases found : keyed.lookup (· = k) with
  | none => simp
  | some row =>
      have rowKey : key row = k := keyed.key_of_lookup (· = k) found
      by_cases same : k = target
      · simp [rowKey, same]
      · simp [rowKey, same]

theorem lookup_updateWhere_key (f : ρ → ρ) (keeps : ∀ row, key (f row) = key row)
    (target k : κ) :
    (keyed.updateWhere (fun row => key row = target) f keeps).lookup (· = k) =
      if k = target then (keyed.lookup (· = k)).map f else keyed.lookup (· = k) := by
  rw [lookup_updateWhere]
  cases found : keyed.lookup (· = k) with
  | none => simp
  | some row =>
      have rowKey : key row = k := keyed.key_of_lookup (· = k) found
      by_cases same : k = target
      · simp [rowKey, same]
      · simp [rowKey, same]

/-- What an upsert leaves: the row it has written, and every row with another key. -/
theorem rows_upsert_perm (row : ρ) (merge : ρ → ρ) (keeps : ∀ old, key (merge old) = key old) :
    ∃ written, (keyed.upsert row merge keeps).rows.Perm
        (written :: keyed.rows.filter fun old => key old ≠ key row) ∧
      ((written = row ∧ ∀ old ∈ keyed.rows, key old ≠ key row) ∨
        ∃ old ∈ keyed.rows, key old = key row ∧ written = merge old) := by
  by_cases admits : keyed.Admits row
  · refine ⟨row, ?_, Or.inl ⟨rfl, admits⟩⟩
    have all : (keyed.rows.filter fun old => key old ≠ key row) = keyed.rows :=
      List.filter_eq_self.mpr fun old member => decide_eq_true (admits old member)
    rw [upsert, dif_pos admits, all]
    exact List.perm_append_singleton row keyed.rows
  · have clashes : ∃ old ∈ keyed.rows, key old = key row := by
      simpa [Admits] using admits
    obtain ⟨old, member, same⟩ := clashes
    refine ⟨merge old, ?_, Or.inr ⟨old, member, same, rfl⟩⟩
    rw [upsert, dif_neg admits]
    obtain ⟨earlier, later, split⟩ := List.append_of_mem member
    have unique := keyed.unique
    rw [split, List.pairwise_append, List.pairwise_cons] at unique
    have othersEarlier : ∀ other ∈ earlier, key other ≠ key row := fun other inEarlier =>
      same ▸ unique.2.2 other inEarlier old List.mem_cons_self
    have othersLater : ∀ other ∈ later, key other ≠ key row := fun other inLater =>
      same ▸ Ne.symm (unique.2.1.1 other inLater)
    have mapped : ∀ part : List ρ, (∀ other ∈ part, key other ≠ key row) →
        (part.map fun other => if key other = key row then merge other else other) = part := by
      intro part others
      exact (List.map_congr_left fun other inPart => if_neg (others other inPart)).trans
        (List.map_id part)
    have filtered : ∀ part : List ρ, (∀ other ∈ part, key other ≠ key row) →
        (part.filter fun other => key other ≠ key row) = part := fun part others =>
      List.filter_eq_self.mpr fun other inPart => decide_eq_true (others other inPart)
    have result : (keyed.updateWhere (fun old => key old = key row) merge keeps).rows =
        earlier ++ merge old :: later := by
      change (keyed.rows.map fun other => if key other = key row then merge other else other) = _
      rw [split, List.map_append, List.map_cons, mapped earlier othersEarlier,
        mapped later othersLater, if_pos same]
    have kept : (keyed.rows.filter fun old => key old ≠ key row) = earlier ++ later := by
      rw [split, List.filter_append, List.filter_cons_of_neg (by simpa using same),
        filtered earlier othersEarlier, filtered later othersLater]
    rw [result, kept]
    exact List.perm_middle

end PrimaryKey

section Count

variable (table : Table key clash) (p : ρ → Prop) [DecidablePred p]

/-- `SELECT COUNT(*) ... WHERE p`. -/
def countWhere : Nat := table.rows.countP fun row => p row

/-- `SELECT key ... WHERE p`. -/
def keysWhere : List κ := (table.rows.filter fun row => p row).map key

theorem countWhere_le_length : table.countWhere p ≤ table.rows.length :=
  List.countP_le_length

theorem length_keysWhere : (table.keysWhere p).length = table.countWhere p := by
  rw [keysWhere, countWhere, List.length_map, List.countP_eq_length_filter]

theorem mem_keysWhere {k : κ} :
    k ∈ table.keysWhere p ↔ ∃ row ∈ table.rows, p row ∧ key row = k := by
  simp [keysWhere, and_assoc]

theorem nodup_keysWhere (keyed : Table key (Eq : κ → κ → Prop)) : (keyed.keysWhere p).Nodup := by
  have unique : (keyed.rows.map key).Nodup := List.pairwise_map.mpr keyed.unique
  exact unique.sublist (List.filter_sublist.map key)

/-- Distinct values of a column, each found in a counted row, are at most as many as the rows. -/
theorem length_le_countWhere {ι : Type*} (column : ρ → ι) {values : List ι}
    (distinct : values.Nodup)
    (counted : ∀ value ∈ values, ∃ row ∈ table.rows, p row ∧ column row = value) :
    values.length ≤ table.countWhere p := by
  have found : values ⊆ (table.rows.filter fun row => p row).map column := by
    intro value member
    obtain ⟨row, stored, selected, same⟩ := counted value member
    rw [← same]
    exact List.mem_map_of_mem (List.mem_filter.mpr ⟨stored, decide_eq_true selected⟩)
  have bounded := (List.subperm_of_subset distinct found).length_le
  rwa [List.length_map, ← List.countP_eq_length_filter] at bounded

end Count

end Table

end Relational
