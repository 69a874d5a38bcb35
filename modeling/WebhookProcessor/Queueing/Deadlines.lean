/-
Module: WebhookProcessor.Queueing.Deadlines
Layer: Queueing
Purpose: A table that is served in batches in the order of a preorder such as a due date.  Items that
  were due before a given time come first; a cycle that takes a batch and makes none of its items due
  again by that time takes exactly the head of their queue, whatever else is due by now.
Trusted boundary: none
Main exports: filter_insertionSort, filter_take_of_pairwise, queue_after_batch
-/
import Mathlib.Data.List.Sort

namespace Queueing

variable {α : Type*} (r : α → α → Prop) [DecidableRel r]

/-! ### Sorting and selecting -/

theorem orderedInsert_eq_cons {item : α} {queue : List α} (least : ∀ other ∈ queue, r item other) :
    queue.orderedInsert r item = item :: queue := by
  cases queue with
  | nil => rfl
  | cons head rest => exact List.orderedInsert_cons_of_le r rest (least head List.mem_cons_self)

theorem filter_orderedInsert [IsTrans α r] {p : α → Bool} (item : α) {queue : List α}
    (sorted : queue.Pairwise r) :
    (queue.orderedInsert r item).filter p =
      if p item then (queue.filter p).orderedInsert r item else queue.filter p := by
  induction queue with
  | nil => by_cases holds : p item <;> simp [holds]
  | cons head rest inductionHypothesis =>
      obtain ⟨least, sortedRest⟩ := List.pairwise_cons.mp sorted
      by_cases first : r item head
      · have below : ∀ other ∈ (head :: rest).filter p, r item other := by
          intro other member
          rcases List.mem_cons.mp (List.mem_of_mem_filter member) with rfl | later
          · exact first
          · exact Trans.trans first (least other later)
        rw [List.orderedInsert_cons_of_le r rest first, List.filter_cons,
          orderedInsert_eq_cons r below]
      · rw [List.orderedInsert_of_not_le r rest first, List.filter_cons,
          inductionHypothesis sortedRest, List.filter_cons]
        by_cases kept : p head
        · by_cases holds : p item
          · simp [kept, holds, first]
          · simp [kept, holds]
        · simp [kept]

/-- Sorting is stable, so it does not matter whether one selects before or after it. -/
theorem filter_insertionSort [IsTrans α r] [Std.Total r] (p : α → Bool) (items : List α) :
    (items.insertionSort r).filter p = (items.filter p).insertionSort r := by
  induction items with
  | nil => rfl
  | cons item items inductionHypothesis =>
      rw [List.insertionSort_cons, filter_orderedInsert r item (List.pairwise_insertionSort r items),
        inductionHypothesis, List.filter_cons]
      split <;> rfl

variable {r}

omit [DecidableRel r] in
/-- In a sorted queue, what is closed towards the head is a head of the queue. -/
theorem filter_take_of_pairwise {p : α → Bool} {queue : List α} (sorted : queue.Pairwise r)
    (closed : ∀ first second, r first second → p second → p first) (count : Nat) :
    (queue.take count).filter p = (queue.filter p).take count := by
  induction queue generalizing count with
  | nil => simp
  | cons head rest inductionHypothesis =>
      obtain ⟨least, sortedRest⟩ := List.pairwise_cons.mp sorted
      cases count with
      | zero => rfl
      | succ count =>
          by_cases holds : p head
          · simp [holds, inductionHypothesis sortedRest]
          · have none : rest.filter p = [] := by
              apply List.filter_eq_nil_iff.mpr
              intro other member meets
              exact holds (closed head other (least other member) meets)
            have noneTaken : (rest.take count).filter p = [] := by
              rw [inductionHypothesis sortedRest, none, List.take_nil]
            simp [holds, none, noneTaken]

theorem filter_notMem_take [DecidableEq α] {queue : List α} (distinct : queue.Nodup)
    (count : Nat) : (queue.filter fun item => item ∉ queue.take count) = queue.drop count := by
  have whole := List.take_append_drop count queue
  have apart : ∀ item ∈ queue.take count, ∀ other ∈ queue.drop count, item ≠ other := by
    rw [← whole] at distinct
    exact (List.nodup_append.mp distinct).2.2
  have taken : ((queue.take count).filter fun item => item ∉ queue.take count) = [] := by
    apply List.filter_eq_nil_iff.mpr
    intro item member
    simpa using member
  have left : ((queue.drop count).filter fun item => item ∉ queue.take count) =
      queue.drop count := by
    apply List.filter_eq_self.mpr
    intro item member
    rw [decide_eq_true_eq]
    exact fun before => apart item before item member rfl
  calc (queue.filter fun item => item ∉ queue.take count)
      = ((queue.take count ++ queue.drop count).filter fun item => item ∉ queue.take count) := by
        rw [whole]
    _ = queue.drop count := by rw [List.filter_append, taken, left, List.nil_append]

/-! ### One cycle -/

variable (r) in
/-- The rows that meet a condition, in their order. -/
def queueOf (rows : List α) (condition : α → Bool) : List α :=
  (rows.filter condition).insertionSort r

variable [IsTrans α r] [Std.Total r] {rows : List α} {now early due : α → Bool}

/-- Rows that are early come first among those that are due by now. -/
theorem filter_take_queueOf (split : ∀ row, due row = (now row && early row))
    (closed : ∀ first second, r first second → early second → early first) (batch : Nat) :
    ((queueOf r rows now).take batch).filter early = (queueOf r rows due).take batch := by
  have selected : (queueOf r rows now).filter early = queueOf r rows due := by
    unfold queueOf
    rw [filter_insertionSort, List.filter_filter]
    congr 1
    apply List.filter_congr
    intro row _
    rw [split row, Bool.and_comm]
  have sorted : (queueOf r rows now).Pairwise r := List.pairwise_insertionSort r _
  rw [filter_take_of_pairwise sorted closed, selected]

/-- A cycle takes a batch of the queue at `now`, changes no other row, and leaves none of the batch
due early: then it has taken the batch at the head of the queue of the early rows. -/
theorem queue_after_batch [DecidableEq α] (distinct : rows.Nodup)
    (split : ∀ row, due row = (now row && early row))
    (closed : ∀ first second, r first second → early second → early first) (batch : Nat)
    {f : α → α}
    (kept : ∀ row ∈ rows, row ∉ (queueOf r rows now).take batch → f row = row)
    (served : ∀ row ∈ rows, row ∈ (queueOf r rows now).take batch → due (f row) = false) :
    queueOf r (rows.map f) due = (queueOf r rows due).drop batch := by
  have unserved : (rows.map f).filter due =
      (rows.filter due).filter fun row => row ∉ (queueOf r rows now).take batch := by
    rw [List.filter_map, List.filter_filter]
    have same : rows.filter (due ∘ f) = rows.filter fun row =>
        decide (row ∉ (queueOf r rows now).take batch) && due row := by
      apply List.filter_congr
      intro row member
      by_cases taken : row ∈ (queueOf r rows now).take batch
      · simp [taken, served row member taken]
      · simp [taken, kept row member taken]
    rw [same]
    have unchanged : ∀ row ∈ rows.filter (fun row =>
        decide (row ∉ (queueOf r rows now).take batch) && due row), f row = id row := by
      intro row member
      obtain ⟨stored, selected⟩ := List.mem_filter.mp member
      rw [Bool.and_eq_true, decide_eq_true_eq] at selected
      exact kept row stored selected.1
    rw [List.map_congr_left unchanged, List.map_id]
  have sameBatch : ∀ row ∈ queueOf r rows due,
      decide (row ∉ (queueOf r rows now).take batch) =
        decide (row ∉ (queueOf r rows due).take batch) := by
    intro row member
    have isEarly : early row = true := by
      rw [queueOf, List.mem_insertionSort] at member
      have isDue := (List.mem_filter.mp member).2
      rw [split row, Bool.and_eq_true] at isDue
      exact isDue.2
    apply decide_eq_decide.mpr
    rw [← filter_take_queueOf split closed, List.mem_filter]
    simp [isEarly]
  have distinctQueue : (queueOf r rows due).Nodup :=
    (List.perm_insertionSort r _).nodup_iff.mpr (distinct.filter _)
  calc queueOf r (rows.map f) due
      = (queueOf r rows due).filter fun row => row ∉ (queueOf r rows now).take batch := by
        rw [queueOf, unserved, ← filter_insertionSort]
        rfl
    _ = (queueOf r rows due).filter fun row => row ∉ (queueOf r rows due).take batch :=
        List.filter_congr sameBatch
    _ = (queueOf r rows due).drop batch := filter_notMem_take distinctQueue batch

end Queueing
