/-
Module: WebhookProcessor.Queueing.HeadOfLine
Layer: Queueing
Purpose: A queue that is served from its head in batches, where a cycle stops in front of the first
  item that does not pass.  However many cycles are run, the queue ends in front of the first such
  item; in an ordered queue everything behind that item stays.
Trusted boundary: none
Main exports: served, remaining, mem_remaining_iff, remaining_iterate, mem_dropWhile_ne_iff
-/
import Mathlib.Data.List.TakeWhile
import Mathlib.Logic.Function.Iterate
import Mathlib.Order.Lattice

namespace Queueing

variable {α : Type} (passes : α → Bool) (batch : Nat) (queue : List α)

/-- The items that one cycle serves: those of its batch in front of the first that does not
pass. -/
def served : List α := (queue.take batch).takeWhile passes

/-- The queue after one cycle. -/
def remaining : List α := queue.drop (served passes batch queue).length

theorem served_append_remaining :
    served passes batch queue ++ remaining passes batch queue = queue := by
  have front : served passes batch queue <+: queue.take batch := List.takeWhile_prefix passes
  have whole : queue.take batch <+: queue := List.take_prefix batch queue
  exact List.prefix_iff_eq_append.mp (front.trans whole)

theorem passes_of_mem_served {item : α} (member : item ∈ served passes batch queue) :
    passes item = true :=
  List.mem_takeWhile_imp member

theorem length_served :
    (served passes batch queue).length = min batch (queue.takeWhile passes).length := by
  rw [served, ← List.take_takeWhile, List.length_take]

/-- A cycle takes out what it serves and nothing else. -/
theorem mem_remaining_iff (distinct : queue.Nodup) {item : α} :
    item ∈ remaining passes batch queue ↔ item ∈ queue ∧ item ∉ served passes batch queue := by
  have whole := served_append_remaining passes batch queue
  rw [← whole, List.nodup_append] at distinct
  obtain ⟨_, _, apart⟩ := distinct
  constructor
  · intro member
    refine ⟨?_, fun taken => apart item taken item member rfl⟩
    rw [← whole]
    exact List.mem_append_right _ member
  · rintro ⟨member, kept⟩
    rw [← whole, List.mem_append] at member
    exact member.resolve_left kept

/-- A cycle does not change what stands behind the passing items. -/
theorem dropWhile_remaining :
    (remaining passes batch queue).dropWhile passes = queue.dropWhile passes := by
  have whole := served_append_remaining passes batch queue
  have allPass : ∀ item ∈ served passes batch queue, passes item = true :=
    fun _ => passes_of_mem_served passes batch queue
  calc (remaining passes batch queue).dropWhile passes
    _ = (served passes batch queue ++ remaining passes batch queue).dropWhile passes :=
        (List.dropWhile_append_of_pos allPass).symm
    _ = queue.dropWhile passes := by rw [whole]

theorem length_takeWhile_remaining :
    ((remaining passes batch queue).takeWhile passes).length =
      (queue.takeWhile passes).length - batch := by
  have whole := served_append_remaining passes batch queue
  have allPass : ∀ item ∈ served passes batch queue, passes item = true :=
    fun _ => passes_of_mem_served passes batch queue
  have split : queue.takeWhile passes = served passes batch queue ++
      (remaining passes batch queue).takeWhile passes := by
    rw [← List.takeWhile_append_of_pos allPass, whole]
  have counted := congrArg List.length split
  rw [List.length_append, length_served] at counted
  omega

variable {batch}

/-- Enough cycles serve exactly the items in front of the first that does not pass. -/
theorem remaining_iterate (positive : 0 < batch) {cycles : Nat}
    (enough : (queue.takeWhile passes).length ≤ cycles) :
    (remaining passes batch)^[cycles] queue = queue.dropWhile passes := by
  induction cycles generalizing queue with
  | zero =>
      have none : queue.takeWhile passes = [] := List.length_eq_zero_iff.mp (by omega)
      have whole := queue.takeWhile_append_dropWhile (p := passes)
      rw [none, List.nil_append] at whole
      exact whole.symm
  | succ cycles inductionHypothesis =>
      have fewer := length_takeWhile_remaining passes batch queue
      rw [Function.iterate_succ_apply, inductionHypothesis _ (by omega), dropWhile_remaining]

section Ordered

variable [LinearOrder α] {queue}

/-- In an ordered queue, what stands from an item on is what is not below it. -/
theorem mem_dropWhile_ne_iff (ordered : queue.Pairwise (· < ·)) {stuck item : α}
    (waits : stuck ∈ queue) :
    item ∈ queue.dropWhile (fun other => decide (other ≠ stuck)) ↔
      item ∈ queue ∧ stuck ≤ item := by
  induction queue with
  | nil => cases waits
  | cons head rest inductionHypothesis =>
      obtain ⟨below, orderedRest⟩ := List.pairwise_cons.mp ordered
      by_cases same : head = stuck
      · subst same
        rw [List.dropWhile_cons_of_neg (by simp), List.mem_cons]
        constructor
        · rintro (rfl | later)
          · exact ⟨Or.inl rfl, le_refl _⟩
          · exact ⟨Or.inr later, (below item later).le⟩
        · exact And.left
      · have waitsLater : stuck ∈ rest := (List.mem_cons.mp waits).resolve_left (Ne.symm same)
        rw [List.dropWhile_cons_of_pos (by simpa using same),
          inductionHypothesis orderedRest waitsLater, List.mem_cons]
        constructor
        · exact fun ⟨member, above⟩ => ⟨Or.inr member, above⟩
        · rintro ⟨rfl | member, above⟩
          · exact absurd above (below stuck waitsLater).not_ge
          · exact ⟨member, above⟩

end Ordered

end Queueing
