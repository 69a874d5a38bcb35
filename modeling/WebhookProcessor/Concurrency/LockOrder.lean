/-
Module: WebhookProcessor.Concurrency.LockOrder
Layer: Concurrency
Purpose: Owners of locks that wait for each other.  An owner has a number of statements left; when it
  cannot take its next one, it waits for an owner that has fewer left.  Such a wait never closes a
  cycle, so some owner can always go on, and all of them can be brought to their end.
Trusted boundary: none
Main exports: Advances, exists_advances, possible_of_ordered
-/
import Mathlib.Algebra.BigOperators.Group.Finset.Basic
import Mathlib.Algebra.Order.BigOperators.Group.Finset
import Mathlib.Algebra.Order.Ring.Nat
import WebhookProcessor.Transition.Runs

namespace Concurrency

open Transition

variable {σ α Owner : Type*} {next : σ → α → Option σ} {allowed : α → Prop} {holds : σ → Prop}
  {left : σ → Owner → Nat} {state : σ}

/-- An allowed step is enabled that brings the owner nearer to its end and moves no other owner. -/
def Advances (next : σ → α → Option σ) (allowed : α → Prop) (holds : σ → Prop)
    (left : σ → Owner → Nat) (state : σ) (owner : Owner) : Prop :=
  ∃ action after, allowed action ∧ next state action = some after ∧ holds after ∧
    left after owner < left state owner ∧ ∀ other, other ≠ owner → left after other = left state other

/-- The owner waits for one that has fewer statements left. -/
def Waits (left : σ → Owner → Nat) (state : σ) (owner : Owner) : Prop :=
  ∃ blocker, 0 < left state blocker ∧ left state blocker < left state owner

/-- Whoever waits, somebody can go on. -/
theorem exists_advances
    (ordered : ∀ owner, 0 < left state owner →
      Advances next allowed holds left state owner ∨ Waits left state owner)
    {owner : Owner} (unfinished : 0 < left state owner) :
    ∃ other, Advances next allowed holds left state other := by
  induction bound : left state owner using Nat.strongRecOn generalizing owner with
  | _ bound inductionHypothesis =>
      subst bound
      rcases ordered owner unfinished with advances | ⟨blocker, running, fewer⟩
      · exact ⟨owner, advances⟩
      · exact inductionHypothesis _ fewer running rfl

/-- All owners can be brought to their end. -/
theorem possible_of_ordered
    (ordered : ∀ state, holds state → ∀ owner, 0 < left state owner →
      Advances next allowed holds left state owner ∨ Waits left state owner)
    (base : holds state) (owners : Finset Owner)
    (unfinished : ∀ owner, 0 < left state owner → owner ∈ owners) :
    Possible next allowed (fun final => holds final ∧ ∀ owner, left final owner = 0) state := by
  induction bound : ∑ owner ∈ owners, left state owner using Nat.strongRecOn
    generalizing state with
  | _ bound inductionHypothesis =>
      subst bound
      by_cases finished : ∀ owner, left state owner = 0
      · exact .done ⟨base, finished⟩
      · obtain ⟨owner, running⟩ := not_forall.mp finished
        obtain ⟨mover, action, after, allows, taken, kept, nearer, others⟩ :=
          exists_advances (ordered state base) (Nat.pos_of_ne_zero running)
        have bounded : ∀ other, left after other ≤ left state other := by
          intro other
          by_cases same : other = mover
          · exact same ▸ nearer.le
          · exact (others other same).le
        have smaller : ∑ other ∈ owners, left after other < ∑ other ∈ owners, left state other :=
          Finset.sum_lt_sum (fun other _ => bounded other)
            ⟨mover, unfinished mover (Nat.zero_lt_of_lt nearer), nearer⟩
        have stillIn : ∀ other, 0 < left after other → other ∈ owners := fun other runs =>
          unfinished other (Nat.lt_of_lt_of_le runs (bounded other))
        exact .step taken allows (inductionHypothesis _ smaller kept stillIn rfl)

end Concurrency
