/-
Module: WebhookProcessor.Queueing.Custody
Layer: Queueing
Purpose: Tokens in the hands of a finite set of holders of which one changes its state at a time.
  A sum over the holders changes by what the one holder changes, so the number of holders of a token
  follows it when it is handed over.
Trusted boundary: none
Main exports: sum_update, holdersOf, holdersOf_update, holdersOf_eq_zero_iff
-/
import Mathlib.Algebra.BigOperators.Group.Finset.Basic
import Mathlib.Algebra.BigOperators.Group.Finset.Piecewise

namespace Custody

variable {ι σ τ : Type*} [DecidableEq ι] {holders : Finset ι}

/-- When one holder moves to a new state, a total over the holders moves with its weight. -/
theorem sum_update (weight : σ → Nat) (state : ι → σ) {holder : ι} (member : holder ∈ holders)
    (new : σ) :
    ∑ other ∈ holders, weight (Function.update state holder new other) + weight (state holder) =
      ∑ other ∈ holders, weight (state other) + weight new := by
  have pushed : (fun other => weight (Function.update state holder new other)) =
      Function.update (fun other => weight (state other)) holder (weight new) :=
    Function.comp_update weight state holder new
  rw [pushed, Finset.sum_update_of_mem member, Finset.sdiff_singleton_eq_erase,
    ← Finset.add_sum_erase holders (fun other => weight (state other)) member]
  omega

variable [DecidableEq τ]

/-- How many holders have the token, where a holder's state shows what it has. -/
def holdersOf (holders : Finset ι) (item : σ → Option τ) (state : ι → σ) (token : τ) : Nat :=
  ∑ holder ∈ holders, if item (state holder) = some token then 1 else 0

theorem holdersOf_update (item : σ → Option τ) (state : ι → σ) {holder : ι}
    (member : holder ∈ holders) (new : σ) (token : τ) :
    holdersOf holders item (Function.update state holder new) token +
        (if item (state holder) = some token then 1 else 0) =
      holdersOf holders item state token + if item new = some token then 1 else 0 :=
  sum_update (fun current => if item current = some token then 1 else 0) state member new

omit [DecidableEq ι] in
theorem holdersOf_eq_zero_iff {item : σ → Option τ} {state : ι → σ} {token : τ} :
    holdersOf holders item state token = 0 ↔
      ∀ holder ∈ holders, item (state holder) ≠ some token := by
  simp [holdersOf]

end Custody
