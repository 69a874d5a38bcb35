/-
Module: WebhookProcessor.Queueing.Latest
Layer: Queueing
Purpose: Two ways to remember the latest entries of a log that is read newest first.  A bounded
  buffer keeps the last `n` entries; a keyed table keeps the last entry of each key.  The two show
  the same `n` entries exactly when no key recurs among the last `n` entries of the log.
Trusted boundary: none
Main exports: latest, nodup_latest, latest_sublist, take_latest_eq_iff, exists_take_latest,
  reverse_take_cons
-/
import Mathlib.Data.List.Nodup

namespace Queueing

variable {α κ : Type*}

section Latest

variable [DecidableEq κ] (key : α → κ)

/-- The newest entry of each key, newest first. -/
def latest : List α → List α
  | [] => []
  | entry :: older => entry :: (latest older).filter fun other => key other ≠ key entry

theorem latest_sublist (entries : List α) : (latest key entries).Sublist entries := by
  induction entries with
  | nil => exact List.Sublist.slnil
  | cons entry older inductionHypothesis =>
      exact (List.filter_sublist.trans inductionHypothesis).cons_cons entry

theorem nodup_latest (entries : List α) : ((latest key entries).map key).Nodup := by
  induction entries with
  | nil => exact List.nodup_nil
  | cons entry older inductionHypothesis =>
      rw [latest, List.map_cons, List.nodup_cons]
      refine ⟨?_, inductionHypothesis.sublist (List.filter_sublist.map key)⟩
      simp

private theorem take_filter_of_forall {p : α → Bool} {entries : List α} {n : Nat}
    (holds : ∀ entry ∈ entries.take n, p entry) :
    (entries.filter p).take n = entries.take n := by
  induction entries generalizing n with
  | nil => rfl
  | cons entry older inductionHypothesis =>
      cases n with
      | zero => simp
      | succ n =>
          rw [List.take_succ_cons, List.forall_mem_cons] at holds
          rw [List.filter_cons_of_pos holds.1, List.take_succ_cons, List.take_succ_cons,
            inductionHypothesis holds.2]

/-- Both views show the same entries exactly when no key recurs among the last `n`. -/
theorem take_latest_eq_iff {entries : List α} {n : Nat} :
    (latest key entries).take n = entries.take n ↔ ((entries.take n).map key).Nodup := by
  constructor
  · intro same
    rw [← same]
    exact (nodup_latest key entries).sublist ((List.take_sublist n _).map key)
  · induction entries generalizing n with
    | nil => exact fun _ => rfl
    | cons entry older inductionHypothesis =>
        cases n with
        | zero => simp
        | succ n =>
            intro apart
            rw [List.take_succ_cons, List.map_cons, List.nodup_cons] at apart
            have sameOlder := inductionHypothesis apart.2
            have others : ∀ other ∈ (latest key older).take n, key other ≠ key entry := by
              rw [sameOlder]
              intro other member same
              exact apart.1 (same ▸ List.mem_map_of_mem member)
            rw [latest, List.take_succ_cons, List.take_succ_cons, take_filter_of_forall, sameOlder]
            simpa using others

private theorem mem_take_filter {p : α → Bool} {entries : List α} {n : Nat} {entry : α}
    (member : entry ∈ entries.take n) (holds : p entry) : entry ∈ (entries.filter p).take n := by
  induction entries generalizing n with
  | nil => simp at member
  | cons head older inductionHypothesis =>
      cases n with
      | zero => simp at member
      | succ n =>
          rw [List.take_succ_cons] at member
          cases member with
          | head =>
              rw [List.filter_cons_of_pos holds, List.take_succ_cons]
              exact List.mem_cons_self
          | tail _ later =>
              have kept := inductionHypothesis later
              by_cases headHolds : p head
              · rw [List.filter_cons_of_pos headHolds, List.take_succ_cons]
                exact List.mem_cons_of_mem _ kept
              · rw [List.filter_cons_of_neg headHolds]
                exact (List.take_prefix_take_left (Nat.le_succ n)).subset kept

/-- No key of the last `n` entries is missing among the `n` newest entries by key, and the entry
shown for it is that entry or a newer one. -/
theorem exists_take_latest {newer : α → α → Prop} {entries : List α}
    (inTurn : entries.Pairwise newer) {n : Nat} {entry : α} (member : entry ∈ entries.take n) :
    ∃ newest ∈ (latest key entries).take n,
      key newest = key entry ∧ (newest = entry ∨ newer newest entry) := by
  induction inTurn generalizing n with
  | nil => simp at member
  | @cons head older headNewer _ inductionHypothesis =>
      cases n with
      | zero => simp at member
      | succ n =>
          rw [latest, List.take_succ_cons]
          rw [List.take_succ_cons] at member
          cases member with
          | head => exact ⟨entry, List.mem_cons_self, rfl, Or.inl rfl⟩
          | tail _ later =>
              by_cases same : key entry = key head
              · have inOlder : entry ∈ older := List.mem_of_mem_take later
                exact ⟨head, List.mem_cons_self, same.symm, Or.inr (headNewer entry inOlder)⟩
              · obtain ⟨newest, shown, sameKey, order⟩ := inductionHypothesis later
                refine ⟨newest, List.mem_cons_of_mem _ (mem_take_filter shown ?_), sameKey, order⟩
                simpa [sameKey] using same

end Latest

/-- Appending to a bounded buffer whose oldest entry makes room when it is full. -/
theorem reverse_take_cons {entry : α} {entries : List α} {n : Nat} (room : 0 < n) :
    ((entry :: entries).take n).reverse =
      (if (entries.take n).length = n then (entries.take n).reverse.tail
        else (entries.take n).reverse) ++ [entry] := by
  obtain ⟨m, rfl⟩ := Nat.exists_eq_succ_of_ne_zero (Nat.ne_of_gt room)
  rw [List.take_succ_cons, List.reverse_cons]
  congr 1
  split
  · rename_i full
    rw [List.tail_reverse, List.dropLast_eq_take, full, List.take_take]
    simp
  · rename_i short
    rw [List.length_take] at short
    rw [List.take_of_length_le (by omega), List.take_of_length_le (by omega)]

end Queueing
