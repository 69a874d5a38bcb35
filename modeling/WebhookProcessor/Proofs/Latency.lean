/-
Module: WebhookProcessor.Proofs.Latency
Layer: Proofs
Purpose: The latency aggregate under concurrent calls of `ObserveEventProcessingDuration`, for every
  interleaving of their atomic operations.  Each call contributes to the two counters exactly once,
  so they hold the totals of all contributions, as 64-bit counters do: modulo `2^64`.  The maximum
  only grows, so what a call has loaded is a lower bound for it, a swap that finds the loaded value
  raises it, and a swap that fails found a larger one.  A failed swap is paid for by the call that
  raised the maximum, which returns at that moment; so each call returns within a fixed number of
  its own operations.
Trusted boundary: none
Main exports: ObserveCall.Advanced, ObserveCall.rely_guarantee, LatencyState.counter_of_reached,
  LatencyState.maxObserved_of_reached, LatencyState.observe_alone, LatencyState.latency_exact,
  ObserveCall.boundedDelay, LatencyState.observe_returns_within
-/
import Mathlib.Data.List.MinMax
import WebhookProcessor.Machine.Int64
import WebhookProcessor.Model.Latency

namespace WebhookProcessor

open Concurrency Machine Transition

namespace ObserveCall

/-- What one atomic operation of a call does. -/
inductive Advanced (latency : ProcessingLatency) (call : ObserveCall) :
    ProcessingLatency → ObserveCall → Prop where
  | counted (phase : call.phase = .addCount) :
      Advanced latency call { latency with count := latency.count + 1 }
        { call with phase := .addSum }
  | summed (phase : call.phase = .addSum) :
      Advanced latency call { latency with sumNS := latency.sumNS + call.nanoseconds }
        { call with phase := .load }
  | loadedSmaller (phase : call.phase = .load ∨ call.phase = .reload)
      (smaller : latency.maxNS < call.nanoseconds) :
      Advanced latency call latency { call with phase := .compareAndSwap latency.maxNS }
  | loadedEnough (phase : call.phase = .load ∨ call.phase = .reload)
      (enough : call.nanoseconds ≤ latency.maxNS) :
      Advanced latency call latency { call with phase := .returned }
  | swapped (phase : call.phase = .compareAndSwap latency.maxNS) :
      Advanced latency call { latency with maxNS := call.nanoseconds }
        { call with phase := .returned }
  | failed {current : Int64} (phase : call.phase = .compareAndSwap current)
      (changed : latency.maxNS ≠ current) :
      Advanced latency call latency { call with phase := .reload }

variable {latency after : ProcessingLatency} {call moved : ObserveCall}

/-- Either load goes on to the swap or leaves the loop. -/
theorem advanced_of_load (phase : call.phase = .load ∨ call.phase = .reload) :
    Advanced latency call latency (call.checkLoop latency.maxNS) := by
  unfold checkLoop
  by_cases smaller : latency.maxNS < call.nanoseconds
  · rw [if_pos smaller]
    exact .loadedSmaller phase smaller
  · rw [if_neg smaller]
    exact .loadedEnough phase (Int64.not_lt.mp smaller)

theorem advanced_of_advance (advances : call.advance latency = some (after, moved)) :
    Advanced latency call after moved := by
  unfold advance at advances
  cases phase : call.phase with
  | addCount =>
      simp only [phase] at advances
      cases advances
      exact .counted phase
  | addSum =>
      simp only [phase] at advances
      cases advances
      exact .summed phase
  | load =>
      simp only [phase] at advances
      cases advances
      exact advanced_of_load (Or.inl phase)
  | compareAndSwap current =>
      simp only [phase] at advances
      by_cases found : latency.maxNS = current
      · rw [if_pos found] at advances
        cases advances
        exact .swapped (found ▸ phase)
      · rw [if_neg found] at advances
        cases advances
        exact .failed phase found
  | reload =>
      simp only [phase] at advances
      cases advances
      exact advanced_of_load (Or.inr phase)
  | returned => simp [phase] at advances

theorem nanoseconds_of_advance (advances : call.advance latency = some (after, moved)) :
    moved.nanoseconds = call.nanoseconds := by
  cases advanced_of_advance advances <;> rfl

/-- A call is back at its load only after a swap that found another value. -/
theorem failed_of_reload (advances : call.advance latency = some (after, moved))
    (again : moved.phase = .reload) :
    ∃ current, call.phase = .compareAndSwap current ∧ latency.maxNS ≠ current := by
  cases advanced_of_advance advances with
  | failed phase changed => exact ⟨_, phase, changed⟩
  | counted _ => cases again
  | summed _ => cases again
  | loadedSmaller _ _ => cases again
  | loadedEnough _ _ => cases again
  | swapped _ => cases again

/-- A call is before its swap only after the load of the value that it compares. -/
theorem loaded_of_compareAndSwap {current : Int64}
    (advances : call.advance latency = some (after, moved))
    (swaps : moved.phase = .compareAndSwap current) :
    (call.phase = .load ∨ call.phase = .reload) ∧ current = latency.maxNS := by
  cases advanced_of_advance advances with
  | loadedSmaller phase _ =>
      cases swaps
      exact ⟨phase, rfl⟩
  | counted _ => cases swaps
  | summed _ => cases swaps
  | loadedEnough _ _ => cases swaps
  | swapped _ => cases swaps
  | failed _ _ => cases swaps

/-- What the call has added to `count`. -/
def addedToCount (call : ObserveCall) : Int :=
  match call.phase with
  | .addCount => 0
  | _ => 1

/-- What the call has added to `sumNS`. -/
def addedToSum (call : ObserveCall) : Int :=
  match call.phase with
  | .addCount | .addSum => 0
  | _ => call.nanoseconds.toInt

/-- A call at either of its loads has contributed to both counters. -/
theorem added_of_load (phase : call.phase = .load ∨ call.phase = .reload) :
    call.addedToCount = 1 ∧ call.addedToSum = call.nanoseconds.toInt := by
  unfold addedToCount addedToSum
  rcases phase with first | again
  · rw [first]
    exact ⟨rfl, rfl⟩
  · rw [again]
    exact ⟨rfl, rfl⟩

/-- An operation adds to the counters what it adds to the contributions of its call. -/
theorem added_of_advance (advances : call.advance latency = some (after, moved)) :
    ∃ counted summed : Int64,
      (after.count = latency.count + counted ∧
        moved.addedToCount = call.addedToCount + counted.toInt) ∧
      after.sumNS = latency.sumNS + summed ∧
        moved.addedToSum = call.addedToSum + summed.toInt := by
  cases advanced_of_advance advances with
  | counted phase => exact ⟨1, 0, by simp [addedToCount, addedToSum, phase]⟩
  | summed phase =>
      exact ⟨0, call.nanoseconds, by simp [addedToCount, addedToSum, phase]⟩
  | loadedSmaller phase _ =>
      obtain ⟨count, sum⟩ := added_of_load phase
      refine ⟨0, 0, ?_⟩
      rw [count, sum]
      simp [addedToCount, addedToSum]
  | loadedEnough phase _ =>
      obtain ⟨count, sum⟩ := added_of_load phase
      refine ⟨0, 0, ?_⟩
      rw [count, sum]
      simp [addedToCount, addedToSum]
  | swapped phase => exact ⟨0, 0, by simp [addedToCount, addedToSum, phase]⟩
  | failed phase _ => exact ⟨0, 0, by simp [addedToCount, addedToSum, phase]⟩

/-- What a call knows of the maximum. -/
def KnowsMax (latency : ProcessingLatency) (call : ObserveCall) : Prop :=
  match call.phase with
  | .compareAndSwap current => current ≤ latency.maxNS ∧ current < call.nanoseconds
  | .returned => call.nanoseconds ≤ latency.maxNS
  | _ => True

/-- The maximum only grows, and the calls know what they should of it. -/
theorem rely_guarantee :
    RelyGuarantee entered advance KnowsMax fun before after => before.maxNS ≤ after.maxNS where
  refl := fun _ => Int64.le_refl _
  trans := fun _ _ _ => Int64.le_trans
  fresh := fun _ _ => trivial
  step := by
    intro before call after moved knows advances
    cases advanced_of_advance advances with
    | counted _ => exact ⟨Int64.le_refl _, trivial⟩
    | summed _ => exact ⟨Int64.le_refl _, trivial⟩
    | loadedSmaller _ smaller => exact ⟨Int64.le_refl _, Int64.le_refl _, smaller⟩
    | loadedEnough _ enough => exact ⟨Int64.le_refl _, enough⟩
    | swapped phase =>
        -- the loaded value is still there, and it is below the duration
        simp only [KnowsMax, phase] at knows
        exact ⟨Int64.le_of_lt knows.2, Int64.le_refl _⟩
    | failed _ _ => exact ⟨Int64.le_refl _, trivial⟩
  stable := by
    intro before after call grows knows
    unfold KnowsMax at knows ⊢
    cases phase : call.phase with
    | compareAndSwap current =>
        simp only [phase] at knows
        exact ⟨Int64.le_trans knows.1 grows, knows.2⟩
    | returned =>
        simp only [phase] at knows
        exact Int64.le_trans knows grows
    | addCount => trivial
    | addSum => trivial
    | load => trivial
    | reload => trivial

end ObserveCall

namespace LatencyState

variable {state : LatencyState}

/-- The calls know what they should of the maximum. -/
theorem informed_of_reached (reached : state.Reached) :
    RelyGuarantee.Informed ObserveCall.KnowsMax state :=
  ObserveCall.rely_guarantee.informed_of_reachable reached

/-- The maximum never decreases. -/
theorem maxNS_le_of_run (reached : state.Reached) {actions : List (PoolAction Duration)}
    {later : LatencyState} (ran : run observe state actions = some later) :
    state.shared.maxNS ≤ later.shared.maxNS :=
  ObserveCall.rely_guarantee.guarantee_of_run (informed_of_reached reached) ran

/-! ### The counters -/

/-- A counter that grows by what the calls contribute holds their total. -/
theorem counter_of_reached {counter : ProcessingLatency → Int64} {added : ObserveCall → Int}
    (zero : counter Metrics.new.processingLatency = 0)
    (fresh : ∀ duration, added (.entered duration) = 0)
    (grows : ∀ latency call after moved, ObserveCall.advance latency call = some (after, moved) →
      ∃ amount, counter after = counter latency + amount ∧
        added moved = added call + amount.toInt)
    (reached : state.Reached) :
    (counter state.shared).toInt = (state.threads.map added).sum.bmod (2 ^ 64) := by
  have accounted : Pool.Accounted (fun latency total => (counter latency).toInt =
      total.bmod (2 ^ 64)) added state := by
    refine Pool.accounted_of_reachable ?_ fresh ?_ reached
    · rw [zero]
      rfl
    · intro before call after moved rest advances wrapped
      obtain ⟨amount, grown, contributed⟩ := grows _ _ _ _ advances
      rw [grown, contributed, toInt_add_of_bmod wrapped, Int.add_right_comm]
  exact accounted

theorem count_of_reached (reached : state.Reached) :
    state.shared.count.toInt =
      (state.threads.map ObserveCall.addedToCount).sum.bmod (2 ^ 64) := by
  apply counter_of_reached rfl _ _ reached
  · intro duration
    rfl
  · intro latency call after moved advances
    obtain ⟨counted, _, count, _⟩ := ObserveCall.added_of_advance advances
    exact ⟨counted, count⟩

theorem sumNS_of_reached (reached : state.Reached) :
    state.shared.sumNS.toInt =
      (state.threads.map ObserveCall.addedToSum).sum.bmod (2 ^ 64) := by
  apply counter_of_reached rfl _ _ reached
  · intro duration
    rfl
  · intro latency call after moved advances
    obtain ⟨_, summed, _, sum⟩ := ObserveCall.added_of_advance advances
    exact ⟨summed, sum⟩

/-- Calls that have returned have each been counted. -/
theorem sum_addedToCount (returned : state.AllReturned) :
    (state.threads.map ObserveCall.addedToCount).sum = state.threads.length := by
  have ones : ∀ call ∈ state.threads, call.addedToCount = 1 := by
    intro call member
    rw [ObserveCall.addedToCount, returned call member]
  rw [List.map_congr_left ones]
  simp

/-- Calls that have returned have each added their duration. -/
theorem sum_addedToSum (returned : state.AllReturned) :
    (state.threads.map ObserveCall.addedToSum).sum = state.durations.sum := by
  have durations : ∀ call ∈ state.threads, call.addedToSum = call.nanoseconds.toInt := by
    intro call member
    rw [ObserveCall.addedToSum, returned call member]
  rw [LatencyState.durations, List.map_congr_left durations]

/-! ### The maximum -/

/-- The maximum is not negative, and it is 0 or a duration that was passed. -/
def MaxObserved (state : LatencyState) : Prop :=
  0 ≤ state.shared.maxNS ∧ state.shared.maxNS.toInt ∈ 0 :: state.durations

/-- An operation leaves the maximum, or replaces it by the duration of its call. -/
theorem maxNS_of_advance {latency after : ProcessingLatency} {call moved : ObserveCall}
    (advances : call.advance latency = some (after, moved)) :
    after.maxNS = latency.maxNS ∨ after.maxNS = call.nanoseconds := by
  cases ObserveCall.advanced_of_advance advances with
  | swapped _ => exact Or.inr rfl
  | counted _ => exact Or.inl rfl
  | summed _ => exact Or.inl rfl
  | loadedSmaller _ _ => exact Or.inl rfl
  | loadedEnough _ _ => exact Or.inl rfl
  | failed _ _ => exact Or.inl rfl

theorem maxObserved_of_reached (reached : state.Reached) : state.MaxObserved := by
  refine reached.invariant ?_ ?_
  · exact ⟨Int64.le_refl _, List.mem_cons_self⟩
  · rintro before action after earlier ⟨nonneg, observed⟩ taken _
    have grows := (ObserveCall.rely_guarantee.step_informed (informed_of_reached earlier) taken).1
    refine ⟨Int64.le_trans nonneg grows, ?_⟩
    cases Pool.move_of_next taken with
    | start duration =>
        simp only [durations, List.map_append, ← List.cons_append]
        exact List.mem_append_left _ observed
    | advance found advances =>
        have keeps := congrArg Int64.toInt (ObserveCall.nanoseconds_of_advance advances)
        have same := Pool.map_set_of_keeps (fun call => call.nanoseconds.toInt) found keeps
        simp only [durations, same]
        rcases maxNS_of_advance advances with kept | replaced
        · rw [kept]
          exact observed
        · rw [replaced]
          apply List.mem_cons_of_mem
          exact List.mem_map_of_mem (List.mem_of_getElem? found)

theorem foldr_max_nonneg (values : List Int) : 0 ≤ values.foldr max 0 := by
  induction values with
  | nil => exact Int.le_refl 0
  | cons value values inductionHypothesis => exact le_max_of_le_right inductionHypothesis

theorem foldr_max_le {values : List Int} {bound : Int} (nonneg : 0 ≤ bound)
    (below : ∀ value ∈ values, value ≤ bound) : values.foldr max 0 ≤ bound := by
  induction values with
  | nil => exact nonneg
  | cons value values inductionHypothesis =>
      apply max_le
      · exact below value List.mem_cons_self
      · apply inductionHypothesis
        intro other member
        exact below other (List.mem_cons_of_mem _ member)

/-- The maximum is at most the largest duration of a call that has started. -/
theorem maxNS_le (reached : state.Reached) :
    state.shared.maxNS.toInt ≤ state.durations.foldr max 0 := by
  obtain ⟨_, observed⟩ := maxObserved_of_reached reached
  rcases List.mem_cons.mp observed with zero | passed
  · rw [zero]
    exact foldr_max_nonneg _
  · exact List.le_max_of_le' 0 passed (Int.le_refl _)

/-- When all calls have returned, the maximum is at least every duration. -/
theorem le_maxNS (reached : state.Reached) (returned : state.AllReturned) :
    state.durations.foldr max 0 ≤ state.shared.maxNS.toInt := by
  apply foldr_max_le
  · exact Int64.le_iff_toInt_le.mp (maxObserved_of_reached reached).1
  · intro duration passed
    obtain ⟨call, member, rfl⟩ := List.mem_map.mp passed
    have knows := informed_of_reached reached call member
    rw [ObserveCall.KnowsMax, returned call member] at knows
    exact Int64.le_iff_toInt_le.mp knows

/-! ### The compare-and-swap loop -/

/-- A call that tries its swap again has loaded a value that is exceeded by now. -/
theorem maxNS_lt_of_retry (reached : state.Reached) {index : Nat}
    {loaded failing retried : LatencyState} {others : List (PoolAction Duration)}
    (loads : observe state (.advance index) = some loaded)
    (apart : ∀ action ∈ others, action ≠ .advance index)
    (ran : run observe loaded others = some failing)
    (fails : observe failing (.advance index) = some retried)
    (again : retried.phase? index = some .reload) :
    (state.phase? index = some .load ∨ state.phase? index = some .reload) ∧
      state.shared.maxNS < failing.shared.maxNS := by
  have grows := maxNS_le_of_run reached ((run_cons loads others).trans ran)
  cases Pool.move_of_next loads with
  | @advance _ call loadedCall latency found advances =>
      have inside := (List.getElem?_eq_some_iff.mp found).1
      have there := Pool.thread_of_run apart ran (List.getElem?_set_self inside)
      cases Pool.move_of_next fails with
      | @advance _ failingCall retriedCall after foundLater advancesLater =>
          rw [there] at foundLater
          cases foundLater
          have insideLater := (List.getElem?_eq_some_iff.mp there).1
          simp only [phase?, List.getElem?_set_self insideLater, Option.map_some,
            Option.some.injEq] at again
          obtain ⟨current, swaps, changed⟩ := ObserveCall.failed_of_reload advancesLater again
          obtain ⟨phase, rfl⟩ := ObserveCall.loaded_of_compareAndSwap advances swaps
          simp only [phase?, found, Option.map_some, Option.some.injEq]
          exact ⟨phase, Int64.lt_of_le_of_ne grows changed.symm⟩

/-! ### The aggregate -/

/-- A call that is alone between its first and its last operation does what the sequential model of
a worker has it do. -/
theorem observe_alone (metrics : Metrics) (calls : List ObserveCall) (duration : Duration) :
    ∃ operations : Nat,
      run observe ⟨metrics.processingLatency, calls⟩
          (.start duration :: List.replicate operations (.advance calls.length)) =
        some ⟨(metrics.observeEventProcessingDuration duration).processingLatency,
          calls ++ [{ nanoseconds := duration, phase := .returned }]⟩ := by
  by_cases larger : metrics.processingLatency.maxNS < duration
  · refine ⟨4, ?_⟩
    rw [run_cons (show observe _ (.start duration) = _ from rfl)]
    simp [run, observe, Pool.next_advance_last, ObserveCall.advance, ObserveCall.entered,
      ObserveCall.checkLoop, Metrics.observeEventProcessingDuration, larger]
  · refine ⟨3, ?_⟩
    rw [run_cons (show observe _ (.start duration) = _ from rfl)]
    simp [run, observe, Pool.next_advance_last, ObserveCall.advance, ObserveCall.entered,
      ObserveCall.checkLoop, Metrics.observeEventProcessingDuration, larger]

/-- Any number of calls can have returned. -/
theorem exists_returned (number : Nat) :
    ∃ state : LatencyState, state.Reached ∧ state.AllReturned ∧
      state.durations = List.replicate number 0 := by
  induction number with
  | zero =>
      refine ⟨new, .start, ?_, rfl⟩
      intro call member
      cases member
  | succ number inductionHypothesis =>
      obtain ⟨⟨latency, calls⟩, reached, returned, durations⟩ := inductionHypothesis
      obtain ⟨operations, ran⟩ :=
        observe_alone { Metrics.new with processingLatency := latency } calls 0
      refine ⟨_, ReachableVia.of_run reached (along_true _ _) ran, ?_, ?_⟩
      · intro call member
        rcases List.mem_append.mp member with old | last
        · exact returned call old
        · rw [List.mem_singleton.mp last]
      · rw [List.replicate_succ', ← durations]
        simp [LatencyState.durations]

/-- The latency aggregate under any interleaving of any number of calls.  The maximum never
decreases and never exceeds the largest duration of a call that has started.  When all calls have
returned, `count` is their number and `sumNS` the sum of their durations, both modulo `2^64`, and
`maxNS` is the maximum of 0 and the durations.  A call repeats its loop only if the maximum has
grown since the call's previous load. -/
theorem latency_exact (reached : state.Reached) :
    (∀ actions later, run observe state actions = some later →
        state.shared.maxNS ≤ later.shared.maxNS) ∧
      state.shared.maxNS.toInt ≤ state.durations.foldr max 0 ∧
      (state.AllReturned →
        state.shared.count.toInt = (state.threads.length : Int).bmod (2 ^ 64) ∧
        (state.threads.length < 2 ^ 63 → state.shared.count.toInt = state.threads.length) ∧
        state.shared.sumNS.toInt = state.durations.sum.bmod (2 ^ 64) ∧
        state.shared.maxNS.toInt = state.durations.foldr max 0) ∧
      ∀ index loaded others failing retried, observe state (.advance index) = some loaded →
        (∀ action ∈ others, action ≠ .advance index) → run observe loaded others = some failing →
        observe failing (.advance index) = some retried →
        retried.phase? index = some .reload →
        (state.phase? index = some .load ∨ state.phase? index = some .reload) ∧
          state.shared.maxNS < failing.shared.maxNS := by
  refine ⟨?_, maxNS_le reached, ?_, ?_⟩
  · intro actions later ran
    exact maxNS_le_of_run reached ran
  · intro returned
    have count := count_of_reached reached
    have sum := sumNS_of_reached reached
    rw [sum_addedToCount returned] at count
    rw [sum_addedToSum returned] at sum
    refine ⟨count, ?_, sum, le_antisymm (maxNS_le reached) (le_maxNS reached returned)⟩
    intro few
    rw [count]
    apply bmod_of_fits
    constructor
    · omega
    · omega
  · intro index loaded others failing retried loads apart ran fails again
    exact maxNS_lt_of_retry reached loads apart ran fails again

/-- Two calls load 0; the call with 9 swaps first, the one with 5 fails, loads 9 and returns. -/
theorem latency_exact_of_contention :
    ∃ before failing final : LatencyState,
      run observe new [.start 5, .start 9, .advance 0, .advance 0, .advance 1, .advance 1] =
        some before ∧
      run observe before [.advance 0, .advance 1, .advance 1] = some failing ∧
      run observe failing [.advance 0, .advance 0] = some final ∧
      before.shared.maxNS < failing.shared.maxNS ∧
      final.shared.count.toInt = 2 ∧ final.shared.sumNS.toInt = 14 ∧
      final.shared.maxNS.toInt = 9 := by
  refine ⟨_, _, _, rfl, rfl, rfl, ?_, ?_⟩
  · have reached := Transition.Reachable.of_run
      (show run observe new [.start 5, .start 9, .advance 0, .advance 0, .advance 1, .advance 1] = _
        from rfl)
    exact ((latency_exact reached).2.2.2 0 _ [.advance 1, .advance 1] _ _ rfl (by decide) rfl rfl
      rfl).2
  · have reached := Transition.Reachable.of_run
      (show run observe new [.start 5, .start 9, .advance 0, .advance 0, .advance 1, .advance 1,
        .advance 0, .advance 1, .advance 1, .advance 0, .advance 0] = _ from rfl)
    obtain ⟨_, count, sum, maximum⟩ := (latency_exact reached).2.2.1 (by decide)
    exact ⟨count (by decide), sum, maximum⟩

/-- After `2^63` calls `count` has wrapped around. -/
theorem count_wraps_around :
    ∃ state : LatencyState, state.Reached ∧ state.AllReturned ∧
      (∀ duration ∈ state.durations, 0 ≤ duration) ∧ state.threads.length = 2 ^ 63 ∧
      state.shared.count.toInt ≠ state.threads.length := by
  obtain ⟨state, reached, returned, durations⟩ := exists_returned (2 ^ 63)
  have number : state.threads.length = 2 ^ 63 := by
    rw [← List.length_map fun call : ObserveCall => call.nanoseconds.toInt]
    exact (congrArg List.length durations).trans List.length_replicate
  refine ⟨state, reached, returned, ?_, number, ?_⟩
  · intro duration passed
    rw [durations] at passed
    exact Int.le_of_eq (List.eq_of_mem_replicate passed).symm
  · rw [count_of_reached reached, sum_addedToCount returned, number]
    decide

end LatencyState

/-! ### Bounded work -/

namespace ObserveCall

/-- How many operations the call still makes if the maximum stays as it is. -/
def cost (latency : ProcessingLatency) (call : ObserveCall) : Nat :=
  match call.phase with
  | .addCount => 4
  | .addSum => 3
  | .load | .reload => 2
  | .compareAndSwap current => if latency.maxNS = current then 1 else 3
  | .returned => 0

/-- Whether the call can still raise the maximum. -/
def live (call : ObserveCall) : Nat := if call.phase = .returned then 0 else 1

/-- Only a new maximum sets a waiting call back, by one failed swap and one load. -/
theorem cost_le (latency after : ProcessingLatency) (waiting : ObserveCall) :
    waiting.cost after ≤ waiting.cost latency + 2 := by
  unfold cost
  cases waiting.phase with
  | compareAndSwap current =>
      simp only
      split <;> split <;> omega
  | _ => exact Nat.le_add_right _ _

theorem cost_of_maxNS {latency after : ProcessingLatency} (same : after.maxNS = latency.maxNS)
    (waiting : ObserveCall) : waiting.cost after = waiting.cost latency := by
  unfold cost
  rw [same]

theorem boundedDelay : BoundedDelay advance cost live 2 := by
  constructor
  · intro latency call after moved advances
    cases advanced_of_advance advances with
    | counted phase => simp [cost, phase]
    | summed phase => simp [cost, phase]
    | loadedSmaller phase => rcases phase with phase | phase <;> simp [cost, phase]
    | loadedEnough phase => rcases phase with phase | phase <;> simp [cost, phase]
    | swapped phase => simp [cost, phase]
    | failed phase changed => simp [cost, phase, changed]
  · intro latency call after moved waiting advances
    cases advanced_of_advance advances with
    | counted phase =>
        have same : waiting.cost { latency with count := latency.count + 1 } =
            waiting.cost latency := cost_of_maxNS rfl waiting
        simp [live, phase, same]
    | summed phase =>
        have same : waiting.cost { latency with sumNS := latency.sumNS + call.nanoseconds } =
            waiting.cost latency := cost_of_maxNS rfl waiting
        simp [live, phase, same]
    | loadedSmaller phase => rcases phase with phase | phase <;> simp [live, phase]
    | loadedEnough phase => rcases phase with phase | phase <;> simp [live, phase]
    | swapped phase =>
        -- the one step that changes the maximum also ends its call
        simpa [live, phase] using cost_le latency _ waiting
    | failed phase => simp [live, phase]
  · intro call
    unfold live
    split <;> omega

/-- A call that has not returned is never blocked. -/
theorem isSome_advance (latency : ProcessingLatency) {call : ObserveCall}
    (running : call.phase ≠ .returned) : (call.advance latency).isSome := by
  unfold advance
  cases phase : call.phase with
  | returned => exact absurd phase running
  | compareAndSwap current =>
      simp only
      split <;> rfl
  | _ => rfl

end ObserveCall

namespace LatencyState

/-- The calls are wait-free: over every interleaving of `n` calls, each call makes at most `2n + 2`
atomic operations, and until it has returned its next operation is enabled. -/
theorem observe_returns_within {actions : List (PoolAction Duration)} {state : LatencyState}
    (ran : run observe new actions = some state) (index : Nat) :
    actions.count (.advance index) ≤ 2 * state.threads.length + 2 ∧
      ∀ phase, state.phase? index = some phase → phase ≠ .returned →
        (observe state (.advance index)).isSome := by
  constructor
  · have atStart : ∀ (latency : ProcessingLatency) (duration : Duration),
        (ObserveCall.entered duration).cost latency ≤ 4 := fun _ _ => Nat.le_refl 4
    have number := Pool.length_threads_of_run ran
    rcases ObserveCall.boundedDelay.count_advance_le atStart ran index with none | within
    · omega
    · simp only [new, Pool.initial, List.length_nil] at number
      omega
  · intro phase here running
    obtain ⟨call, found, rfl⟩ := Option.map_eq_some_iff.mp here
    have enabled := ObserveCall.isSome_advance state.shared running
    simp [observe, Pool.next, found, enabled]

/-- The bound is attained: the call with 9 loads 0, the call with 5 swaps, and the first swap of the
call with 9 fails. -/
theorem observe_returns_within_of_contention :
    ∃ actions : List (PoolAction Duration), ∃ state : LatencyState,
      run observe new actions = some state ∧ state.AllReturned ∧ state.threads.length = 2 ∧
        actions.count (.advance 0) = 6 ∧
        actions.count (.advance 0) ≤ 2 * state.threads.length + 2 :=
  ⟨[.start 9, .start 5, .advance 0, .advance 0, .advance 0, .advance 1, .advance 1, .advance 1,
      .advance 1, .advance 0, .advance 0, .advance 0], _, rfl, by decide, rfl, rfl,
    (observe_returns_within rfl 0).1⟩

end LatencyState

end WebhookProcessor
