/-
Module: WebhookProcessor.Transition.Runs
Layer: Transition
Purpose: Runs of a labelled transition function and the induction rules for them.  A step function
  returns `none` when the action is not enabled.  `ReachableVia` restricts every step of a run by a
  side condition on the state before, the action and the state after; `Reachable` is the
  unrestricted case.  `ReachableVia.invariant` is the one induction every safety theorem uses, and
  `Along` speaks about each step of one run.
Trusted boundary: none
Main exports: run, ReachableVia, Reachable, ReachableVia.invariant, Along, ReachableVia.of_run,
  run_invariant, run_map, Reachable.exists_image, Possible, Possible.of_descends, collect,
  Along.later, Along.preserves
-/
import Mathlib.Data.List.Perm.Subperm
import Mathlib.Logic.Function.Basic

namespace Transition

variable {σ α : Type*} {start : σ} {next : σ → α → Option σ}

/-- Execute a sequence of actions; `none` as soon as one of them is not enabled. -/
def run (next : σ → α → Option σ) : σ → List α → Option σ
  | state, [] => some state
  | state, action :: actions =>
      match next state action with
      | none => none
      | some after => run next after actions

/-- States reached from `start` by steps that all meet `allowed`. -/
inductive ReachableVia (start : σ) (next : σ → α → Option σ) (allowed : σ → α → σ → Prop) :
    σ → Prop where
  | start : ReachableVia start next allowed start
  | step {before after : σ} {action : α} (reached : ReachableVia start next allowed before)
      (taken : next before action = some after) (meets : allowed before action after) :
      ReachableVia start next allowed after

/-- States reached by any run at all. -/
abbrev Reachable (start : σ) (next : σ → α → Option σ) : σ → Prop :=
  ReachableVia start next fun _ _ _ => True

namespace ReachableVia

variable {allowed weaker : σ → α → σ → Prop}

/-- A weaker side condition reaches at least as much. -/
theorem mono (implies : ∀ before action after, allowed before action after →
      weaker before action after) {state : σ}
    (reached : ReachableVia start next allowed state) : ReachableVia start next weaker state := by
  induction reached with
  | start => exact .start
  | step _ taken meets inductionHypothesis =>
      exact .step inductionHypothesis taken (implies _ _ _ meets)

theorem reachable {state : σ} (reached : ReachableVia start next allowed state) :
    Reachable start next state :=
  reached.mono fun _ _ _ _ => trivial

/-- What holds at the start and survives every allowed step from a reached state holds in every
reached state. -/
theorem invariant {holds : σ → Prop} (base : holds start)
    (preserved : ∀ before action after, ReachableVia start next allowed before → holds before →
      next before action = some after → allowed before action after → holds after)
    {state : σ} (reached : ReachableVia start next allowed state) : holds state := by
  induction reached with
  | start => exact base
  | step earlier taken meets inductionHypothesis =>
      exact preserved _ _ _ earlier inductionHypothesis taken meets

end ReachableVia

/-- `claim` holds of every step of the run that `actions` describes. -/
def Along (next : σ → α → Option σ) (claim : σ → α → σ → Prop) : σ → List α → Prop
  | _, [] => True
  | state, action :: actions =>
      ∀ after, next state action = some after →
        claim state action after ∧ Along next claim after actions

/-- A decidable property can be checked along a concrete run. -/
instance Along.decidable {claim : σ → α → σ → Prop}
    [∀ before action after, Decidable (claim before action after)] :
    ∀ (state : σ) (actions : List α), Decidable (Along next claim state actions)
  | _, [] => isTrue trivial
  | state, action :: actions =>
      match taken : next state action with
      | none => isTrue fun after reached => by simp [taken] at reached
      | some after =>
          have : Decidable (Along next claim after actions) := Along.decidable after actions
          decidable_of_iff (claim state action after ∧ Along next claim after actions)
            ⟨fun both other reached => by cases taken.symm.trans reached; exact both,
              fun holds => holds after taken⟩

/-- A run whose steps all meet the side condition stays within `ReachableVia`. -/
theorem ReachableVia.of_run {allowed : σ → α → σ → Prop} {actions : List α} {state final : σ}
    (reached : ReachableVia start next allowed state) (meets : Along next allowed state actions)
    (ran : run next state actions = some final) : ReachableVia start next allowed final := by
  induction actions generalizing state with
  | nil =>
      cases ran
      exact reached
  | cons action actions inductionHypothesis =>
      simp only [run] at ran
      cases taken : next state action with
      | none => simp [taken] at ran
      | some after =>
          rw [taken] at ran
          obtain ⟨head, tail⟩ := meets after taken
          exact inductionHypothesis (reached.step taken head) tail ran

theorem along_true (actions : List α) (state : σ) :
    Along next (fun _ _ _ => True) state actions := by
  induction actions generalizing state with
  | nil => trivial
  | cons action actions inductionHypothesis =>
      intro after _
      exact ⟨trivial, inductionHypothesis after⟩

/-- Every executable run ends in a reachable state. -/
theorem Reachable.of_run {actions : List α} {final : σ}
    (ran : run next start actions = some final) : Reachable start next final :=
  ReachableVia.of_run .start (along_true actions start) ran

/-- Two step properties that agree in reachable states hold along the same runs. -/
theorem along_congr {first second : σ → α → σ → Prop}
    (agree : ∀ before action after, Reachable start next before →
      next before action = some after → (first before action after ↔ second before action after))
    (actions : List α) {state : σ} (reached : Reachable start next state) :
    Along next first state actions ↔ Along next second state actions := by
  induction actions generalizing state with
  | nil => exact Iff.rfl
  | cons action actions inductionHypothesis =>
      constructor
      · intro holds after taken
        obtain ⟨head, tail⟩ := holds after taken
        exact ⟨(agree _ _ _ reached taken).mp head,
          (inductionHypothesis (reached.step taken trivial)).mp tail⟩
      · intro holds after taken
        obtain ⟨head, tail⟩ := holds after taken
        exact ⟨(agree _ _ _ reached taken).mpr head,
          (inductionHypothesis (reached.step taken trivial)).mpr tail⟩

/-- What the actions of a run preserve holds at its end. -/
theorem run_invariant (holds : σ → Prop) {actions : List α} {state final : σ}
    (preserved : ∀ before action after, action ∈ actions → next before action = some after →
      holds before → holds after)
    (base : holds state) (ran : run next state actions = some final) : holds final := by
  induction actions generalizing state with
  | nil =>
      cases ran
      exact base
  | cons action actions inductionHypothesis =>
      simp only [run] at ran
      cases taken : next state action with
      | none => simp [taken] at ran
      | some after =>
          rw [taken] at ran
          refine inductionHypothesis ?_ (preserved _ _ _ List.mem_cons_self taken base) ran
          intro before later after member
          exact preserved before later after (List.mem_cons_of_mem _ member)

theorem run_cons {state after : σ} {action : α} (taken : next state action = some after)
    (actions : List α) : run next state (action :: actions) = run next after actions := by
  simp only [run, taken]

/-- A run that begins with a given step goes on from the state after it. -/
theorem exists_run_cons {holds : σ → Prop} {state after : σ} {action : α} {actions : List α}
    (taken : next state action = some after)
    (rest : ∃ final, run next after actions = some final ∧ holds final) :
    ∃ final, run next state (action :: actions) = some final ∧ holds final := by
  rw [run_cons taken]
  exact rest

theorem run_append (earlier later : List α) (state : σ) :
    run next state (earlier ++ later) = (run next state earlier).bind (run next · later) := by
  induction earlier generalizing state with
  | nil => rfl
  | cons action earlier inductionHypothesis =>
      simp only [List.cons_append, run]
      cases next state action with
      | none => rfl
      | some after => exact inductionHypothesis after

theorem run_trans {earlier later : List α} {state middle final : σ}
    (first : run next state earlier = some middle) (second : run next middle later = some final) :
    run next state (earlier ++ later) = some final := by
  rw [run_append, first, Option.bind_some, second]

/-! ### Images -/

section Images

variable {σ' : Type*} {next' : σ' → α → Option σ'} {image : σ → σ'}

/-- A map that commutes with the steps commutes with the runs. -/
theorem run_map
    (commutes : ∀ state action, next' (image state) action = (next state action).map image)
    (state : σ) (actions : List α) :
    run next' (image state) actions = (run next state actions).map image := by
  induction actions generalizing state with
  | nil => rfl
  | cons action actions inductionHypothesis =>
      simp only [run, commutes]
      cases next state action with
      | none => rfl
      | some after => exact inductionHypothesis after

/-- What is reachable from an image is an image of something reachable. -/
theorem Reachable.exists_image
    (commutes : ∀ state action, next' (image state) action = (next state action).map image)
    {state' : σ'} (reached : Reachable (image start) next' state') :
    ∃ state, Reachable start next state ∧ image state = state' := by
  induction reached with
  | start => exact ⟨start, .start, rfl⟩
  | step _ taken _ inductionHypothesis =>
      obtain ⟨before, earlier, rfl⟩ := inductionHypothesis
      rw [commutes] at taken
      obtain ⟨after, moved, rfl⟩ := Option.map_eq_some_iff.mp taken
      exact ⟨after, earlier.step moved trivial, rfl⟩

end Images

/-- Some run of allowed actions leads to a state in which `goal` holds. -/
def Possible (next : σ → α → Option σ) (allowed : α → Prop) (goal : σ → Prop) (state : σ) : Prop :=
  ∃ actions final, run next state actions = some final ∧ (∀ action ∈ actions, allowed action) ∧
    goal final

namespace Possible

variable {allowed : α → Prop} {goal middle : σ → Prop}

theorem done {state : σ} (reached : goal state) : Possible next allowed goal state :=
  ⟨[], state, rfl, List.forall_mem_nil _, reached⟩

theorem of_run {state between : σ} {actions : List α} (ran : run next state actions = some between)
    (allows : ∀ action ∈ actions, allowed action) (possible : Possible next allowed goal between) :
    Possible next allowed goal state := by
  obtain ⟨later, final, ranOn, laterAllowed, reached⟩ := possible
  exact ⟨actions ++ later, final, run_trans ran ranOn,
    List.forall_mem_append.mpr ⟨allows, laterAllowed⟩, reached⟩

theorem step {state after : σ} {action : α} (taken : next state action = some after)
    (allows : allowed action) (possible : Possible next allowed goal after) :
    Possible next allowed goal state :=
  .of_run (run_cons taken []) (List.forall_mem_singleton.mpr allows) possible

theorem trans {state : σ} (first : Possible next allowed middle state)
    (rest : ∀ between, middle between → Possible next allowed goal between) :
    Possible next allowed goal state := by
  obtain ⟨actions, between, ran, allows, holds⟩ := first
  exact .of_run ran allows (rest between holds)

theorem mono {wider : α → Prop} {state : σ} (implies : ∀ action, allowed action → wider action)
    (possible : Possible next allowed goal state) : Possible next wider goal state := by
  obtain ⟨actions, final, ran, allAllowed, reached⟩ := possible
  exact ⟨actions, final, ran, fun action member => implies action (allAllowed action member),
    reached⟩

/-- What the allowed actions preserve holds at the end, too. -/
theorem keeping (holds : σ → Prop) {state : σ} (base : holds state)
    (preserved : ∀ before action after, allowed action → next before action = some after →
      holds before → holds after)
    (possible : Possible next allowed goal state) :
    Possible next allowed (fun final => goal final ∧ holds final) state := by
  obtain ⟨actions, final, ran, allAllowed, reached⟩ := possible
  refine ⟨actions, final, ran, allAllowed, reached, ?_⟩
  refine run_invariant holds ?_ base ran
  intro before action after member
  exact preserved before action after (allAllowed action member)

/-- If an allowed step with a smaller measure is enabled wherever the measure is not zero, some run
leads to measure zero. -/
theorem of_descends {holds : σ → Prop} (measure : σ → Nat)
    (descends : ∀ state, holds state → measure state ≠ 0 →
      ∃ action after, allowed action ∧ next state action = some after ∧ holds after ∧
        measure after < measure state)
    {state : σ} (base : holds state) :
    Possible next allowed (fun final => holds final ∧ measure final = 0) state := by
  induction bound : measure state using Nat.strongRecOn generalizing state with
  | _ bound inductionHypothesis =>
      subst bound
      by_cases zero : measure state = 0
      · exact .done ⟨base, zero⟩
      · obtain ⟨action, after, allows, taken, kept, smaller⟩ := descends state base zero
        exact .step taken allows (inductionHypothesis _ smaller kept rfl)

end Possible

/-- What `output` yields at each step of a run, in order. -/
def collect {β : Type*} (next : σ → α → Option σ) (output : σ → α → List β) : σ → List α → List β
  | _, [] => []
  | state, action :: actions =>
      match next state action with
      | none => []
      | some after => output state action ++ collect next output after actions

/-- A state component that grows by at least each step's output holds all of them, each as often as
it was yielded. -/
theorem collect_subperm {β : Type*} {output : σ → α → List β} (total : σ → List β)
    (grows : ∀ before action after, next before action = some after →
      ∃ added, total after = total before ++ added ∧ (output before action).Subperm added)
    {actions : List α} {state final : σ} (ran : run next state actions = some final) :
    ∃ added, total final = total state ++ added ∧
      (collect next output state actions).Subperm added := by
  induction actions generalizing state with
  | nil =>
      cases ran
      exact ⟨[], (List.append_nil _).symm, List.Subperm.refl _⟩
  | cons action actions inductionHypothesis =>
      simp only [run] at ran
      cases taken : next state action with
      | none => simp [taken] at ran
      | some after =>
          rw [taken] at ran
          obtain ⟨first, grown, yielded⟩ := grows state action after taken
          obtain ⟨later, ended, collected⟩ := inductionHypothesis ran
          refine ⟨first ++ later, ?_, ?_⟩
          · rw [ended, grown, List.append_assoc]
          · simp only [collect, taken]
            exact yielded.append collected

namespace Along

variable {claim : σ → α → σ → Prop}

/-- What holds of each step of a run holds of each step of its later part. -/
theorem later {earlier later : List α} {state middle : σ}
    (holds : Along next claim state (earlier ++ later))
    (ran : run next state earlier = some middle) : Along next claim middle later := by
  induction earlier generalizing state with
  | nil =>
      cases ran
      exact holds
  | cons action earlier inductionHypothesis =>
      simp only [run] at ran
      cases taken : next state action with
      | none => simp [taken] at ran
      | some after =>
          rw [taken] at ran
          exact inductionHypothesis (holds after taken).2 ran

/-- What each step of a run preserves, the run preserves. -/
theorem preserves {holds : σ → Prop}
    (preserved : ∀ before action after, claim before action after → holds before → holds after)
    {actions : List α} {state final : σ} (along : Along next claim state actions)
    (ran : run next state actions = some final) (base : holds state) : holds final := by
  induction actions generalizing state with
  | nil =>
      cases ran
      exact base
  | cons action actions inductionHypothesis =>
      simp only [run] at ran
      cases taken : next state action with
      | none => simp [taken] at ran
      | some after =>
          rw [taken] at ran
          obtain ⟨head, tail⟩ := along after taken
          exact inductionHypothesis tail ran (preserved _ _ _ head base)

/-- Two properties that each hold along a run hold together. -/
theorem and {other : σ → α → σ → Prop} {actions : List α} {state : σ}
    (first : Along next claim state actions) (second : Along next other state actions) :
    Along next (fun before action after => claim before action after ∧ other before action after)
      state actions := by
  induction actions generalizing state with
  | nil => trivial
  | cons action actions inductionHypothesis =>
      intro after taken
      obtain ⟨head, tail⟩ := first after taken
      obtain ⟨otherHead, otherTail⟩ := second after taken
      exact ⟨⟨head, otherHead⟩, inductionHypothesis tail otherTail⟩

/-- Under an invariant that the checked steps keep, a weaker property follows along the run. -/
theorem imp_of_invariant {holds : σ → Prop} {weaker : σ → α → σ → Prop}
    (preserved : ∀ before action after, holds before → next before action = some after →
      claim before action after → holds after ∧ weaker before action after)
    {actions : List α} {state : σ} (base : holds state)
    (along : Along next claim state actions) : Along next weaker state actions := by
  induction actions generalizing state with
  | nil => trivial
  | cons action actions inductionHypothesis =>
      intro after taken
      obtain ⟨head, tail⟩ := along after taken
      obtain ⟨kept, implied⟩ := preserved _ _ _ base taken head
      exact ⟨implied, inductionHypothesis kept tail⟩

/-- A weaker property holds along the same run. -/
theorem imp {weaker : σ → α → σ → Prop}
    (implies : ∀ before action after, claim before action after → weaker before action after)
    {actions : List α} {state : σ} (along : Along next claim state actions) :
    Along next weaker state actions := by
  have noInvariant : ∀ before action after, True → next before action = some after →
      claim before action after → True ∧ weaker before action after := by
    intro before action after _ _ meets
    exact ⟨trivial, implies before action after meets⟩
  exact imp_of_invariant noInvariant trivial along

/-- The step that follows a run. -/
theorem last {actions : List α} {action : α} {state before after : σ}
    (holds : Along next claim state (actions ++ [action]))
    (ran : run next state actions = some before) (taken : next before action = some after) :
    claim before action after :=
  ((holds.later ran) after taken).1

end Along

end Transition
