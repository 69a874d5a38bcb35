/-
Module: WebhookProcessor.Concurrency.Pool
Layer: Concurrency
Purpose: Any number of threads over one shared state.  A thread is a value that `advance` moves by
  one atomic step.  At each step of the pool a new thread starts or one of the threads advances, so
  the runs of the pool are all interleavings.  Two rules derive invariants of the pool from single
  steps of one thread: what the threads contribute to the shared state together, and what each of
  them knows of the shared state while the others respect a guarantee.  A third rule bounds the
  steps of one thread when every delay that it suffers uses up another thread.
Trusted boundary: none
Main exports: Pool, PoolAction, Pool.next, Pool.move_of_next, Pool.map, Pool.next_map,
  Pool.accounted_of_reachable, Pool.thread_of_run, RelyGuarantee, RelyGuarantee.informed_of_reachable,
  RelyGuarantee.guarantee_of_run, BoundedDelay, BoundedDelay.count_advance_le
-/
import Mathlib.Algebra.BigOperators.Group.List.Basic
import Mathlib.Algebra.Order.BigOperators.Group.List
import Mathlib.Algebra.Order.Ring.Nat
import WebhookProcessor.Transition.Runs

namespace Concurrency

open Transition

/-- Threads over a shared state, in the order in which they started. -/
structure Pool (σ τ : Type*) where
  shared : σ
  threads : List τ
deriving Repr, DecidableEq

/-- A scheduling decision: start a thread on an argument, or advance the thread at an index. -/
inductive PoolAction (α : Type*) where
  | start (argument : α)
  | advance (index : Nat)
deriving Repr, DecidableEq

variable {σ τ α : Type*}

namespace Pool

/-- No thread has started. -/
def initial (shared : σ) : Pool σ τ :=
  { shared := shared
    threads := [] }

section Steps

variable (spawn : α → τ) (advance : σ → τ → Option (σ × τ))

/-- One atomic step of the pool. -/
def next (pool : Pool σ τ) : PoolAction α → Option (Pool σ τ)
  | .start argument => some { pool with threads := pool.threads ++ [spawn argument] }
  | .advance index =>
      pool.threads[index]?.bind fun thread =>
        (advance pool.shared thread).map fun (shared, moved) =>
          { shared := shared
            threads := pool.threads.set index moved }

/-- What one step does. -/
inductive Move (before : Pool σ τ) : PoolAction α → Pool σ τ → Prop where
  | start (argument : α) :
      Move before (.start argument)
        { shared := before.shared
          threads := before.threads ++ [spawn argument] }
  | advance {index : Nat} {thread moved : τ} {shared : σ}
      (found : before.threads[index]? = some thread)
      (moves : advance before.shared thread = some (shared, moved)) :
      Move before (.advance index)
        { shared := shared
          threads := before.threads.set index moved }

end Steps

variable {spawn : α → τ} {advance : σ → τ → Option (σ × τ)}

theorem move_of_next {before after : Pool σ τ} {action : PoolAction α}
    (taken : next spawn advance before action = some after) :
    Move spawn advance before action after := by
  cases action with
  | start argument =>
      cases taken
      exact .start argument
  | advance index =>
      obtain ⟨thread, found, rest⟩ := Option.bind_eq_some_iff.mp taken
      obtain ⟨⟨shared, moved⟩, moves, result⟩ := Option.map_eq_some_iff.mp rest
      cases result
      exact .advance found moves

/-- The threads before and after one that moves. -/
theorem exists_split {threads : List τ} {index : Nat} {thread : τ}
    (found : threads[index]? = some thread) :
    ∃ earlier later, threads = earlier ++ thread :: later ∧
      ∀ moved, threads.set index moved = earlier ++ moved :: later := by
  obtain ⟨inside, here⟩ := List.getElem?_eq_some_iff.mp found
  refine ⟨threads.take index, threads.drop (index + 1), ?_, ?_⟩
  · rw [← here, List.cons_getElem_drop_succ, List.take_append_drop]
  · intro moved
    rw [List.set_eq_take_append_cons_drop, if_pos inside]

/-- What no step of a thread changes is the same before and after it moves. -/
theorem map_set_of_keeps {β : Type*} {threads : List τ} {index : Nat} {thread moved : τ}
    (view : τ → β) (found : threads[index]? = some thread) (keeps : view moved = view thread) :
    (threads.set index moved).map view = threads.map view := by
  obtain ⟨earlier, later, split, replaced⟩ := exists_split found
  rw [replaced, split, List.map_append, List.map_append, List.map_cons, List.map_cons, keeps]

/-- The thread that started last advances. -/
theorem next_advance_last (shared : σ) (threads : List τ) (last : τ) :
    next spawn advance ⟨shared, threads ++ [last]⟩ (.advance threads.length) =
      (advance shared last).map fun (shared, moved) => ⟨shared, threads ++ [moved]⟩ := by
  simp [next]

/-! ### Images -/

section Images

variable {σ' τ' : Type*} {spawn' : α → τ'} {advance' : σ' → τ' → Option (σ' × τ')}
  {shared : σ → σ'} {thread : τ → τ'}

def map (shared : σ → σ') (thread : τ → τ') (pool : Pool σ τ) : Pool σ' τ' :=
  { shared := shared pool.shared
    threads := pool.threads.map thread }

/-- Maps that commute with the steps of one thread commute with those of the pool. -/
theorem next_map (spawns : ∀ argument, spawn' argument = thread (spawn argument))
    (advances : ∀ before moving, advance' (shared before) (thread moving) =
      (advance before moving).map (Prod.map shared thread))
    (pool : Pool σ τ) (action : PoolAction α) :
    next spawn' advance' (pool.map shared thread) action =
      (next spawn advance pool action).map (Pool.map shared thread) := by
  cases action with
  | start argument => simp [next, map, spawns]
  | advance index =>
      simp only [next, map, List.getElem?_map]
      cases pool.threads[index]? with
      | none => rfl
      | some moving =>
          simp only [Option.map_some, Option.bind_some, advances, Option.map_map]
          cases advance pool.shared moving with
          | none => rfl
          | some moved => simp [map, List.map_set]

end Images

/-! ### Contributions -/

/-- A relation between the shared state and the sum of the threads' contributions. -/
def Accounted {M : Type*} [AddCommMonoid M] (holds : σ → M → Prop) (weight : τ → M)
    (pool : Pool σ τ) : Prop :=
  holds pool.shared (pool.threads.map weight).sum

/-- A step changes the contribution of the thread that takes it, whatever the others have
contributed. -/
theorem accounted_of_reachable {M : Type*} [AddCommMonoid M] {holds : σ → M → Prop}
    {weight : τ → M} {shared : σ}
    (base : holds shared 0) (fresh : ∀ argument, weight (spawn argument) = 0)
    (step : ∀ before thread after moved rest, advance before thread = some (after, moved) →
      holds before (weight thread + rest) → holds after (weight moved + rest))
    {pool : Pool σ τ} (reached : Reachable (initial shared) (next spawn advance) pool) :
    Accounted holds weight pool := by
  refine reached.invariant ?_ ?_
  · exact base
  · intro before action after _ accounts taken _
    unfold Accounted at accounts ⊢
    cases move_of_next taken with
    | start argument => simpa [fresh] using accounts
    | advance found moves =>
        obtain ⟨earlier, later, split, replaced⟩ := exists_split found
        simp only [replaced, List.map_append, List.map_cons, List.sum_append, List.sum_cons]
        rw [add_left_comm]
        apply step _ _ _ _ _ moves
        rw [split] at accounts
        simpa [add_left_comm] using accounts

/-! ### Threads that are not scheduled -/

theorem thread_of_next {before after : Pool σ τ} {action : PoolAction α} {index : Nat} {thread : τ}
    (taken : next spawn advance before action = some after) (other : action ≠ .advance index)
    (here : before.threads[index]? = some thread) : after.threads[index]? = some thread := by
  cases move_of_next taken with
  | start argument =>
      rw [List.getElem?_append_left (List.getElem?_eq_some_iff.mp here).1, here]
  | @advance scheduled _ _ _ found moves =>
      have apart : scheduled ≠ index := fun same => other (congrArg PoolAction.advance same)
      rw [List.getElem?_set_ne apart, here]

/-- A thread stays as it is while others advance. -/
theorem thread_of_run {pool final : Pool σ τ} {actions : List (PoolAction α)} {index : Nat}
    {thread : τ} (others : ∀ action ∈ actions, action ≠ .advance index)
    (ran : run (next spawn advance) pool actions = some final)
    (here : pool.threads[index]? = some thread) : final.threads[index]? = some thread := by
  refine run_invariant (fun pool => pool.threads[index]? = some thread) ?_ here ran
  intro before action after member taken kept
  exact thread_of_next taken (others action member) kept

end Pool

/-! ### Rely and guarantee -/

/-- Every step of a thread meets the guarantee and reestablishes what the thread knows; what the
other threads know survives the guarantee. -/
structure RelyGuarantee (spawn : α → τ) (advance : σ → τ → Option (σ × τ)) (knows : σ → τ → Prop)
    (guarantee : σ → σ → Prop) : Prop where
  refl : ∀ shared, guarantee shared shared
  trans : ∀ first second third, guarantee first second → guarantee second third →
    guarantee first third
  fresh : ∀ shared argument, knows shared (spawn argument)
  step : ∀ before thread after moved, knows before thread →
    advance before thread = some (after, moved) → guarantee before after ∧ knows after moved
  stable : ∀ before after thread, guarantee before after → knows before thread →
    knows after thread

namespace RelyGuarantee

open Pool

variable {spawn : α → τ} {advance : σ → τ → Option (σ × τ)} {knows : σ → τ → Prop}
  {guarantee : σ → σ → Prop}

/-- Every thread of the pool knows what it should. -/
def Informed (knows : σ → τ → Prop) (pool : Pool σ τ) : Prop :=
  ∀ thread ∈ pool.threads, knows pool.shared thread

theorem step_informed (sound : RelyGuarantee spawn advance knows guarantee)
    {before after : Pool σ τ} {action : PoolAction α} (informed : Informed knows before)
    (taken : next spawn advance before action = some after) :
    guarantee before.shared after.shared ∧ Informed knows after := by
  cases move_of_next taken with
  | start argument =>
      refine ⟨sound.refl _, ?_⟩
      intro thread member
      rcases List.mem_append.mp member with old | new
      · exact informed thread old
      · rw [List.mem_singleton.mp new]
        exact sound.fresh _ argument
  | advance found moves =>
      obtain ⟨kept, own⟩ := sound.step _ _ _ _ (informed _ (List.mem_of_getElem? found)) moves
      refine ⟨kept, ?_⟩
      intro thread member
      rcases List.mem_or_eq_of_mem_set member with old | rfl
      · exact sound.stable _ _ _ kept (informed thread old)
      · exact own

theorem informed_of_reachable (sound : RelyGuarantee spawn advance knows guarantee) {shared : σ}
    {pool : Pool σ τ} (reached : Reachable (initial shared) (next spawn advance) pool) :
    Informed knows pool := by
  refine reached.invariant ?_ ?_
  · intro thread member
    cases member
  · intro before action after _ informed taken _
    exact (sound.step_informed informed taken).2

/-- The guarantee relates the shared states at the two ends of every run. -/
theorem guarantee_of_run (sound : RelyGuarantee spawn advance knows guarantee)
    {pool final : Pool σ τ} {actions : List (PoolAction α)} (informed : Informed knows pool)
    (ran : run (next spawn advance) pool actions = some final) :
    guarantee pool.shared final.shared := by
  have ends : guarantee pool.shared final.shared ∧ Informed knows final := by
    refine run_invariant (fun later => guarantee pool.shared later.shared ∧ Informed knows later)
      ?_ ⟨sound.refl _, informed⟩ ran
    rintro before action after _ taken ⟨sofar, still⟩
    obtain ⟨more, kept⟩ := sound.step_informed still taken
    exact ⟨sound.trans _ _ _ sofar more, kept⟩
  exact ends.1

end RelyGuarantee

/-! ### Bounded work -/

/-- A thread comes closer to its end with each of its own steps.  A step of another thread sets it
back by at most `delay`, and only by using up that other thread. -/
structure BoundedDelay (advance : σ → τ → Option (σ × τ)) (cost : σ → τ → Nat) (live : τ → Nat)
    (delay : Nat) : Prop where
  own : ∀ before thread after moved, advance before thread = some (after, moved) →
    cost after moved < cost before thread
  other : ∀ before thread after moved waiting, advance before thread = some (after, moved) →
    cost after waiting + delay * live moved ≤ cost before waiting + delay * live thread
  atMostOne : ∀ thread, live thread ≤ 1

/-- A thread starts. -/
def PoolAction.isStart : PoolAction α → Bool
  | .start _ => true
  | .advance _ => false

/-- A thread and the others share the total. -/
theorem Pool.live_add_others (live : τ → Nat) {threads : List τ} {index : Nat} {thread : τ}
    (here : threads[index]? = some thread) :
    live thread + ((threads.eraseIdx index).map live).sum = (threads.map live).sum := by
  obtain ⟨inside, rfl⟩ := List.getElem?_eq_some_iff.mp here
  have permuted := (List.getElem_cons_eraseIdx_perm inside).map live
  simpa using permuted.sum_eq

/-- The total after one of the threads has moved. -/
theorem Pool.live_set (live : τ → Nat) {threads : List τ} {index : Nat} {thread : τ}
    (here : threads[index]? = some thread) (moved : τ) :
    ((threads.set index moved).map live).sum + live thread =
      (threads.map live).sum + live moved := by
  obtain ⟨earlier, later, split, replaced⟩ := Pool.exists_split here
  rw [replaced, split]
  simp only [List.map_append, List.map_cons, List.sum_append, List.sum_cons]
  omega

namespace BoundedDelay

open Pool

variable {spawn : α → τ} {advance : σ → τ → Option (σ × τ)} {cost : σ → τ → Nat}
  {live : τ → Nat} {delay : Nat}

/-- What a thread can still do: its own cost and a delay for each of the others. -/
def work (cost : σ → τ → Nat) (live : τ → Nat) (delay : Nat) (pool : Pool σ τ) (index : Nat)
    (thread : τ) : Nat :=
  cost pool.shared thread + delay * ((pool.threads.eraseIdx index).map live).sum

/-- A step of another thread does not add to the work; a new thread adds one delay. -/
theorem work_of_next (bounded : BoundedDelay advance cost live delay)
    {before after : Pool σ τ} {action : PoolAction α} {index : Nat} {thread : τ}
    (taken : next spawn advance before action = some after) (other : action ≠ .advance index)
    (here : before.threads[index]? = some thread) :
    work cost live delay after index thread ≤
      work cost live delay before index thread + delay * (if action.isStart then 1 else 0) := by
  have still := thread_of_next taken other here
  have total := live_add_others live here
  have totalAfter := live_add_others live still
  unfold work
  cases move_of_next taken with
  | start argument =>
      have one := bounded.atMostOne (spawn argument)
      simp only [List.map_append, List.map_cons, List.map_nil, List.sum_append, List.sum_cons,
        List.sum_nil] at totalAfter
      have others : (((before.threads ++ [spawn argument]).eraseIdx index).map live).sum ≤
          ((before.threads.eraseIdx index).map live).sum + 1 := by
        omega
      have scaled := Nat.mul_le_mul_left delay others
      simp only [PoolAction.isStart, if_true, Nat.mul_one]
      rw [Nat.mul_add] at scaled
      omega
  | @advance scheduled moving moved shared found moves =>
      have paid := bounded.other _ _ _ _ thread moves
      have changed := live_set live found moved
      simp only at totalAfter
      have others : (((before.threads.set scheduled moved).eraseIdx index).map live).sum +
          live moving = ((before.threads.eraseIdx index).map live).sum + live moved := by
        omega
      have scaled := congrArg (delay * ·) others
      simp only [Nat.mul_add] at scaled
      simp only [PoolAction.isStart, Bool.false_eq_true, if_false, Nat.mul_zero]
      omega

/-- A step of the thread itself lowers its work. -/
theorem work_of_advance (bounded : BoundedDelay advance cost live delay)
    {before after : Pool σ τ} {index : Nat} {thread : τ}
    (taken : next spawn advance before (.advance index) = some after)
    (here : before.threads[index]? = some thread) :
    ∃ moved, after.threads[index]? = some moved ∧
      work cost live delay after index moved < work cost live delay before index thread := by
  cases move_of_next taken with
  | @advance _ moving moved shared found moves =>
      cases found.symm.trans here
      have inside := (List.getElem?_eq_some_iff.mp here).1
      refine ⟨moved, ?_, ?_⟩
      · rw [List.getElem?_set_self inside]
      · have lower := bounded.own _ _ _ _ moves
        simp only [work, List.eraseIdx_set_eq]
        omega

/-- A thread takes no more steps than its work and one delay for each thread that starts. -/
theorem count_advance_le_work (bounded : BoundedDelay advance cost live delay)
    [DecidableEq α] {pool final : Pool σ τ} {actions : List (PoolAction α)} {index : Nat}
    {thread : τ} (here : pool.threads[index]? = some thread)
    (ran : run (next spawn advance) pool actions = some final) :
    actions.count (.advance index) ≤
      work cost live delay pool index thread + delay * actions.countP PoolAction.isStart := by
  induction actions generalizing pool thread with
  | nil => exact Nat.zero_le _
  | cons action actions inductionHypothesis =>
      simp only [run] at ran
      cases taken : next spawn advance pool action with
      | none => simp [taken] at ran
      | some after =>
          rw [taken] at ran
          by_cases own : action = .advance index
          · subst own
            obtain ⟨moved, still, lower⟩ := bounded.work_of_advance taken here
            have rest := inductionHypothesis still ran
            rw [List.count_cons_self, List.countP_cons_of_neg (by simp [PoolAction.isStart])]
            omega
          · have rest := inductionHypothesis (thread_of_next taken own here) ran
            have first := bounded.work_of_next taken own here
            rw [List.count_cons_of_ne own, List.countP_cons, Nat.mul_add]
            omega

/-- The work of a thread that has just started on an argument. -/
theorem work_of_start (bounded : BoundedDelay advance cost live delay) {first : Nat}
    (atStart : ∀ shared argument, cost shared (spawn argument) ≤ first) (pool : Pool σ τ)
    (argument : α) :
    work cost live delay { pool with threads := pool.threads ++ [spawn argument] }
      pool.threads.length (spawn argument) ≤ first + delay * pool.threads.length := by
  have others : (pool.threads.map live).sum ≤ pool.threads.length := by
    have each : ∀ count ∈ pool.threads.map live, count ≤ 1 := by
      intro count member
      obtain ⟨thread, _, rfl⟩ := List.mem_map.mp member
      exact bounded.atMostOne thread
    simpa using List.sum_le_card_nsmul _ 1 each
  have own := atStart pool.shared argument
  have scaled := Nat.mul_le_mul_left delay others
  have erased : (pool.threads ++ [spawn argument]).eraseIdx pool.threads.length = pool.threads := by
    rw [List.eraseIdx_append_of_length_le (Nat.le_refl _)]
    simp
  simp only [work, erased]
  omega

/-- A thread that is still to start takes no step before, and then as many as its work allows. -/
theorem count_advance_of_absent (bounded : BoundedDelay advance cost live delay)
    [DecidableEq α] {first : Nat}
    (atStart : ∀ shared argument, cost shared (spawn argument) ≤ first) {pool final : Pool σ τ}
    {actions : List (PoolAction α)} {index : Nat} (absent : pool.threads.length ≤ index)
    (ran : run (next spawn advance) pool actions = some final) :
    actions.count (.advance index) = 0 ∨
      actions.count (.advance index) + delay ≤
        first + delay * (pool.threads.length + actions.countP PoolAction.isStart) := by
  induction actions generalizing pool with
  | nil => exact Or.inl rfl
  | cons action actions inductionHypothesis =>
      simp only [run] at ran
      cases taken : next spawn advance pool action with
      | none => simp [taken] at ran
      | some after =>
          rw [taken] at ran
          cases move_of_next taken with
          | @advance scheduled _ moved shared found moves =>
              have apart : PoolAction.advance scheduled ≠ (.advance index : PoolAction α) := by
                intro same
                cases same
                rw [List.getElem?_eq_none absent] at found
                cases found
              have rest := inductionHypothesis (by simpa using absent) ran
              rw [List.count_cons_of_ne apart, List.countP_cons_of_neg (by simp [PoolAction.isStart])]
              simpa using rest
          | start argument =>
              have apart : PoolAction.start argument ≠ .advance index := by simp
              rw [List.count_cons_of_ne apart, List.countP_cons_of_pos rfl]
              rcases Nat.eq_or_lt_of_le absent with here | later
              · subst here
                have rest := bounded.count_advance_le_work (List.getElem?_concat_length ..) ran
                have started := bounded.work_of_start atStart pool argument
                refine Or.inr ?_
                simp only [Nat.mul_add] at *
                omega
              · have stillAbsent : (pool.threads ++ [spawn argument]).length ≤ index := by
                  rw [List.length_append]
                  exact later
                rcases inductionHypothesis stillAbsent ran with none | some
                · exact Or.inl none
                · refine Or.inr ?_
                  simp only [List.length_append, List.length_singleton, Nat.mul_add] at *
                  omega

/-- From the empty pool on, a thread takes at most `first` steps and one delay for each other
thread. -/
theorem count_advance_le (bounded : BoundedDelay advance cost live delay) [DecidableEq α]
    {first : Nat} (atStart : ∀ shared argument, cost shared (spawn argument) ≤ first) {shared : σ}
    {final : Pool σ τ} {actions : List (PoolAction α)}
    (ran : run (next spawn advance) (initial shared) actions = some final) (index : Nat) :
    actions.count (.advance index) = 0 ∨
      actions.count (.advance index) + delay ≤
        first + delay * actions.countP PoolAction.isStart := by
  simpa [initial] using bounded.count_advance_of_absent atStart (Nat.zero_le index) ran

end BoundedDelay

/-- The threads of a pool are those that have started. -/
theorem Pool.length_threads_of_run {spawn : α → τ} {advance : σ → τ → Option (σ × τ)}
    {pool final : Pool σ τ} {actions : List (PoolAction α)}
    (ran : run (next spawn advance) pool actions = some final) :
    final.threads.length = pool.threads.length + actions.countP PoolAction.isStart := by
  induction actions generalizing pool with
  | nil =>
      cases ran
      rfl
  | cons action actions inductionHypothesis =>
      simp only [run] at ran
      cases taken : next spawn advance pool action with
      | none => simp [taken] at ran
      | some after =>
          rw [taken] at ran
          rw [inductionHypothesis ran]
          cases move_of_next taken with
          | start argument =>
              rw [List.countP_cons_of_pos rfl, List.length_append, List.length_singleton]
              omega
          | advance =>
              rw [List.countP_cons_of_neg (by simp [PoolAction.isStart]), List.length_set]

end Concurrency
