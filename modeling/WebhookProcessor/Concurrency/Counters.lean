/-
Module: WebhookProcessor.Concurrency.Counters
Layer: Concurrency
Purpose: Threads that run straight through a list of atomic increments and loads of shared counters.
  The counters are exact, every load lies between the values at the ends of any run around it, and a
  counter that every program increments before another one is never behind it.  The rules are proved
  for natural numbers; counters of another type that counts in the same way are images of these.
Trusted boundary: none
Main exports: CounterOp, CounterThread, Counters.next, Counters.exists_counted, Counters.shared_eq,
  Counters.relyGuarantee, Counters.le_of_seen, Counters.shared_le_of_leads, Counters.program_of_mem
-/
import WebhookProcessor.Concurrency.Pool

namespace Concurrency

open Transition

inductive CounterOp (κ : Type*) where
  | add (counter : κ)
  | load (counter : κ)
deriving Repr, DecidableEq

/-- A thread with the operations that it has made and those that are left, and with what its loads
returned, oldest first. -/
structure CounterThread (κ V : Type*) where
  made : List (CounterOp κ)
  left : List (CounterOp κ)
  seen : List (κ × V)
deriving Repr, DecidableEq

variable {κ V α : Type*}

/-- The counter that an operation loads. -/
def CounterOp.loaded? : CounterOp κ → Option κ
  | .add _ => none
  | .load counter => some counter

@[simp] theorem CounterOp.loaded?_add (counter : κ) : (CounterOp.add counter).loaded? = none := rfl

@[simp] theorem CounterOp.loaded?_load (counter : κ) :
    (CounterOp.load counter).loaded? = some counter := rfl

namespace CounterThread

def start (program : List (CounterOp κ)) : CounterThread κ V :=
  { made := []
    left := program
    seen := [] }

/-- The same thread over counters of another type. -/
def map {W : Type*} (cast : V → W) (thread : CounterThread κ V) : CounterThread κ W :=
  { made := thread.made
    left := thread.left
    seen := thread.seen.map fun entry => (entry.1, cast entry.2) }

variable [DecidableEq κ] [Add V] [One V]

/-- The next operation of a thread. -/
def advance (counters : κ → V) (thread : CounterThread κ V) :
    Option ((κ → V) × CounterThread κ V) :=
  match thread.left with
  | [] => none
  | .add counter :: left =>
      some (Function.update counters counter (counters counter + 1),
        { thread with
          made := thread.made ++ [.add counter]
          left := left })
  | .load counter :: left =>
      some (counters,
        { made := thread.made ++ [.load counter]
          left := left
          seen := thread.seen ++ [(counter, counters counter)] })

/-- What one operation does. -/
inductive Advanced (counters : κ → V) (thread : CounterThread κ V) :
    (κ → V) → CounterThread κ V → Prop where
  | added {counter : κ} {left : List (CounterOp κ)} (next : thread.left = .add counter :: left) :
      Advanced counters thread (Function.update counters counter (counters counter + 1))
        { thread with
          made := thread.made ++ [.add counter]
          left := left }
  | loaded {counter : κ} {left : List (CounterOp κ)} (next : thread.left = .load counter :: left) :
      Advanced counters thread counters
        { made := thread.made ++ [.load counter]
          left := left
          seen := thread.seen ++ [(counter, counters counter)] }

theorem advanced_of_advance {counters after : κ → V} {thread moved : CounterThread κ V}
    (advances : advance counters thread = some (after, moved)) :
    Advanced counters thread after moved := by
  unfold advance at advances
  split at advances
  · cases advances
  · rename_i next
    cases advances
    exact .added next
  · rename_i next
    cases advances
    exact .loaded next

end CounterThread

namespace Counters

open CounterThread

/-- Counters of type `V` and the threads over them. -/
abbrev State (κ V : Type*) := Pool (κ → V) (CounterThread κ V)

def zero [Zero V] : State κ V := Pool.initial fun _ => 0

variable [DecidableEq κ] (program : α → List (CounterOp κ))

/-- A program starts, or one of the threads makes its next operation. -/
def next [Add V] [One V] : State κ V → PoolAction α → Option (State κ V) :=
  Pool.next (fun argument => CounterThread.start (program argument)) CounterThread.advance

/-! ### Counters of another type -/

section Embed

variable [Add V] [One V] {embed : ℕ → V}

/-- The state that natural numbers stand for. -/
def image (embed : ℕ → V) (state : State κ ℕ) : State κ V :=
  state.map (fun counters counter => embed (counters counter)) (CounterThread.map embed)

theorem advance_image (embedSucc : ∀ count, embed (count + 1) = embed count + 1)
    (counters : κ → ℕ) (thread : CounterThread κ ℕ) :
    CounterThread.advance (fun counter => embed (counters counter)) (thread.map embed) =
      (thread.advance counters).map
        (Prod.map (fun values counter => embed (values counter)) (CounterThread.map embed)) := by
  obtain ⟨made, left, seen⟩ := thread
  cases left with
  | nil => rfl
  | cons operation left =>
      cases operation with
      | load counter => simp [CounterThread.advance, CounterThread.map]
      | add counter =>
          have updated : Function.update (fun other => embed (counters other)) counter
              (embed (counters counter) + 1) = fun other =>
                embed (Function.update counters counter (counters counter + 1) other) := by
            funext other
            by_cases same : other = counter
            · subst same
              simp [embedSucc]
            · simp [same]
          simp [CounterThread.advance, CounterThread.map, updated]

theorem next_image (embedSucc : ∀ count, embed (count + 1) = embed count + 1)
    (state : State κ ℕ) (action : PoolAction α) :
    next program (image embed state) action = (next program state action).map (image embed) := by
  have spawns : ∀ argument, (CounterThread.start (program argument) : CounterThread κ V) =
      (CounterThread.start (program argument)).map embed := fun _ => rfl
  exact Pool.next_map spawns (advance_image embedSucc) state action

/-- Behind every reachable state stand exact numbers. -/
theorem exists_counted [Zero V] (embedZero : embed 0 = 0)
    (embedSucc : ∀ count, embed (count + 1) = embed count + 1) {state : State κ V}
    (reached : Reachable zero (next program) state) :
    ∃ counted, Reachable zero (next program) counted ∧ image embed counted = state := by
  have start : image embed (zero : State κ ℕ) = zero := by
    simp [image, zero, Pool.map, Pool.initial, embedZero]
  rw [← start] at reached
  exact reached.exists_image (next_image program embedSucc)

/-- The runs from a state are the images of the runs of exact numbers. -/
theorem run_image (embedSucc : ∀ count, embed (count + 1) = embed count + 1)
    (state : State κ ℕ) (actions : List (PoolAction α)) :
    run (next program) (image embed state) actions =
      (run (next program) state actions).map (image embed) :=
  run_map (next_image program embedSucc) state actions

end Embed

/-! ### Exactness -/

variable {program}

/-- A counter has the value of the increments that were made. -/
theorem shared_eq {state : State κ ℕ} (reached : Reachable zero (next program) state)
    (counter : κ) :
    state.shared counter = (state.threads.map fun thread => thread.made.count (.add counter)).sum := by
  have accounted : Pool.Accounted (fun counters total => counters counter = total)
      (fun thread : CounterThread κ ℕ => thread.made.count (.add counter)) state := by
    refine Pool.accounted_of_reachable ?_ ?_ ?_ reached
    · rfl
    · intro argument
      rfl
    · intro before thread after moved rest advances exactly
      cases advanced_of_advance advances with
      | loaded => simpa [List.count_append] using exactly
      | @added added _ next =>
          by_cases same : counter = added
          · subst same
            simp only [Function.update_self, exactly, List.count_append, List.count_singleton_self]
            omega
          · have other : CounterOp.add added ≠ .add counter := fun equal =>
              same (CounterOp.add.inj equal).symm
            simpa [List.count_append, same, other] using exactly
  exact accounted

/-- The operations of a thread are those of its program, and it has loaded what they load. -/
def Follows (program : α → List (CounterOp κ)) (state : State κ V) : Prop :=
  ∀ thread ∈ state.threads, (∃ argument, thread.made ++ thread.left = program argument) ∧
    thread.seen.map Prod.fst = thread.made.filterMap CounterOp.loaded?

theorem program_of_mem [Zero V] [Add V] [One V] {state : State κ V}
    (reached : Reachable zero (next program) state) : Follows program state := by
  refine reached.invariant ?_ ?_
  · intro thread member
    cases member
  · intro before action after _ follows taken _ thread member
    cases Pool.move_of_next taken with
    | start argument =>
        rcases List.mem_append.mp member with old | new
        · exact follows thread old
        · rw [List.mem_singleton.mp new]
          exact ⟨⟨argument, rfl⟩, rfl⟩
    | advance found moves =>
        rcases List.mem_or_eq_of_mem_set member with old | rfl
        · exact follows thread old
        · obtain ⟨⟨argument, split⟩, seen⟩ := follows _ (List.mem_of_getElem? found)
          cases advanced_of_advance moves with
          | added next =>
              rw [next] at split
              exact ⟨⟨argument, by simpa using split⟩,
                by simpa [List.filterMap_cons] using seen⟩
          | loaded next =>
              rw [next] at split
              exact ⟨⟨argument, by simpa using split⟩,
                by simp [seen]⟩

/-! ### Loads -/

/-- No counter has gone down. -/
def Grows (before after : κ → ℕ) : Prop := ∀ counter, before counter ≤ after counter

theorem grows_of_advance {counters after : κ → ℕ} {thread moved : CounterThread κ ℕ}
    (advances : thread.advance counters = some (after, moved)) : Grows counters after := by
  intro other
  cases advanced_of_advance advances with
  | loaded => exact Nat.le_refl _
  | @added counter _ _ =>
      by_cases same : other = counter
      · subst same
        simp
      · simp [same]

/-- No load is ahead of its counter, and of two loads of a counter the later one saw no less. -/
def Informed (counters : κ → ℕ) (thread : CounterThread κ ℕ) : Prop :=
  (∀ entry ∈ thread.seen, entry.2 ≤ counters entry.1) ∧
    thread.seen.Pairwise fun first second => first.1 = second.1 → first.2 ≤ second.2

omit [DecidableEq κ] in
theorem Informed.le_of_lt {counters : κ → ℕ} {thread : CounterThread κ ℕ}
    (informed : Informed counters thread) {earlier later : Nat} (lt : earlier < later) {counter : κ}
    {before after : ℕ} (first : thread.seen[earlier]? = some (counter, before))
    (second : thread.seen[later]? = some (counter, after)) : before ≤ after := by
  obtain ⟨firstBound, firstValue⟩ := List.getElem?_eq_some_iff.mp first
  obtain ⟨secondBound, secondValue⟩ := List.getElem?_eq_some_iff.mp second
  have ordered := List.pairwise_iff_getElem.mp informed.2 earlier later firstBound secondBound lt
  rw [firstValue, secondValue] at ordered
  exact ordered rfl

theorem relyGuarantee :
    RelyGuarantee (fun argument => CounterThread.start (program argument)) CounterThread.advance
      Informed Grows := by
  constructor
  · intro counters counter
    exact Nat.le_refl _
  · intro first second third earlier later counter
    exact Nat.le_trans (earlier counter) (later counter)
  · intro counters argument
    exact ⟨List.forall_mem_nil _, List.Pairwise.nil⟩
  · rintro before thread after moved ⟨behind, ordered⟩ advances
    have grows := grows_of_advance advances
    refine ⟨grows, ?_⟩
    cases advanced_of_advance advances with
    | added =>
        exact ⟨fun entry member => Nat.le_trans (behind entry member) (grows _), ordered⟩
    | @loaded counter _ next =>
        constructor
        · intro entry member
          rcases List.mem_append.mp member with old | new
          · exact behind entry old
          · rw [List.mem_singleton.mp new]
        · rw [List.pairwise_append]
          refine ⟨ordered, List.pairwise_singleton _ _, ?_⟩
          intro entry old last new same
          rw [List.mem_singleton.mp new] at same ⊢
          have least := behind entry old
          rw [same] at least
          exact least
  · rintro before after thread grows ⟨behind, ordered⟩
    exact ⟨fun entry member => Nat.le_trans (behind entry member) (grows _), ordered⟩

/-- A thread that had loaded nothing at the beginning of a run sees counters at least as high as they
were then. -/
theorem le_of_seen {before after : State κ ℕ} {actions : List (PoolAction α)} {index : Nat}
    (ran : run (next program) before actions = some after)
    (fresh : ∀ thread ∈ before.threads[index]?, thread.seen = []) :
    ∀ thread ∈ after.threads[index]?, ∀ entry ∈ thread.seen,
      before.shared entry.1 ≤ entry.2 := by
  have ends : Grows before.shared after.shared ∧ ∀ thread ∈ after.threads[index]?,
      ∀ entry ∈ thread.seen, before.shared entry.1 ≤ entry.2 := by
    refine run_invariant (fun state => Grows before.shared state.shared ∧
      ∀ thread ∈ state.threads[index]?, ∀ entry ∈ thread.seen, before.shared entry.1 ≤ entry.2)
      ?_ ?_ ran
    · rintro state action later _ taken ⟨grows, above⟩
      cases Pool.move_of_next taken with
      | start argument =>
          refine ⟨grows, ?_⟩
          intro thread here entry member
          rw [List.getElem?_append] at here
          split at here
          · exact above thread here entry member
          · rw [List.mem_singleton.mp (List.mem_of_getElem? here)] at member
            cases member
      | @advance scheduled moving moved counters found moves =>
          have more := grows_of_advance moves
          refine ⟨fun counter => Nat.le_trans (grows counter) (more counter), ?_⟩
          intro thread here entry member
          rw [List.getElem?_set] at here
          split at here
          · rename_i same
            subst same
            split at here
            · cases here
              cases advanced_of_advance moves with
              | added => exact above _ found entry member
              | loaded =>
                  rcases List.mem_append.mp member with old | new
                  · exact above _ found entry old
                  · rw [List.mem_singleton.mp new]
                    exact grows _
            · cases here
          · exact above thread here entry member
    · refine ⟨fun _ => Nat.le_refl _, ?_⟩
      intro thread here entry member
      rw [fresh thread here] at member
      cases member
  exact ends.2

/-! ### One counter ahead of another -/

/-- At every point of the program the first counter has been incremented at least as often as the
second. -/
def Leads (operations : List (CounterOp κ)) (first second : κ) : Prop :=
  ∀ made left, made ++ left = operations → made.count (.add second) ≤ made.count (.add first)

theorem Leads.of_not_mem {operations : List (CounterOp κ)} {second : κ}
    (absent : .add second ∉ operations) (first : κ) : Leads operations first second := by
  rintro made left rfl
  have none : made.count (.add second) = 0 := by
    apply List.count_eq_zero_of_not_mem
    exact fun member => absent (List.mem_append_left _ member)
  omega

theorem Leads.pair (first second : κ) : Leads [.add first, .add second] first second := by
  intro made left split
  rcases List.append_eq_cons_iff.mp split with ⟨rfl, _⟩ | ⟨rest, rfl, later⟩
  · exact Nat.le_refl _
  · have one : rest.count (.add second) ≤ 1 := by
      have most := List.Sublist.count_le (.add second) (List.sublist_append_left rest left)
      rw [← later, List.count_singleton_self] at most
      exact most
    by_cases same : first = second
    · subst same
      exact Nat.le_refl _
    · have other : CounterOp.add first ≠ .add second := fun equal => same (CounterOp.add.inj equal)
      rw [List.count_cons_of_ne other, List.count_cons_self]
      omega

/-- A counter that leads in every program is never behind. -/
theorem shared_le_of_leads {first second : κ}
    (leads : ∀ argument, Leads (program argument) first second) {state : State κ ℕ}
    (reached : Reachable zero (next program) state) :
    state.shared second ≤ state.shared first := by
  rw [shared_eq reached, shared_eq reached]
  apply List.sum_le_sum
  intro thread member
  obtain ⟨⟨argument, split⟩, _⟩ := program_of_mem reached thread member
  exact leads argument _ _ split

end Counters

end Concurrency
