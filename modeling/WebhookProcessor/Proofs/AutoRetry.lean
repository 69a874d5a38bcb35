/-
Module: WebhookProcessor.Proofs.AutoRetry
Layer: Proofs
Purpose: Whether a claimed dead letter finds its way back into the automatic retry.  The claim takes
  `next_retry_at` away, and only a successful replay or a reschedule brings the row forward again.
  The reschedule runs under the scheduler's own cancellable context and its error is only logged,
  so a row whose reschedule does not execute is never eligible again; where none is lost that way,
  every open row with attempts left is scheduled whenever no scheduler is inside `retry`.
Trusted boundary: none
Main exports: AtStake, RetryNotLost, AllAwaited, auto_retry_never_stranded
-/
import WebhookProcessor.Model.Calls
import WebhookProcessor.Proofs.SchedulerItems

namespace WebhookProcessor

open Transition

/-- The dead letter is open, has attempts left and is not scheduled. -/
def AtStake (config : Config) (db : Database) (id : EventId) : Prop :=
  ∃ row ∈ db.deadLetter? id, row.replayedAt = none ∧ row.nextRetryAt = none ∧
    row.replayAttempts < config.dlqAutoRetryMaxAttempts

instance (config : Config) (db : Database) (id : EventId) : Decidable (AtStake config db id) :=
  inferInstanceAs (Decidable (∃ row ∈ db.deadLetter? id, _))

variable {Payload : Type}

/-- No step gives up a claimed dead letter that is still at stake: the answer of the claim arrives,
a reschedule that is needed executes, a scheduler does not die in the middle, and nobody outside
the scheduler claims a row that has attempts left. -/
def RetryNotLost (config : Config) (before : System Payload) (action : Action Payload)
    (_ : System Payload) : Prop :=
  match action with
  | .claimRetryable _ now _ outcome =>
      outcome = .ok ∨ ∀ row ∈ before.db.retryCandidates 10 config.dlqAutoRetryMaxAttempts now,
        config.dlqAutoRetryMaxAttempts ≤ row.replayAttempts + 1
  | .reschedule _ item _ _ _ _ outcome =>
      outcome.Effective ∨ ¬ AtStake config before.db item.eventId
  | .crashScheduler n =>
      ∀ item ∈ (before.schedulers n).pending, ¬ AtStake config before.db item.eventId
  | .claimRetryableDeadLetters limit maxAttempts now =>
      ∀ row ∈ before.db.retryCandidates limit maxAttempts now,
        config.dlqAutoRetryMaxAttempts ≤ row.replayAttempts + 1
  | _ => True

instance (config : Config) (before : System Payload) (action : Action Payload)
    (after : System Payload) : Decidable (RetryNotLost config before action after) := by
  apply Action.casesOn (motive := fun action =>
    Decidable (RetryNotLost config before action after)) action
  all_goals
    intros
    delta RetryNotLost
    infer_instance

/-- Every dead letter at stake is awaited by a scheduler. -/
def AllAwaited (config : Config) (s : System Payload) : Prop :=
  ∀ id, AtStake config s.db id → ∃ n, ∃ item ∈ s.awaited n, item.eventId = id

variable [DecidableEq Payload] {codec : Codec Payload} {config : Config} {s s' : System Payload}
  {action : Action Payload}

/-- A reschedule that executes schedules the dead letter if it is still open. -/
private theorem not_atStake_of_reschedule {n : Nat} {item : RetryableDeadLetterDetail}
    {error : ReplayError} {rest : List RetryableDeadLetterDetail} {now delay : Time}
    {outcome : Outcome}
    (taken : step codec config s (.reschedule n item error rest now delay outcome) = some s')
    (effective : outcome.Effective) : ¬ AtStake config s'.db item.eventId := by
  rintro ⟨row, found, isOpen, unscheduled, _⟩
  simp only [step, Option.ite_none_right_eq_some, Option.some.injEq] at taken
  obtain ⟨_, rfl⟩ := taken
  simp only [System.setScheduler, effective, if_true, Option.mem_def,
    Database.deadLetter?_rescheduleDeadLetterRetry, Option.map_eq_some_iff] at found
  obtain ⟨old, _, written⟩ := found
  split at written
  · rw [← written] at unscheduled
    cases unscheduled
  · rename_i closed
    rw [written] at closed
    exact closed isOpen

/-- A claim whose answer arrives puts every claimed dead letter on the scheduler's list. -/
private theorem awaited_of_claim (reached : Reachable codec config s) {n : Nat} {now : Time}
    {order : List EventId}
    (taken : step codec config s (.claimRetryable n now order .ok) = some s') {row : DeadLetterRow}
    (candidate : row ∈ s.db.retryCandidates 10 config.dlqAutoRetryMaxAttempts now) :
    ∃ item ∈ s'.awaited n, item.eventId = row.eventId := by
  have effect := step_awaited reached taken n
  generalize s'.awaited n = items at effect
  cases effect with
  | unchanged stays => exact absurd rfl stays
  | claimed _ returned =>
      have received := orderItems_perm (claimedIds_nodup s now) returned
      have claimed := List.mem_map_of_mem
        (f := fun row : DeadLetterRow => (⟨row.eventId, row.replayAttempts + 1⟩ :
          RetryableDeadLetterDetail)) candidate
      exact ⟨_, received.mem_iff.mpr claimed, rfl⟩

theorem AllAwaited.of_step (reached : Reachable codec config s) (inv : AllAwaited config s)
    (taken : step codec config s action = some s') (kept : RetryNotLost config s action s') :
    AllAwaited config s' := by
  intro id atStake
  obtain ⟨row, found, isOpen, unscheduled, left⟩ := atStake
  have atStake : AtStake config s'.db id := ⟨row, found, isOpen, unscheduled, left⟩
  have effect := step_deadLetter taken id
  rw [Option.mem_def.mp found] at effect
  generalize same : some row = after at effect
  cases effect with
  | unchanged =>
      have before : AtStake config s.db id := ⟨row, same.symm, isOpen, unscheduled, left⟩
      obtain ⟨n, item, awaited, rfl⟩ := inv id before
      have items := step_awaited reached taken n
      by_cases still : item ∈ s'.awaited n
      · exact ⟨n, item, still, rfl⟩
      · generalize s'.awaited n = left at items still
        cases items with
        | unchanged => exact absurd awaited still
        | claimed idle =>
            rw [System.awaited_of_idle idle] at awaited
            cases awaited
        | committed _ first sameEvent =>
            rw [first] at awaited
            rcases List.mem_cons.mp awaited with rfl | later
            · rw [sameEvent] at found
              exact absurd isOpen (closed_of_commit taken found)
            · exact absurd later still
        | rescheduled _ first =>
            rw [first] at awaited
            rcases List.mem_cons.mp awaited with rfl | later
            · rcases kept with effective | settled
              · exact absurd atStake (not_atStake_of_reschedule taken effective)
              · exact absurd before settled
            · exact absurd later still
        | crashed => exact absurd before (kept item (s.awaited_subset n awaited))
  | saved =>
      cases before : s.db.deadLetter? id with
      | none =>
          rw [before] at same
          cases same
          cases unscheduled
      | some old =>
          rw [before] at same
          cases same
          cases unscheduled
  | @spent n now order outcome old _ _ foundOld candidate =>
      cases same
      have rowEvent := s.db.eventId_of_deadLetter? foundOld
      rcases kept with rfl | exhausted
      · rw [← rowEvent]
        exact ⟨n, awaited_of_claim reached taken candidate⟩
      · exact absurd left (Nat.not_lt.mpr (exhausted old candidate))
  | spentDirectly _ candidate =>
      cases same
      exact absurd left (Nat.not_lt.mpr (kept _ candidate))
  | rescheduled =>
      cases same
      cases unscheduled
  | rescheduledDirectly =>
      cases same
      cases unscheduled
  | replayed =>
      cases same
      cases isOpen

theorem allAwaited (reached : ReachableVia codec config (RetryNotLost config) s) :
    AllAwaited config s := by
  refine reached.invariant ?_ ?_
  · rintro id ⟨row, found, _⟩
    cases found
  · intro before action after earlier inv taken kept
    exact inv.of_step earlier.reachable taken kept

/-- In a run that gives up no claimed dead letter, whenever no scheduler is inside `retry` every
open dead letter with attempts left is scheduled. -/
theorem auto_retry_never_stranded
    (reached : ReachableVia codec config (RetryNotLost config) s)
    (outside : ∀ n, s.schedulers n = .idle) :
    ∀ row ∈ s.db.deadLetters.rows, row.replayedAt = none →
      row.replayAttempts < config.dlqAutoRetryMaxAttempts → row.nextRetryAt ≠ none := by
  intro row member isOpen left unscheduled
  have atStake : AtStake config s.db row.eventId :=
    ⟨row, s.db.deadLetter?_of_mem member, isOpen, unscheduled, left⟩
  obtain ⟨n, item, awaited, _⟩ := allAwaited reached row.eventId atStake
  have pending := s.awaited_subset n awaited
  simp [outside n, Scheduler.pending] at pending

/-! ### A shutdown in the middle of a retry -/

/-- Only scheduler 0 runs, so no scheduler is inside `retry` when it is not. -/
theorem schedulers_idle_of_run {actions : List (Action Payload)}
    (only : ∀ action ∈ actions, ∀ n ∈ action.scheduler?, n = 0)
    (ran : run (step codec config) System.initial actions = some s)
    (outside : s.schedulers 0 = .idle) (n : Nat) : s.schedulers n = .idle := by
  by_cases first : n = 0
  · subst first
    exact outside
  · refine run_invariant (fun state => state.schedulers n = .idle) ?_ rfl ran
    intro before action after member taken idle
    have other : action.scheduler? ≠ some n := fun acting => first (only action member n acting)
    rw [step_scheduler_other taken other]
    exact idle

/-- The scheduler claims the failed event, its context is cancelled during the replay, and the
reschedule ends with `outcome`. -/
def cancelledRetryRun (outcome : Outcome) : List (Action String) :=
  let item : RetryableDeadLetterDetail :=
    { eventId := Sample.event.id
      replayAttempt := 1 }
  failedRun ++
    [.claimRetryable 0 0 [Sample.event.id] .ok,
      .schedulerReplay 0 item [],
      .replaySelect (.scheduler 0) Sample.event.id,
      .replayFail (.scheduler 0) Sample.event.id "context canceled",
      .schedulerReplayFailed 0 item [] (.store "context canceled"),
      .reschedule 0 item (.store "context canceled") [] 0 60 outcome]

set_option maxRecDepth 4000 in
theorem auto_retry_never_stranded_of_rescheduled_run :
    ∃ s, run (step Codec.text Sample.config) System.initial (cancelledRetryRun .ok) = some s ∧
      ∀ row ∈ s.db.deadLetters.rows, row.replayedAt = none → row.replayAttempts < 3 →
        row.nextRetryAt ≠ none := by
  have ran : (run (step Codec.text Sample.config) System.initial (cancelledRetryRun .ok)).map
      (fun s => s.schedulers 0) = some .idle := by
    decide +kernel
  obtain ⟨s, reaches, outside⟩ := Option.map_eq_some_iff.mp ran
  have meets : Along (step Codec.text Sample.config) (RetryNotLost Sample.config) System.initial
      (cancelledRetryRun .ok) := by
    decide +kernel
  exact ⟨s, reaches, auto_retry_never_stranded (.of_run .start meets reaches)
    (schedulers_idle_of_run (by decide) reaches outside)⟩

set_option maxRecDepth 4000 in
/-- When the reschedule fails as well, the dead letter has two attempts left and is never eligible
again. -/
theorem auto_retry_stranded_by_cancelled_reschedule :
    ¬ ∀ s : System String, Reachable Codec.text Sample.config s →
      (∀ n, s.schedulers n = .idle) →
      ∀ row ∈ s.db.deadLetters.rows, row.replayedAt = none →
        row.replayAttempts < Sample.config.dlqAutoRetryMaxAttempts → row.nextRetryAt ≠ none := by
  intro scheduled
  have ran : (run (step Codec.text Sample.config) System.initial
      (cancelledRetryRun .failed)).map (fun s => (s.schedulers 0, s.db.deadLetters.rows.map
        fun row => (row.replayedAt, row.replayAttempts, row.nextRetryAt))) =
      some (.idle, [(none, 1, none)]) := by
    decide +kernel
  obtain ⟨s, reaches, both⟩ := Option.map_eq_some_iff.mp ran
  obtain ⟨outside, rows⟩ := Prod.mk.inj both
  obtain ⟨row, only, columns⟩ := List.map_eq_singleton_iff.mp rows
  obtain ⟨isOpen, rest⟩ := Prod.mk.inj columns
  obtain ⟨attempts, unscheduled⟩ := Prod.mk.inj rest
  refine scheduled s (Reachable.of_run reaches)
    (schedulers_idle_of_run (by decide) reaches outside) row (by rw [only]; simp) isOpen ?_
    unscheduled
  rw [attempts]
  decide

end WebhookProcessor
