/-
Module: WebhookProcessor.Proofs.SchedulerItems
Layer: Proofs
Purpose: The items in a scheduler's hands.  A claim hands the scheduler its items, and an item stays
  until its replay returns success, its reschedule or the end of the scheduler; the replay that a
  scheduler runs is that of its first item.
Trusted boundary: none
Main exports: System.awaited, System.unreplayed, Driven, AwaitedEffect, step_awaited,
  unreplayed_of_step_mem, closed_of_commit
-/
import WebhookProcessor.Proofs.ActorEffects
import WebhookProcessor.Proofs.HistoryEffects
import WebhookProcessor.Proofs.StepEffects
import WebhookProcessor.Proofs.Replays

namespace WebhookProcessor

open Transition

variable {Payload : Type}

/-- The claimed items of scheduler `n` whose replay has not succeeded yet. -/
def System.awaited (s : System Payload) (n : Nat) : List RetryableDeadLetterDetail :=
  match s.schedulers n with
  | .replaying item rest =>
      if s.replays (.scheduler n) = .succeeded item.eventId then rest else item :: rest
  | scheduler => scheduler.pending

theorem System.awaited_subset (s : System Payload) (n : Nat) :
    s.awaited n ⊆ (s.schedulers n).pending := by
  unfold System.awaited
  split
  · rename_i phase
    rw [phase]
    split
    · exact List.subset_cons_self _ _
    · exact List.Subset.refl _
  · exact List.Subset.refl _

theorem System.awaited_of_loop {s : System Payload} {n : Nat}
    {items : List RetryableDeadLetterDetail} (phase : s.schedulers n = Scheduler.loop items) :
    s.awaited n = items := by
  unfold System.awaited
  rw [phase]
  cases items <;> rfl

/-- The claimed items of scheduler `n` whose `ReplayDeadLetter` has not returned yet, with success or
with an error. -/
def System.unreplayed (s : System Payload) (n : Nat) : List RetryableDeadLetterDetail :=
  match s.schedulers n with
  | .replaying item rest =>
      if (s.replays (.scheduler n)).inFlight = none then rest else item :: rest
  | .rescheduling _ _ rest => rest
  | scheduler => scheduler.pending

theorem System.unreplayed_of_loop {s : System Payload} {n : Nat}
    {items : List RetryableDeadLetterDetail} (phase : s.schedulers n = Scheduler.loop items) :
    s.unreplayed n = items := by
  unfold System.unreplayed
  rw [phase]
  cases items <;> rfl

theorem System.rest_subset_unreplayed {s : System Payload} {n : Nat}
    {item : RetryableDeadLetterDetail} {rest : List RetryableDeadLetterDetail}
    (phase : s.schedulers n = .replaying item rest) : rest ⊆ s.unreplayed n := by
  unfold System.unreplayed
  rw [phase]
  dsimp only
  split
  · exact List.Subset.refl _
  · exact List.subset_cons_self _ _

theorem System.unreplayed_subset (s : System Payload) (n : Nat) :
    s.unreplayed n ⊆ s.awaited n := by
  unfold System.unreplayed System.awaited
  split
  · rename_i item rest phase
    rw [phase]
    dsimp only
    split
    · split
      · exact List.Subset.refl _
      · exact List.subset_cons_self _ _
    · rename_i running
      rw [if_neg fun succeeded => running (by rw [succeeded]; rfl)]
      exact List.Subset.refl _
  · rename_i phase
    rw [phase]
    exact List.subset_cons_self _ _
  · rename_i replaying rescheduling
    split
    · rename_i phase
      exact absurd phase (replaying _ _)
    · exact List.Subset.refl _

/-- The pending items are awaited unless the replay of the first has just succeeded. -/
theorem System.mem_awaited {s : System Payload} {n : Nat} {item : RetryableDeadLetterDetail}
    (pending : item ∈ (s.schedulers n).pending)
    (unfinished : s.replays (.scheduler n) ≠ .succeeded item.eventId) : item ∈ s.awaited n := by
  unfold System.awaited
  split
  · rename_i head rest phase
    rw [phase] at pending
    split
    · rename_i succeeded
      rcases List.mem_cons.mp pending with rfl | later
      · exact absurd succeeded unfinished
      · exact later
    · exact pending
  · exact pending

theorem Database.retryCandidates_nodup (db : Database) (limit maxAttempts : Nat) (now : Time) :
    ((db.retryCandidates limit maxAttempts now).map DeadLetterRow.eventId).Nodup := by
  have rows : (db.deadLetters.rows.map DeadLetterRow.eventId).Nodup := by
    rw [List.Nodup, List.pairwise_map]
    exact db.deadLetters.unique
  apply List.Nodup.sublist ((List.take_sublist _ _).map _)
  apply ((List.perm_insertionSort _ _).map _).nodup_iff.mpr
  exact rows.sublist (List.filter_sublist.map _)

variable [DecidableEq Payload] {codec : Codec Payload} {config : Config} {s s' : System Payload}
  {action : Action Payload}

/-! ### The replay of a scheduler -/

/-- A scheduler's replay transaction is that of the item it is replaying. -/
def Driven (s : System Payload) : Prop :=
  ∀ n id, (s.replays (.scheduler n)).inFlight = some id →
    ∃ item rest, s.schedulers n = .replaying item rest ∧ item.eventId = id

theorem Driven.of_step (driven : Driven s) (taken : step codec config s action = some s') :
    Driven s' := by
  intro n id running
  have effect := step_replay taken (.scheduler n)
  generalize s'.replays (.scheduler n) = call at effect running
  -- a statement of the transaction itself leaves the scheduler where it is
  have continues : action.scheduler? ≠ some n → (s.replays (.scheduler n)).inFlight = some id →
      ∃ item rest, s'.schedulers n = .replaying item rest ∧ item.eventId = id := by
    intro other before
    rw [step_scheduler_other taken other]
    exact driven n id before
  cases effect with
  | unchanged other =>
      obtain ⟨item, rest, phase, same⟩ := driven n id running
      have scheduler := step_scheduler taken n
      generalize s'.schedulers n = next at scheduler
      refine ⟨item, rest, ?_, same⟩
      cases scheduler with
      | unchanged => exact phase
      | claimed idle =>
          rw [phase] at idle
          cases idle
      | claimLost idle =>
          rw [phase] at idle
          cases idle
      | replaying retrying =>
          rw [phase] at retrying
          cases retrying
      | replayed _ returned =>
          rw [returned] at running
          cases running
      | replayFailed _ returned =>
          rw [returned] at running
          cases running
      | rescheduled rescheduling =>
          rw [phase] at rescheduling
          cases rescheduling
      | crashed => exact absurd rfl other
  | begun manual => exact manual.elim
  | @selected target phase =>
      apply continues (Option.some_ne_none _).symm
      rw [phase]
      rcases s.db.selectForReplay_cases target with ⟨_, _, _, selected⟩ | ⟨_, refused⟩
      · rw [selected] at running
        exact running
      · rw [refused] at running
        cases running
  | eventReset phase =>
      apply continues (Option.some_ne_none _).symm
      rw [phase]
      exact running
  | outboxReopened phase =>
      apply continues (Option.some_ne_none _).symm
      rw [phase]
      exact running
  | outboxMissing phase =>
      apply continues (Option.some_ne_none _).symm
      rw [phase]
      exact running
  | outboxInserted phase =>
      apply continues (Option.some_ne_none _).symm
      rw [phase]
      exact running
  | deadLetterMarked phase =>
      apply continues (Option.some_ne_none _).symm
      rw [phase]
      exact running
  | committed => cases running
  | commitLost => cases running
  | failed => cases running
  | @scheduled m item rest self =>
      cases self
      cases running
      have scheduler := step_scheduler taken n
      generalize s'.schedulers n = next at scheduler
      cases scheduler with
      | unchanged other => exact absurd rfl other
      | replaying => exact ⟨item, rest, rfl, rfl⟩
  | crashed => cases running

theorem driven (reached : Reachable codec config s) : Driven s := by
  refine reached.invariant ?_ ?_
  · intro n id running
    cases running
  · intro before action after _ inv taken _
    exact inv.of_step taken

/-! ### What one step does to the items -/

/-- The action gives items to scheduler `n` or takes one away. -/
def Action.MovesItems (n : Nat) : Action Payload → Prop
  | .claimRetryable m _ _ .ok => m = n
  | .replayCommit (.scheduler m) _ none => m = n
  | .reschedule m _ _ _ _ _ _ => m = n
  | .crashScheduler m => m = n
  | _ => False

omit [DecidableEq Payload] in
theorem Action.MovesItems.acts {n : Nat} (moves : action.MovesItems n) :
    action.scheduler? = some n ∨ action.caller? = some (.scheduler n) := by
  cases action with
  | claimRetryable m now order outcome =>
      cases outcome with
      | ok => exact Or.inl (congrArg some moves)
      | failed => exact moves.elim
      | lost => exact moves.elim
  | replayCommit caller tx error =>
      cases caller with
      | scheduler m =>
          cases error with
          | none => exact Or.inr (congrArg (fun n => some (Caller.scheduler n)) moves)
          | some message => exact moves.elim
      | http request => exact moves.elim
      | cli process => exact moves.elim
  | reschedule m item error rest now delay outcome => exact Or.inl (congrArg some moves)
  | crashScheduler m => exact Or.inl (congrArg some moves)
  | _ => exact moves.elim

/-- What one step does to the items that scheduler `n` was given and has not replayed. -/
inductive AwaitedEffect (config : Config) (s : System Payload) (n : Nat) :
    Action Payload → List RetryableDeadLetterDetail → Prop where
  | unchanged {action : Action Payload} (stays : ¬ action.MovesItems n) :
      AwaitedEffect config s n action (s.awaited n)
  | claimed {now : Time} {order : List EventId} (idle : s.schedulers n = .idle)
      (returned : order.Perm ((s.db.claimRetryableDeadLetterDetails 10
        config.dlqAutoRetryMaxAttempts now).1.map RetryableDeadLetterDetail.eventId)) :
      AwaitedEffect config s n (.claimRetryable n now order .ok)
        (orderItems (s.db.claimRetryableDeadLetterDetails 10
          config.dlqAutoRetryMaxAttempts now).1 order)
  | committed {tx : ReplayTx} {item : RetryableDeadLetterDetail}
      {rest : List RetryableDeadLetterDetail}
      (phase : s.replays (.scheduler n) = .deadLetterMarked tx)
      (first : s.awaited n = item :: rest) (same : item.eventId = tx.eventId) :
      AwaitedEffect config s n (.replayCommit (.scheduler n) tx none) rest
  | rescheduled {item : RetryableDeadLetterDetail} {error : ReplayError}
      {rest : List RetryableDeadLetterDetail} {now delay : Time} {outcome : Outcome}
      (phase : s.schedulers n = .rescheduling item error rest)
      (first : s.awaited n = item :: rest) :
      AwaitedEffect config s n (.reschedule n item error rest now delay outcome) rest
  | crashed : AwaitedEffect config s n (.crashScheduler n) []

omit [DecidableEq Payload] in
theorem System.awaited_of_pending {s : System Payload} {n : Nat}
    (unfinished : ∀ id, s.replays (.scheduler n) ≠ .succeeded id) :
    s.awaited n = (s.schedulers n).pending := by
  unfold System.awaited
  split
  · rename_i phase
    rw [if_neg (unfinished _), phase]
    rfl
  · rfl

omit [DecidableEq Payload] in
theorem System.awaited_of_idle {s : System Payload} {n : Nat} (idle : s.schedulers n = .idle) :
    s.awaited n = [] := by
  rw [System.awaited, idle]
  rfl

omit [DecidableEq Payload] in
/-- The statements of a replay transaction before its commit leave the items as they are. -/
theorem awaited_of_unfinished {n : Nat} (same : s'.schedulers n = s.schedulers n)
    (before : ∀ id, s.replays (.scheduler n) ≠ .succeeded id)
    (after : ∀ id, s'.replays (.scheduler n) ≠ .succeeded id) : s'.awaited n = s.awaited n := by
  rw [System.awaited_of_pending before, System.awaited_of_pending after, same]

theorem step_awaited (reached : Reachable codec config s)
    (taken : step codec config s action = some s') (n : Nat) :
    AwaitedEffect config s n action (s'.awaited n) := by
  have scheduler := step_scheduler taken n
  have replay := step_replay taken (.scheduler n)
  generalize after : s'.schedulers n = next at scheduler
  cases scheduler with
  | unchanged other =>
      generalize call : s'.replays (.scheduler n) = next at replay
      -- a transaction that goes on has neither succeeded before nor after the step
      have goesOn : ¬ action.MovesItems n → (∀ id, s.replays (.scheduler n) ≠ .succeeded id) →
          (∀ id, next ≠ .succeeded id) → AwaitedEffect config s n action (s'.awaited n) := by
        intro stays before unfinished
        rw [awaited_of_unfinished after before (by rw [call]; exact unfinished)]
        exact .unchanged stays
      cases replay with
      | unchanged silent =>
          have same : s'.awaited n = s.awaited n := by
            rw [System.awaited, System.awaited, after, call]
          rw [same]
          exact .unchanged fun moves => moves.acts.elim other silent
      | begun manual => exact manual.elim
      | @selected target phase =>
          apply goesOn fun moves => moves
          · rw [phase]
            simp
          · rcases s.db.selectForReplay_cases target with ⟨_, _, _, selected⟩ | ⟨_, refused⟩
            · rw [selected]
              simp
            · rw [refused]
              simp
      | eventReset phase => exact goesOn (fun moves => moves) (by rw [phase]; simp) (by simp)
      | outboxReopened phase => exact goesOn (fun moves => moves) (by rw [phase]; simp) (by simp)
      | outboxMissing phase => exact goesOn (fun moves => moves) (by rw [phase]; simp) (by simp)
      | outboxInserted phase => exact goesOn (fun moves => moves) (by rw [phase]; simp) (by simp)
      | deadLetterMarked phase => exact goesOn (fun moves => moves) (by rw [phase]; simp) (by simp)
      | failed running =>
          apply goesOn fun moves => moves
          · intro id succeeded
            rw [succeeded] at running
            cases running
          · simp
      | @committed tx phase =>
          obtain ⟨item, rest, replaying, same⟩ := driven reached n tx.eventId (by rw [phase]; rfl)
          have first : s.awaited n = item :: rest := by
            rw [System.awaited_of_pending (by rw [phase]; simp), replaying]
            rfl
          have left : s'.awaited n = rest := by
            simp [System.awaited, after, replaying, call, same]
          rw [left]
          exact .committed phase first same
      | commitLost phase => exact goesOn (fun moves => moves) (by rw [phase]; simp) (by simp)
      | scheduled self =>
          cases self
          exact absurd rfl other
      | crashed self =>
          cases self
          exact absurd rfl other
  | claimed idle _ returned =>
      rw [System.awaited_of_loop after]
      exact .claimed idle returned
  | @claimLost now order outcome idle lost =>
      rw [System.awaited_of_idle after, ← System.awaited_of_idle idle]
      refine .unchanged fun moves => ?_
      cases outcome with
      | ok => exact lost rfl
      | failed => exact moves
      | lost => exact moves
  | @replaying item rest phase =>
      have before : s.awaited n = item :: rest := by
        rw [System.awaited, phase]
        rfl
      have unfinished : ∀ id, s'.replays (.scheduler n) ≠ .succeeded id := by
        generalize s'.replays (.scheduler n) = call at replay
        cases replay with
        | unchanged other => exact absurd rfl other
        | scheduled => simp
      have left : s'.awaited n = item :: rest := by
        rw [System.awaited_of_pending unfinished, after]
        rfl
      rw [left, ← before]
      exact .unchanged fun moves => moves
  | @replayed item rest phase returned =>
      have before : s.awaited n = rest := by
        simp [System.awaited, phase, returned]
      rw [System.awaited_of_loop after, ← before]
      exact .unchanged fun moves => moves
  | @replayFailed item rest error phase returned =>
      have before : s.awaited n = item :: rest := by
        simp [System.awaited, phase, returned]
      have left : s'.awaited n = item :: rest := by
        rw [System.awaited, after]
        rfl
      rw [left, ← before]
      exact .unchanged fun moves => moves
  | @rescheduled item error rest now delay outcome phase =>
      have first : s.awaited n = item :: rest := by
        rw [System.awaited, phase]
        rfl
      rw [System.awaited_of_loop after]
      exact .rescheduled phase first
  | crashed =>
      rw [System.awaited_of_idle after]
      exact .crashed

/-- The item whose replay transaction is open is still in its scheduler's hands. -/
theorem awaited_of_running (reached : Reachable codec config s) {n : Nat} {id : EventId}
    (running : (s.replays (.scheduler n)).inFlight = some id) :
    ∃ item ∈ s.awaited n, item.eventId = id := by
  obtain ⟨item, rest, phase, same⟩ := driven reached n id running
  refine ⟨item, System.mem_awaited ?_ ?_, same⟩
  · rw [phase]
    exact List.mem_cons_self
  · intro succeeded
    rw [succeeded] at running
    cases running

omit [DecidableEq Payload] in
theorem claimedIds_nodup (s : System Payload) (now : Time) :
    ((s.db.claimRetryableDeadLetterDetails 10 config.dlqAutoRetryMaxAttempts now).1.map
      RetryableDeadLetterDetail.eventId).Nodup := by
  have unique := s.db.retryCandidates_nodup 10 config.dlqAutoRetryMaxAttempts now
  simpa [Database.claimRetryableDeadLetterDetails, Function.comp_def] using unique

/-- A scheduler receives the claimed items, in the order of `RETURNING`. -/
theorem orderItems_perm {items : List RetryableDeadLetterDetail} {order : List EventId}
    (unique : (items.map RetryableDeadLetterDetail.eventId).Nodup)
    (returned : order.Perm (items.map RetryableDeadLetterDetail.eventId)) :
    (orderItems items order).Perm items := by
  have found : ∀ item ∈ items,
      (items.find? fun other => other.eventId = item.eventId) = some item := by
    intro item member
    rw [← List.head?_filter, Relational.filter_key_eq_singleton unique member]
    rfl
  calc (orderItems items order).Perm ((items.map RetryableDeadLetterDetail.eventId).filterMap
          fun id => items.find? fun item => item.eventId = id) := returned.filterMap _
    _ = items.filterMap some := by
        rw [List.filterMap_map]
        exact List.filterMap_congr found
    _ = items := List.filterMap_some

/-- Only its scheduler begins a replay of this kind. -/
theorem inFlight_of_step_other (taken : step codec config s action = some s') {n : Nat}
    (other : action.scheduler? ≠ some n) (ended : (s.replays (.scheduler n)).inFlight = none) :
    (s'.replays (.scheduler n)).inFlight = none := by
  have effect := step_replay taken (.scheduler n)
  generalize s'.replays (.scheduler n) = call at effect
  cases effect with
  | unchanged => exact ended
  | begun manual => exact manual.elim
  | scheduled self =>
      cases self
      exact absurd rfl other
  | committed => rfl
  | commitLost => rfl
  | failed => rfl
  | crashed => rfl
  | selected phase => simp [phase, ReplayCall.inFlight] at ended
  | eventReset phase => simp [phase, ReplayCall.inFlight] at ended
  | outboxReopened phase => simp [phase, ReplayCall.inFlight] at ended
  | outboxMissing phase => simp [phase, ReplayCall.inFlight] at ended
  | outboxInserted phase => simp [phase, ReplayCall.inFlight] at ended
  | deadLetterMarked phase => simp [phase, ReplayCall.inFlight] at ended

/-- After a step, an item whose replay has not returned was such an item before, or has just been
claimed. -/
theorem unreplayed_of_step_mem (taken : step codec config s action = some s') {n : Nat}
    {item : RetryableDeadLetterDetail} (member : item ∈ s'.unreplayed n) :
    item ∈ s.unreplayed n ∨ item ∈ action.retries config s := by
  have scheduler := step_scheduler taken n
  generalize after : s'.schedulers n = next at scheduler
  cases scheduler with
  | unchanged other =>
      refine Or.inl ?_
      cases phase : s.schedulers n with
      | replaying first rest =>
          have ended := inFlight_of_step_other taken other
          simp only [System.unreplayed, after, phase] at member ⊢
          split at member
          · split
            · exact member
            · exact List.mem_cons_of_mem _ member
          · rename_i running
            rwa [if_neg (mt ended running)]
      | idle => simpa only [System.unreplayed, after, phase] using member
      | retrying => simpa only [System.unreplayed, after, phase] using member
      | rescheduling => simpa only [System.unreplayed, after, phase] using member
  | claimed _ _ returned =>
      rw [System.unreplayed_of_loop after] at member
      exact Or.inr ((orderItems_perm (claimedIds_nodup s _) returned).mem_iff.mp member)
  | claimLost idle =>
      simp only [System.unreplayed, after, Scheduler.pending, List.not_mem_nil] at member
  | @replaying first rest phase =>
      refine Or.inl ?_
      simp only [System.unreplayed, after, phase, Scheduler.pending] at member ⊢
      split at member
      · exact List.mem_cons_of_mem _ member
      · exact member
  | replayed phase =>
      rw [System.unreplayed_of_loop after] at member
      exact Or.inl (System.rest_subset_unreplayed phase member)
  | replayFailed phase =>
      simp only [System.unreplayed, after] at member
      exact Or.inl (System.rest_subset_unreplayed phase member)
  | rescheduled phase =>
      rw [System.unreplayed_of_loop after] at member
      exact Or.inl (by simpa only [System.unreplayed, phase] using member)
  | crashed => simp only [System.unreplayed, after, Scheduler.pending, List.not_mem_nil] at member

/-- A replay that commits closes the dead letter. -/
theorem closed_of_commit {caller : Caller} {tx : ReplayTx} {error : Option String}
    (taken : step codec config s (.replayCommit caller tx error) = some s') {row : DeadLetterRow}
    (found : s'.db.deadLetter? tx.eventId = some row) : row.replayedAt ≠ none := by
  simp only [step, Option.ite_none_right_eq_some, Option.some.injEq] at taken
  obtain ⟨_, rfl⟩ := taken
  change (s.db.commitReplay tx).deadLetter? tx.eventId = some row at found
  rw [Database.deadLetter?_commitReplay, if_pos rfl, Option.map_eq_some_iff] at found
  obtain ⟨old, _, rfl⟩ := found
  exact Option.some_ne_none _

end WebhookProcessor
