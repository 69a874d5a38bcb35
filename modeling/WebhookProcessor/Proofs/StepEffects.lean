/-
Module: WebhookProcessor.Proofs.StepEffects
Layer: Proofs
Purpose: What one step of the service can do to the row of one event in each table, with the
  guards under which it does it.  `step` is analysed here once per table; invariants about table
  contents go by cases over these effects and not over the actions.
Trusted boundary: none
Main exports: EventEffect, OutboxEffect, DeadLetterEffect, step_event, step_outbox,
  step_deadLetter
-/
import WebhookProcessor.Model.System
import WebhookProcessor.Proofs.StoreViews

namespace WebhookProcessor

variable {Payload : Type} [DecidableEq Payload] {codec : Codec Payload} {config : Config}
  {s s' : System Payload} {action : Action Payload}

/-- The `events` row of `id` after a step that took `action`. -/
inductive EventEffect (config : Config) (s : System Payload) (id : EventId) :
    Action Payload → Option EventRow → Prop where
  | unchanged {action : Action Payload} : EventEffect config s id action (s.db.event? id)
  | accepted {request : Nat} {event : Event Payload} {payload : String} {now : Time}
      {outboxId : Nat} {outcome : Outcome}
      (phase : s.saves request = .insertedOutbox event payload now outboxId)
      (same : event.id = id) :
      EventEffect config s id (.commitSave request event payload now outboxId outcome)
        ((s.db.event? id).or (some (queuedEventRow event payload now)))
  | claimed {w : Nat} {event : Event Payload} {now : Time} {outcome : Outcome} {row : EventRow}
      (phase : (s.workers w).phase = .received event) (sampled : now ≤ s.clock)
      (effective : outcome.Effective) (same : event.id = id) (found : s.db.event? id = some row)
      (claimable : row.Claimable now config.processingLease) :
      EventEffect config s id (.claimForProcessing w event now outcome) (some (row.claim now))
  | finished {w : Nat} {claim : Claim Payload} {attempt : Nat} {now : Time} {outcome : Outcome}
      {row : EventRow}
      (phase : (s.workers w).phase = .succeeded claim attempt) (effective : outcome.Effective)
      (free : s.db.locks (.event id) = none) (same : claim.event.id = id)
      (found : s.db.event? id = some row) :
      EventEffect config s id (.markProcessed w claim attempt now outcome)
        (some (row.finish attempt now))
  | failed {w : Nat} {claim : Claim Payload} {attempt : Nat} {error : String} {now : Time}
      {outcome : Outcome} {row : EventRow}
      (phase : (s.workers w).phase = .deadLettered claim attempt error)
      (effective : outcome.Effective) (free : s.db.locks (.event id) = none)
      (same : claim.event.id = id) (found : s.db.event? id = some row) :
      EventEffect config s id (.markFailed w claim attempt error now outcome)
        (some (row.fail attempt error now))
  | requeued {caller : Caller} {tx : ReplayTx} {error : Option String} {row : EventRow}
      (phase : s.replays caller = .deadLetterMarked tx) (moved : tx.moved = true)
      (same : tx.eventId = id) (found : s.db.event? id = some row) :
      EventEffect config s id (.replayCommit caller tx error) (some (row.requeue tx.now))

omit [DecidableEq Payload] in
private theorem EventEffect.of_events {id : EventId} (same : s'.db.events = s.db.events) :
    EventEffect config s id action (s'.db.event? id) := by
  rw [Database.event?, same]
  exact .unchanged

theorem step_event (taken : step codec config s action = some s') (id : EventId) :
    EventEffect config s id action (s'.db.event? id) := by
  cases action
  all_goals simp only [step, Option.ite_none_right_eq_some, Option.some.injEq] at taken
  case commitSave request event payload now outboxId outcome =>
      obtain ⟨⟨phase, _⟩, rfl⟩ := taken
      have viewed := s.db.event?_commitSave event payload now outboxId id
      change EventEffect config s id _ ((s.db.commitSave event payload now outboxId).event? id)
      by_cases same : event.id = id
      · rw [viewed, if_pos same]
        exact .accepted phase same
      · rw [viewed, if_neg same, Option.or_none]
        exact .unchanged
  case claimForProcessing w event now outcome =>
      obtain ⟨⟨phase, sampled, free⟩, rfl⟩ := taken
      change EventEffect config s id _ (Database.event? (if _ then _ else _) id)
      split
      · rename_i matched
        obtain ⟨row, found, claimable⟩ := s.db.claimMatches_iff.mp matched.2
        rw [Database.event?_claimEvent]
        split
        · rename_i same
          subst same
          rw [found, Option.map_some, if_pos claimable]
          exact .claimed phase sampled matched.1 rfl found claimable
        · exact .unchanged
      · exact .unchanged
  case markProcessed w claim attempt now outcome =>
      obtain ⟨⟨phase, sampled, free⟩, rfl⟩ := taken
      change EventEffect config s id _ (Database.event? (if _ then _ else _) id)
      split
      · rename_i effective
        rw [Database.event?_markProcessed]
        split
        · rename_i same
          subst same
          refine Relational.map_cases .unchanged fun row found => ?_
          exact .finished phase effective (free effective) rfl found
        · exact .unchanged
      · exact .unchanged
  case markFailed w claim attempt error now outcome =>
      obtain ⟨⟨phase, sampled, free⟩, rfl⟩ := taken
      change EventEffect config s id _ (Database.event? (if _ then _ else _) id)
      split
      · rename_i effective
        rw [Database.event?_markFailed]
        split
        · rename_i same
          subst same
          refine Relational.map_cases .unchanged fun row found => ?_
          exact .failed phase effective (free effective) rfl found
        · exact .unchanged
      · exact .unchanged
  case replayCommit caller tx error =>
      obtain ⟨phase, rfl⟩ := taken
      change EventEffect config s id _ ((s.db.commitReplay tx).event? id)
      rw [Database.event?_commitReplay]
      split
      · rename_i hit
        obtain ⟨rfl, moved⟩ := hit
        refine Relational.map_cases .unchanged fun row found => ?_
        exact .requeued phase moved rfl found
      · exact .unchanged
  -- the remaining statements do not touch `events`
  all_goals
    refine .of_events ?_
    first
    | (obtain ⟨_, rfl⟩ := taken; rfl)
    | (obtain ⟨_, rfl⟩ := taken
       dsimp only [System.setReplay, System.setDispatcher, System.setPhase, System.setWorker,
         System.setScheduler]
       split <;> rfl)

/-- The `outbox` row of `id` after a step that took `action`. -/
inductive OutboxEffect (config : Config) (s : System Payload) (id : EventId) :
    Action Payload → Option OutboxRow → Prop where
  | unchanged {action : Action Payload} : OutboxEffect config s id action (s.db.outboxFor? id)
  | accepted {request : Nat} {event : Event Payload} {payload : String} {now : Time}
      {outboxId : Nat} {outcome : Outcome}
      (phase : s.saves request = .insertedOutbox event payload now outboxId)
      (same : event.id = id) (absent : s.db.outboxFor? id = none) :
      OutboxEffect config s id (.commitSave request event payload now outboxId outcome)
        (some (newOutboxRow outboxId event.id event.type event.requestId payload now))
  | reserved {d limit : Nat} {now : Time} {token : String} {order : List Nat}
      {outcome : Outcome} {row : OutboxRow}
      (idle : s.dispatchers d = .idle) (sampled : now ≤ s.clock)
      (found : s.db.outboxFor? id = some row)
      (candidate : row ∈ s.db.outboxCandidates limit config.outboxDispatchLease now) :
      OutboxEffect config s id (.claimPendingOutbox d limit now token order outcome)
        (some (row.reserve token now))
  | published {d : Nat} {claimedAt : Time} {message : OutboxMessage Payload} {opening : Nat}
      {rest : List (OutboxMessage Payload)} {now : Time} {outcome : Outcome} {row : OutboxRow}
      (phase : s.dispatchers d = .published claimedAt message opening rest)
      (effective : outcome.Effective) (found : s.db.outboxFor? id = some row)
      (holds : row.ReservedFor message.id message.dispatchToken) :
      OutboxEffect config s id (.markOutboxPublished d claimedAt message opening rest now outcome)
        (some (row.publish now))
  | released {d : Nat} {claimedAt : Time} {message : OutboxMessage Payload} {error : String}
      {outcome : Outcome} {row : OutboxRow}
      (phase : s.dispatchers d = .rejected claimedAt message error)
      (effective : outcome.Effective) (found : s.db.outboxFor? id = some row)
      (holds : row.ReservedFor message.id message.dispatchToken) :
      OutboxEffect config s id (.markOutboxFailed d claimedAt message error outcome)
        (some (row.release error))
  | reopened {caller : Caller} {tx : ReplayTx} {error : Option String} {row : OutboxRow}
      (phase : s.replays caller = .deadLetterMarked tx) (updates : tx.inserted = none)
      (same : tx.eventId = id) (found : s.db.outboxFor? id = some row) :
      OutboxEffect config s id (.replayCommit caller tx error) (some row.reopen)
  | created {caller : Caller} {tx : ReplayTx} {error : Option String} {row : OutboxRow}
      (phase : s.replays caller = .deadLetterMarked tx) (inserts : tx.inserted = some row)
      (same : row.eventId = id) (absent : s.db.outboxFor? id = none) :
      OutboxEffect config s id (.replayCommit caller tx error) (some row)

omit [DecidableEq Payload] in
private theorem OutboxEffect.of_outbox {id : EventId} (same : s'.db.outbox = s.db.outbox) :
    OutboxEffect config s id action (s'.db.outboxFor? id) := by
  rw [Database.outboxFor?, same]
  exact .unchanged

theorem step_outbox (taken : step codec config s action = some s') (id : EventId) :
    OutboxEffect config s id action (s'.db.outboxFor? id) := by
  cases action
  all_goals simp only [step, Option.ite_none_right_eq_some, Option.some.injEq] at taken
  case commitSave request event payload now outboxId outcome =>
      obtain ⟨⟨phase, _⟩, rfl⟩ := taken
      change OutboxEffect config s id _ ((s.db.outbox.insert _).lookup (·.eventId = id))
      rcases s.db.outboxFor?_insert_cases
          (newOutboxRow outboxId event.id event.type event.requestId payload now) id with
        same | ⟨same, absent, inserted⟩
      · rw [same]
        exact .unchanged
      · rw [inserted]
        exact .accepted phase same absent
  case claimPendingOutbox d limit now token order outcome =>
      obtain ⟨⟨idle, sampled, effective, returned⟩, rfl⟩ := taken
      change OutboxEffect config s id _ ((s.db.claimPendingOutbox limit
        config.outboxDispatchLease now token).2.outboxFor? id)
      rw [Database.outboxFor?_claimPendingOutbox]
      refine Relational.map_ite_cases .unchanged fun row found claimed => ?_
      exact .reserved idle sampled found (s.db.mem_outboxCandidates_of_id
        (s.db.outboxFor?_eq_some_iff.mp found).1 claimed)
  case markOutboxPublished d claimedAt message opening rest now outcome =>
      obtain ⟨⟨phase, sampled, free⟩, rfl⟩ := taken
      change OutboxEffect config s id _ (Database.outboxFor? (if _ then _ else _) id)
      split
      · rename_i effective
        rw [Database.outboxFor?_markOutboxPublished]
        refine Relational.map_ite_cases .unchanged fun row found reserved => ?_
        exact .published phase effective found reserved
      · exact .unchanged
  case markOutboxFailed d claimedAt message error outcome =>
      obtain ⟨⟨phase, free⟩, rfl⟩ := taken
      change OutboxEffect config s id _ (Database.outboxFor? (if _ then _ else _) id)
      split
      · rename_i effective
        rw [Database.outboxFor?_markOutboxFailed]
        refine Relational.map_ite_cases .unchanged fun row found reserved => ?_
        exact .released phase effective found reserved
      · exact .unchanged
  case replayCommit caller tx error =>
      obtain ⟨phase, rfl⟩ := taken
      change OutboxEffect config s id _ ((s.db.commitReplay tx).outbox.lookup (·.eventId = id))
      cases inserted : tx.inserted with
      | none =>
          change OutboxEffect config s id _ ((s.db.commitReplay tx).outboxFor? id)
          rw [Database.outboxFor?_commitReplay _ inserted]
          split
          · rename_i same
            refine Relational.map_cases .unchanged fun row found => ?_
            exact .reopened phase inserted same.symm found
          · exact .unchanged
      | some row =>
          simp only [Database.commitReplay, inserted]
          rcases s.db.outboxFor?_insert_cases row id with same | ⟨same, absent, visible⟩
          · rw [same]
            exact .unchanged
          · rw [visible]
            exact .created phase inserted same absent
  all_goals
    refine .of_outbox ?_
    first
    | (obtain ⟨_, rfl⟩ := taken; rfl)
    | (obtain ⟨_, rfl⟩ := taken
       dsimp only [System.setReplay, System.setDispatcher, System.setPhase, System.setWorker,
         System.setScheduler]
       split <;> rfl)

/-- The `dead_letters` row of `id` after a step that took `action`. -/
inductive DeadLetterEffect (codec : Codec Payload) (config : Config) (s : System Payload)
    (id : EventId) : Action Payload → Option DeadLetterRow → Prop where
  | unchanged {action : Action Payload} :
      DeadLetterEffect codec config s id action (s.db.deadLetter? id)
  | saved {w : Nat} {claim : Claim Payload} {attempt : Nat} {error payload : String} {now : Time}
      {outcome : Outcome}
      (phase : (s.workers w).phase = .exhausted claim attempt error)
      (effective : outcome.Effective)
      (marshalled : codec.marshal claim.event.payload = some payload)
      (free : s.db.locks (.deadLetter id) = none) (same : claim.event.id = id) :
      DeadLetterEffect codec config s id
        (.saveDeadLetter w claim attempt error payload now outcome)
        (some ((s.db.deadLetter? id).elim
          (newDeadLetterRow claim.event payload error attempt now)
          fun row => row.reopen error attempt now))
  | spent {n : Nat} {now : Time} {order : List EventId} {outcome : Outcome}
      {row : DeadLetterRow}
      (idle : s.schedulers n = .idle) (sampled : now ≤ s.clock)
      (found : s.db.deadLetter? id = some row)
      (candidate : row ∈ s.db.retryCandidates 10 config.dlqAutoRetryMaxAttempts now) :
      DeadLetterEffect codec config s id (.claimRetryable n now order outcome) (some row.spend)
  | spentDirectly {limit maxAttempts : Nat} {now : Time} {row : DeadLetterRow}
      (found : s.db.deadLetter? id = some row)
      (candidate : row ∈ s.db.retryCandidates limit maxAttempts now) :
      DeadLetterEffect codec config s id (.claimRetryableDeadLetters limit maxAttempts now)
        (some row.spend)
  | rescheduled {n : Nat} {item : RetryableDeadLetterDetail} {error : ReplayError}
      {rest : List RetryableDeadLetterDetail} {now delay : Time} {outcome : Outcome}
      {row : DeadLetterRow}
      (phase : s.schedulers n = .rescheduling item error rest) (effective : outcome.Effective)
      (same : item.eventId = id) (found : s.db.deadLetter? id = some row)
      (isOpen : row.replayedAt = none) :
      DeadLetterEffect codec config s id (.reschedule n item error rest now delay outcome)
        (some (row.reschedule error.message (now + delay)))
  | rescheduledDirectly {error : String} {now : Time} {row : DeadLetterRow}
      (found : s.db.deadLetter? id = some row) (isOpen : row.replayedAt = none) :
      DeadLetterEffect codec config s id (.rescheduleDeadLetterRetry id error now)
        (some (row.reschedule error now))
  | replayed {caller : Caller} {tx : ReplayTx} {error : Option String} {row : DeadLetterRow}
      (phase : s.replays caller = .deadLetterMarked tx) (same : tx.eventId = id)
      (found : s.db.deadLetter? id = some row) :
      DeadLetterEffect codec config s id (.replayCommit caller tx error)
        (some (row.markReplayed tx.now))

omit [DecidableEq Payload] in
private theorem DeadLetterEffect.of_deadLetters {id : EventId}
    (same : s'.db.deadLetters = s.db.deadLetters) :
    DeadLetterEffect codec config s id action (s'.db.deadLetter? id) := by
  rw [Database.deadLetter?, same]
  exact .unchanged

theorem step_deadLetter (taken : step codec config s action = some s') (id : EventId) :
    DeadLetterEffect codec config s id action (s'.db.deadLetter? id) := by
  cases action
  all_goals simp only [step, Option.ite_none_right_eq_some, Option.some.injEq] at taken
  case saveDeadLetter w claim attempt error payload now outcome =>
      obtain ⟨⟨phase, sampled, guarded⟩, rfl⟩ := taken
      change DeadLetterEffect codec config s id _ (Database.deadLetter? (if _ then _ else _) id)
      split
      · rename_i effective
        obtain ⟨marshalled, free⟩ := guarded effective
        rw [Database.deadLetter?_saveDeadLetter]
        split
        · rename_i same
          exact .saved phase effective marshalled (same ▸ free) same
        · exact .unchanged
      · exact .unchanged
  case claimRetryable n now order outcome =>
      obtain ⟨⟨idle, sampled, effective, returned⟩, rfl⟩ := taken
      change DeadLetterEffect codec config s id _ ((s.db.claimRetryableDeadLetterDetails 10
        config.dlqAutoRetryMaxAttempts now).2.deadLetter? id)
      rw [Database.deadLetter?_claimRetryableDeadLetterDetails]
      refine Relational.map_ite_cases .unchanged fun row found claimed => ?_
      exact .spent idle sampled found (s.db.mem_retryCandidates_of_eventId
        (s.db.deadLetters.mem_of_lookup _ found) claimed)
  case claimRetryableDeadLetters limit maxAttempts now =>
      obtain ⟨sampled, rfl⟩ := taken
      change DeadLetterEffect codec config s id _ ((s.db.claimRetryableDeadLetterDetails limit
        maxAttempts now).2.deadLetter? id)
      rw [Database.deadLetter?_claimRetryableDeadLetterDetails]
      refine Relational.map_ite_cases .unchanged fun row found claimed => ?_
      exact .spentDirectly found (s.db.mem_retryCandidates_of_eventId
        (s.db.deadLetters.mem_of_lookup _ found) claimed)
  case reschedule n item error rest now delay outcome =>
      obtain ⟨⟨phase, sampled, free⟩, rfl⟩ := taken
      change DeadLetterEffect codec config s id _ (Database.deadLetter? (if _ then _ else _) id)
      split
      · rename_i effective
        rw [Database.deadLetter?_rescheduleDeadLetterRetry]
        split
        · rename_i same
          refine Relational.map_ite_cases .unchanged fun row found isOpen => ?_
          exact .rescheduled phase effective same.symm found isOpen
        · exact .unchanged
      · exact .unchanged
  case rescheduleDeadLetterRetry target error now =>
      obtain ⟨sampled, rfl⟩ := taken
      change DeadLetterEffect codec config s id _
        ((s.db.rescheduleDeadLetterRetry target error now).deadLetter? id)
      rw [Database.deadLetter?_rescheduleDeadLetterRetry]
      split
      · rename_i same
        subst same
        refine Relational.map_ite_cases .unchanged fun row found isOpen => ?_
        exact .rescheduledDirectly found isOpen
      · exact .unchanged
  case replayCommit caller tx error =>
      obtain ⟨phase, rfl⟩ := taken
      change DeadLetterEffect codec config s id _ ((s.db.commitReplay tx).deadLetter? id)
      rw [Database.deadLetter?_commitReplay]
      split
      · rename_i same
        refine Relational.map_cases .unchanged fun row found => ?_
        exact .replayed phase same.symm found
      · exact .unchanged
  all_goals
    refine .of_deadLetters ?_
    first
    | (obtain ⟨_, rfl⟩ := taken; rfl)
    | (obtain ⟨_, rfl⟩ := taken
       dsimp only [System.setReplay, System.setDispatcher, System.setPhase, System.setWorker,
         System.setScheduler]
       split <;> rfl)

/-! ### Rows are never deleted -/

theorem event?_persists (taken : step codec config s action = some s') {id : EventId}
    (present : s.db.event? id ≠ none) : s'.db.event? id ≠ none := by
  have effect := step_event taken id
  generalize s'.db.event? id = after at effect
  cases effect with
  | unchanged => exact present
  | accepted => simp
  | claimed | finished | failed | requeued => exact Option.some_ne_none _

theorem outboxFor?_persists (taken : step codec config s action = some s') {id : EventId}
    (present : s.db.outboxFor? id ≠ none) : s'.db.outboxFor? id ≠ none := by
  have effect := step_outbox taken id
  generalize s'.db.outboxFor? id = after at effect
  cases effect with
  | unchanged => exact present
  | _ => exact Option.some_ne_none _

theorem deadLetter?_persists (taken : step codec config s action = some s') {id : EventId}
    (present : s.db.deadLetter? id ≠ none) : s'.db.deadLetter? id ≠ none := by
  have effect := step_deadLetter taken id
  generalize s'.db.deadLetter? id = after at effect
  cases effect with
  | unchanged => exact present
  | _ => exact Option.some_ne_none _

end WebhookProcessor
