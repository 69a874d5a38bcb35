/-
Module: WebhookProcessor.Proofs.HistoryEffects
Layer: Proofs
Purpose: What one step of the service does to the history variables, the clock and the broker.
  The additions to a history variable are functions of the action, so the equations here hold for
  every step; the broker is seen through `InBroker`, the messages that are ready or unsettled.
Trusted boundary: none
Main exports: step_accepted, step_openings, step_enqueued, step_tokens, step_claims, step_failures,
  step_replays, step_autoClaims, step_autoReplays, step_attempted, step_clock, System.InBroker,
  step_inBroker, inBroker_of_step
-/
import WebhookProcessor.Model.System

namespace WebhookProcessor

variable {Payload : Type}

namespace Action

/-- The submission that the action makes accepted. -/
def accepts : Action Payload → List (Event Payload)
  | .commitSave _ event _ _ _ _ => [event]
  | _ => []

/-- The event whose outbox row the action opens. -/
def opens? : Action Payload → Option EventId
  | .commitSave _ event _ _ _ _ => some event.id
  | .replayCommit _ tx _ => some tx.eventId
  | _ => none

/-- The message that the action puts in the queue. -/
def sends (openings : EventId → Nat) : Action Payload → List Message
  | .publishConfirmed _ _ message _ body =>
      [{ messageId := message.event.id
         body := body
         opening := openings message.event.id }]
  | .publishUnconfirmed _ _ message _ body _ =>
      [{ messageId := message.event.id
         body := body
         opening := openings message.event.id }]
  | _ => []

/-- The dispatch token that the action draws. -/
def draws : Action Payload → List String
  | .claimPendingOutbox _ _ _ token _ _ => [token]
  | _ => []

/-- The event whose replay the action commits. -/
def replays? : Action Payload → Option EventId
  | .replayCommit _ tx _ => some tx.eventId
  | _ => none

/-- The dead letters that the action claims for automatic retry. -/
def retries (config : Config) (s : System Payload) :
    Action Payload → List RetryableDeadLetterDetail
  | .claimRetryable _ now _ _ =>
      (s.db.claimRetryableDeadLetterDetails 10 config.dlqAutoRetryMaxAttempts now).1
  | _ => []

/-- The event that the action, as the commit of a scheduler's replay, moves from failed to
queued. -/
def autoReplays? : Action Payload → Option EventId
  | .replayCommit (.scheduler _) tx _ => if tx.moved = true then some tx.eventId else none
  | _ => none

/-- The event that the action claims for processing. -/
def claims? (config : Config) (s : System Payload) : Action Payload → Option EventId
  | .claimForProcessing _ event now outcome =>
      if outcome.Effective ∧ s.db.ClaimMatches event.id config.processingLease now then
        some event.id
      else none
  | _ => none

/-- The event that the action makes failed. -/
def fails? (s : System Payload) : Action Payload → Option EventId
  | .markFailed _ claim _ _ _ outcome =>
      if outcome.Effective ∧ s.db.status? claim.event.id ≠ some EventStatus.failed then
        some claim.event.id
      else none
  | _ => none

end Action

theorem bump_apply (count : EventId → Nat) (target id : EventId) :
    bump count target id = count id + if some target = some id then 1 else 0 := by
  by_cases same : id = target
  · subst same
    simp [bump]
  · simp [bump, Function.update_of_ne same, Ne.symm same]

theorem WorkerPhase.event?_of_attempted {phase : WorkerPhase Payload} {event : Event Payload}
    (begun : event ∈ phase.attempted) : phase.event? = some event := by
  cases phase with
  | attempting claim attempt => simp_all [WorkerPhase.attempted, WorkerPhase.event?]
  | _ => simp [WorkerPhase.attempted] at begun

variable [DecidableEq Payload] {codec : Codec Payload} {config : Config} {s s' : System Payload}
  {action : Action Payload}

/-! ### History variables -/

/-- What a step adds to the history variables whose additions the action alone determines, or the
action and the state before. -/
structure HistoryEffect (config : Config) (s : System Payload) (action : Action Payload)
    (s' : System Payload) : Prop where
  accepted : s'.history.accepted = s.history.accepted ++ action.accepts
  enqueued : s'.history.enqueued = s.history.enqueued ++ action.sends s.history.openings
  tokens : s'.history.tokens = s.history.tokens ++ action.draws
  autoClaims : s'.history.autoClaims = s.history.autoClaims ++ action.retries config s
  openings : ∀ id, s'.history.openings id =
    s.history.openings id + if action.opens? = some id then 1 else 0
  replays : ∀ id, s'.history.replays id =
    s.history.replays id + if action.replays? = some id then 1 else 0

theorem step_history (taken : step codec config s action = some s') :
    HistoryEffect config s action s' := by
  cases action
  all_goals
    simp only [step, Option.ite_none_right_eq_some, Option.some.injEq] at taken
    obtain ⟨_, rfl⟩ := taken
    constructor
    -- the lists grow by what the action adds, the counters of one event by one
    all_goals
      first
        | rfl
        | exact (List.append_nil _).symm
        | exact fun id => rfl
        | exact fun id => bump_apply _ _ id

theorem step_accepted (taken : step codec config s action = some s') :
    s'.history.accepted = s.history.accepted ++ action.accepts :=
  (step_history taken).accepted

/-- Only the commit of a save accepts a submission. -/
theorem accepted_cases (taken : step codec config s action = some s') :
    s'.history.accepted = s.history.accepted ∨
      ∃ request event payload now outboxId outcome,
        action = .commitSave request event payload now outboxId outcome ∧
        s.saves request = .insertedOutbox event payload now outboxId ∧
        s'.history.accepted = s.history.accepted ++ [event] := by
  cases action
  all_goals simp only [step, Option.ite_none_right_eq_some, Option.some.injEq] at taken
  case commitSave request event payload now outboxId outcome =>
      obtain ⟨⟨phase, _⟩, rfl⟩ := taken
      exact Or.inr ⟨request, event, payload, now, outboxId, outcome, rfl, phase, rfl⟩
  all_goals
    obtain ⟨_, rfl⟩ := taken
    exact Or.inl rfl

theorem step_openings (taken : step codec config s action = some s') (id : EventId) :
    s'.history.openings id =
      s.history.openings id + if action.opens? = some id then 1 else 0 :=
  (step_history taken).openings id

theorem step_enqueued (taken : step codec config s action = some s') :
    s'.history.enqueued = s.history.enqueued ++ action.sends s.history.openings :=
  (step_history taken).enqueued

/-- A message is sent by a dispatcher that is publishing it, with the current opening. -/
theorem sent_of_step (taken : step codec config s action = some s') {sent : Message}
    (member : sent ∈ action.sends s.history.openings) :
    ∃ d claimedAt message rest, s.dispatchers d = .publishing claimedAt message rest ∧
      sent.messageId = message.event.id ∧ codec.marshalEvent message.event = some sent.body ∧
      sent.opening = s.history.openings message.event.id := by
  cases action
  all_goals simp only [Action.sends, List.mem_singleton, List.not_mem_nil] at member
  case publishConfirmed d claimedAt message rest body =>
      simp only [step, Option.ite_none_right_eq_some] at taken
      obtain ⟨⟨phase, marshalled⟩, _⟩ := taken
      cases member
      exact ⟨d, claimedAt, message, rest, phase, rfl, marshalled, rfl⟩
  case publishUnconfirmed d claimedAt message rest body error =>
      simp only [step, Option.ite_none_right_eq_some] at taken
      obtain ⟨⟨phase, marshalled⟩, _⟩ := taken
      cases member
      exact ⟨d, claimedAt, message, rest, phase, rfl, marshalled, rfl⟩

theorem step_tokens (taken : step codec config s action = some s') :
    s'.history.tokens = s.history.tokens ++ action.draws :=
  (step_history taken).tokens

theorem step_replays (taken : step codec config s action = some s') (id : EventId) :
    s'.history.replays id =
      s.history.replays id + if action.replays? = some id then 1 else 0 :=
  (step_history taken).replays id

theorem step_autoClaims (taken : step codec config s action = some s') :
    s'.history.autoClaims = s.history.autoClaims ++ action.retries config s :=
  (step_history taken).autoClaims

theorem step_autoReplays (taken : step codec config s action = some s') (id : EventId) :
    s'.history.autoReplays id =
      s.history.autoReplays id + if action.autoReplays? = some id then 1 else 0 := by
  cases action
  all_goals simp only [step, Option.ite_none_right_eq_some, Option.some.injEq] at taken
  case replayCommit caller tx error =>
      obtain ⟨_, rfl⟩ := taken
      cases caller with
      | scheduler n =>
          by_cases moved : tx.moved = true
          · simp only [System.setReplay, Action.autoReplays?, moved, Caller.Manual,
              not_false_eq_true, and_self, if_true]
            exact bump_apply _ _ _
          · simp [System.setReplay, Action.autoReplays?, moved]
      | http request => simp [System.setReplay, Action.autoReplays?, Caller.Manual]
      | cli process => simp [System.setReplay, Action.autoReplays?, Caller.Manual]
  all_goals
    obtain ⟨_, rfl⟩ := taken
    rfl

theorem step_claims (taken : step codec config s action = some s') (id : EventId) :
    s'.history.claims id =
      s.history.claims id + if action.claims? config s = some id then 1 else 0 := by
  cases action
  all_goals simp only [step, Option.ite_none_right_eq_some, Option.some.injEq] at taken
  case claimForProcessing w event now outcome =>
      obtain ⟨_, rfl⟩ := taken
      simp only [System.setPhase, System.setWorker, Action.claims?]
      split
      · exact bump_apply _ _ _
      · rfl
  all_goals
    obtain ⟨_, rfl⟩ := taken
    rfl

theorem step_failures (taken : step codec config s action = some s') (id : EventId) :
    s'.history.failures id =
      s.history.failures id + if action.fails? s = some id then 1 else 0 := by
  cases action
  all_goals simp only [step, Option.ite_none_right_eq_some, Option.some.injEq] at taken
  case markFailed w claim attempt error now outcome =>
      obtain ⟨_, rfl⟩ := taken
      simp only [System.setPhase, System.setWorker, Action.fails?]
      split
      · exact bump_apply _ _ _
      · rfl
  all_goals
    obtain ⟨_, rfl⟩ := taken
    rfl

/-- Every newly attempted event is that of a worker that has just begun an attempt. -/
theorem step_attempted (taken : step codec config s action = some s') {event : Event Payload}
    (member : event ∈ s'.history.attempted) :
    event ∈ s.history.attempted ∨ ∃ w, (s'.workers w).phase.event? = some event := by
  cases action
  all_goals simp only [step, Option.ite_none_right_eq_some, Option.some.injEq] at taken
  case claimForProcessing w handled now outcome =>
      obtain ⟨_, rfl⟩ := taken
      refine (List.mem_append.mp member).imp_right fun begun => ⟨w, ?_⟩
      simp only [System.setPhase, System.setWorker, Function.update_self]
      exact WorkerPhase.event?_of_attempted begun
  case processorReturns w claim attempt error =>
      obtain ⟨_, rfl⟩ := taken
      refine (List.mem_append.mp member).imp_right fun begun => ⟨w, ?_⟩
      simp only [System.setPhase, System.setWorker, Function.update_self]
      exact WorkerPhase.event?_of_attempted begun
  all_goals
    obtain ⟨_, rfl⟩ := taken
    exact Or.inl member

theorem step_clock (taken : step codec config s action = some s') : s.clock ≤ s'.clock := by
  cases action
  all_goals simp only [step, Option.ite_none_right_eq_some, Option.some.injEq] at taken
  case tick span =>
      subst taken
      exact Int.le_add_of_nonneg_right (Int.natCast_nonneg span)
  all_goals
    obtain ⟨_, rfl⟩ := taken
    exact le_refl _

/-! ### The broker -/

/-- The message is in the queue or delivered and not settled. -/
def System.InBroker (s : System Payload) (message : Message) : Prop :=
  message ∈ s.ready ∨ ∃ w, (s.workers w).delivery = some message

/-- The deliveries that the action takes out of the broker for good. -/
def Action.Settles (s : System Payload) (message : Message) : Action Payload → Prop
  | .settle w _ settlement =>
      settlement ≠ .requeue ∧ (s.workers w).delivery = some message
  | .rejectUndecodable _ rejected => rejected = message
  | _ => False

private theorem mem_or_eq_of_eraseIdx {messages : List Message} {index : Nat}
    {message removed : Message} (found : messages[index]? = some removed)
    (member : message ∈ messages) : message ∈ messages.eraseIdx index ∨ message = removed := by
  obtain ⟨i, bound, rfl⟩ := List.mem_iff_getElem.mp member
  by_cases same : i = index
  · subst same
    exact Or.inr (by simpa [List.getElem?_eq_getElem bound] using found)
  · exact Or.inl (List.mem_eraseIdx_iff_getElem.mpr ⟨i, bound, same, rfl⟩)

omit [DecidableEq Payload] in
@[simp] theorem System.delivery_setPhase (s : System Payload) (actor : Nat)
    (phase : WorkerPhase Payload) (w : Nat) :
    ((s.setPhase actor phase).workers w).delivery = (s.workers w).delivery := by
  by_cases same : w = actor
  · subst same
    simp [System.setPhase, System.setWorker]
  · simp [System.setPhase, System.setWorker, Function.update_of_ne same]

omit [DecidableEq Payload] in
/-- Replacing a worker changes which deliveries are held only at that worker. -/
private theorem held_of_setWorker {s : System Payload} (actor : Nat) {worker : Worker Payload}
    {message : Message} {w : Nat} (held : (s.workers w).delivery = some message) :
    (s.workers actor).delivery = some message ∨
      ∃ v, ((s.setWorker actor worker).workers v).delivery = some message := by
  by_cases same : w = actor
  · exact Or.inl (same ▸ held)
  · exact Or.inr ⟨w, by simpa [System.setWorker, Function.update_of_ne same] using held⟩

omit [DecidableEq Payload] in
private theorem held_of_held_setWorker {s : System Payload} {actor : Nat} {worker : Worker Payload}
    {message : Message} {w : Nat}
    (held : ((s.setWorker actor worker).workers w).delivery = some message) :
    worker.delivery = some message ∨ ∃ v, (s.workers v).delivery = some message := by
  by_cases same : w = actor
  · subst same
    exact Or.inl (by simpa [System.setWorker] using held)
  · exact Or.inr ⟨w, by simpa [System.setWorker, Function.update_of_ne same] using held⟩

/-- A message leaves the broker only by being settled. -/
theorem step_inBroker (taken : step codec config s action = some s') {message : Message}
    (present : s.InBroker message) : s'.InBroker message ∨ action.Settles s message := by
  cases action
  all_goals simp only [step, Option.ite_none_right_eq_some, Option.some.injEq] at taken
  case publishConfirmed =>
      obtain ⟨_, rfl⟩ := taken
      exact Or.inl (present.imp_left fun member => List.mem_append_left _ member)
  case publishUnconfirmed =>
      obtain ⟨_, rfl⟩ := taken
      exact Or.inl (present.imp_left fun member => List.mem_append_left _ member)
  case deliver w index delivered event =>
      obtain ⟨⟨idle, found, _⟩, rfl⟩ := taken
      have nothingHeld : (s.workers w).delivery = none := by rw [idle]; rfl
      refine Or.inl ?_
      rcases present with waiting | ⟨v, held⟩
      · rcases mem_or_eq_of_eraseIdx found waiting with stays | rfl
        · exact Or.inl stays
        · exact Or.inr ⟨w, by simp [System.setWorker]⟩
      · rcases held_of_setWorker w held with absurdHeld | ⟨u, stillHeld⟩
        · simp [nothingHeld] at absurdHeld
        · exact Or.inr ⟨u, stillHeld⟩
  case rejectUndecodable index rejected =>
      obtain ⟨⟨found, _⟩, rfl⟩ := taken
      rcases present with waiting | held
      · rcases mem_or_eq_of_eraseIdx found waiting with stays | same
        · exact Or.inl (Or.inl stays)
        · exact Or.inr same.symm
      · exact Or.inl (Or.inr held)
  case loseConnection w returned =>
      obtain ⟨held, rfl⟩ := taken
      refine Or.inl ?_
      rcases present with waiting | ⟨v, holds⟩
      · exact Or.inl (List.mem_append_left _ waiting)
      · rcases held_of_setWorker w holds with own | stillHeld
        · rw [held] at own
          exact Or.inl (List.mem_append_right _ (by simp [Option.some.inj own]))
        · exact Or.inr stillHeld
  case settle w event settlement =>
      obtain ⟨_, rfl⟩ := taken
      by_cases requeued : settlement = .requeue
      · refine Or.inl ?_
        rcases present with waiting | ⟨v, holds⟩
        · exact Or.inl (by simp [System.setWorker, requeued, waiting])
        · rcases held_of_setWorker w holds with own | stillHeld
          · exact Or.inl (by simp [System.setWorker, requeued, own])
          · exact Or.inr stillHeld
      · rcases present with waiting | ⟨v, holds⟩
        · exact Or.inl (Or.inl (by simp [System.setWorker, requeued, waiting]))
        · rcases held_of_setWorker w holds with own | stillHeld
          · exact Or.inr ⟨requeued, own⟩
          · exact Or.inl (Or.inr stillHeld)
  case crashWorker w =>
      subst taken
      refine Or.inl ?_
      rcases present with waiting | ⟨v, holds⟩
      · exact Or.inl (List.mem_append_left _ waiting)
      · rcases held_of_setWorker w holds with own | stillHeld
        · exact Or.inl (List.mem_append_right _ (by simp [own]))
        · exact Or.inr stillHeld
  -- a worker that only changes its phase keeps its delivery
  all_goals
    obtain ⟨_, rfl⟩ := taken
    first
    | exact Or.inl present
    | exact Or.inl (present.imp_right fun ⟨v, held⟩ => ⟨v, by simpa using held⟩)

/-- A message enters the broker only by being sent. -/
theorem inBroker_of_step (taken : step codec config s action = some s') {message : Message}
    (present : s'.InBroker message) :
    s.InBroker message ∨ message ∈ action.sends s.history.openings := by
  cases action
  all_goals simp only [step, Option.ite_none_right_eq_some, Option.some.injEq] at taken
  case publishConfirmed =>
      obtain ⟨_, rfl⟩ := taken
      rcases present with waiting | held
      · exact (List.mem_append.mp waiting).imp_left Or.inl
      · exact Or.inl (Or.inr held)
  case publishUnconfirmed =>
      obtain ⟨_, rfl⟩ := taken
      rcases present with waiting | held
      · exact (List.mem_append.mp waiting).imp_left Or.inl
      · exact Or.inl (Or.inr held)
  case deliver w index delivered event =>
      obtain ⟨⟨_, found, _⟩, rfl⟩ := taken
      refine Or.inl ?_
      rcases present with waiting | ⟨v, held⟩
      · exact Or.inl (List.mem_of_mem_eraseIdx waiting)
      · rcases held_of_held_setWorker held with new | old
        · cases new
          exact Or.inl (List.mem_of_getElem? found)
        · exact Or.inr old
  case rejectUndecodable index rejected =>
      obtain ⟨_, rfl⟩ := taken
      exact Or.inl (present.imp_left List.mem_of_mem_eraseIdx)
  case loseConnection w returned =>
      obtain ⟨held, rfl⟩ := taken
      refine Or.inl ?_
      rcases present with waiting | ⟨v, holds⟩
      · rcases List.mem_append.mp waiting with old | new
        · exact Or.inl old
        · exact Or.inr ⟨w, by rw [held, List.mem_singleton.mp new]⟩
      · rcases held_of_held_setWorker holds with new | old
        · cases new
        · exact Or.inr old
  case settle w event settlement =>
      obtain ⟨_, rfl⟩ := taken
      refine Or.inl ?_
      rcases present with waiting | ⟨v, holds⟩
      · simp only [System.setWorker] at waiting
        split at waiting
        · rcases List.mem_append.mp waiting with old | new
          · exact Or.inl old
          · exact Or.inr ⟨w, Option.mem_toList.mp new⟩
        · exact Or.inl waiting
      · rcases held_of_held_setWorker holds with new | old
        · cases new
        · exact Or.inr old
  case crashWorker w =>
      subst taken
      refine Or.inl ?_
      rcases present with waiting | ⟨v, holds⟩
      · rcases List.mem_append.mp waiting with old | new
        · exact Or.inl old
        · exact Or.inr ⟨w, Option.mem_toList.mp new⟩
      · rcases held_of_held_setWorker holds with new | old
        · cases new
        · exact Or.inr old
  all_goals
    obtain ⟨_, rfl⟩ := taken
    first
    | exact Or.inl present
    | exact Or.inl (present.imp_right fun ⟨v, held⟩ => ⟨v, by simpa using held⟩)

end WebhookProcessor
