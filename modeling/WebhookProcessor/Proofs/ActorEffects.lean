/-
Module: WebhookProcessor.Proofs.ActorEffects
Layer: Proofs
Purpose: What one step of the service can do to one party, with the guards under which it does it:
  the counterpart of `Proofs.StepEffects` for the save calls, the replay calls, the dispatchers,
  the workers and the retry schedulers.  An effect is indexed by the action, so after a case split
  on one effect the other effects of the same step are known as well.
Trusted boundary: none
Main exports: SaveEffect, ReplayEffect, DispatcherEffect, WorkerEffect, SchedulerEffect, step_save,
  step_replay, step_dispatcher, step_worker, step_scheduler
-/
import WebhookProcessor.Model.System

namespace WebhookProcessor

/-! ### Whose action it is -/

namespace Action

variable {Payload : Type}

/-- The `POST /events` request that acts. -/
def request? : Action Payload → Option Nat
  | .submit request _ _ _ _ => some request
  | .insertEvent request _ _ _ => some request
  | .rejectDuplicate request _ _ => some request
  | .insertOutbox request _ _ _ => some request
  | .commitSave request _ _ _ _ _ => some request
  | .failSave request _ => some request
  | _ => none

/-- The caller whose `ReplayDeadLetter` call starts, goes on or ends. -/
def caller? : Action Payload → Option Caller
  | .replay caller _ => some caller
  | .replaySelect caller _ => some caller
  | .replayResetEvent caller _ _ _ _ _ => some caller
  | .replayReopenOutbox caller _ => some caller
  | .replayInsertOutbox caller _ => some caller
  | .replayMarkDeadLetter caller _ => some caller
  | .replayCommit caller _ _ => some caller
  | .replayFail caller _ _ => some caller
  | .schedulerReplay n _ _ => some (.scheduler n)
  | .crashScheduler n => some (.scheduler n)
  | _ => none

/-- The dispatcher that acts. -/
def dispatcher? : Action Payload → Option Nat
  | .claimPendingOutbox d _ _ _ _ _ => some d
  | .publishConfirmed d _ _ _ _ => some d
  | .publishFailed d _ _ _ _ => some d
  | .publishUnconfirmed d _ _ _ _ _ => some d
  | .markOutboxPublished d _ _ _ _ _ _ => some d
  | .markOutboxFailed d _ _ _ _ => some d
  | .crashDispatcher d => some d
  | _ => none

/-- The worker that acts or whose connection is lost. -/
def worker? : Action Payload → Option Nat
  | .deliver w _ _ _ => some w
  | .loseConnection w _ => some w
  | .claimForProcessing w _ _ _ => some w
  | .readClaimStatus w _ _ => some w
  | .processorReturns w _ _ _ => some w
  | .markProcessed w _ _ _ _ => some w
  | .saveDeadLetter w _ _ _ _ _ _ => some w
  | .markFailed w _ _ _ _ _ => some w
  | .returns w _ _ _ => some w
  | .settle w _ _ => some w
  | .crashWorker w => some w
  | _ => none

/-- The retry scheduler that acts. -/
def scheduler? : Action Payload → Option Nat
  | .claimRetryable n _ _ _ => some n
  | .schedulerReplay n _ _ => some n
  | .schedulerReplayed n _ _ => some n
  | .schedulerReplayFailed n _ _ _ => some n
  | .reschedule n _ _ _ _ _ _ => some n
  | .crashScheduler n => some n
  | _ => none

end Action

variable {Payload : Type} [DecidableEq Payload] {codec : Codec Payload} {config : Config}
  {s s' : System Payload} {action : Action Payload}

/-- Updating the acting party: the others keep their state. -/
private theorem forall_of_update {ι β : Type} [DecidableEq ι] {states : ι → β} {actor : ι}
    {value : β} {motive : ι → β → Prop} {acting : Option ι} (acts : acting = some actor)
    (own : motive actor value) (others : ∀ i, acting ≠ some i → motive i (states i)) (i : ι) :
    motive i (Function.update states actor value i) := by
  by_cases same : i = actor
  · subst same
    rwa [Function.update_self]
  · rw [Function.update_of_ne same]
    exact others i (by rw [acts]; exact fun equal => same (Option.some.inj equal).symm)

/-! ### Save calls -/

/-- The save call of `request` after a step that took `action`. -/
inductive SaveEffect (codec : Codec Payload) (s : System Payload) (request : Nat) :
    Action Payload → SaveCall Payload → Prop where
  | unchanged {action : Action Payload} (other : action.request? ≠ some request) :
      SaveEffect codec s request action (s.saves request)
  | submitted {body : EventJson} {header : String} {event : Event Payload} {payload : String}
      (free : (s.saves request).Free) (produced : codec.Produced event.payload)
      (marshalled : codec.marshal event.payload = some payload) :
      SaveEffect codec s request (.submit request body header event payload)
        (.begun event payload)
  | insertedEvent {event : Event Payload} {payload : String} {now : Time}
      (phase : s.saves request = .begun event payload) (sampled : now ≤ s.clock)
      (absent : s.db.event? event.id = none) (free : s.db.locks (.newEvent event.id) = none) :
      SaveEffect codec s request (.insertEvent request event payload now)
        (.insertedEvent event payload now)
  | duplicate {event : Event Payload} {payload : String}
      (phase : s.saves request = .begun event payload) (found : s.db.event? event.id ≠ none) :
      SaveEffect codec s request (.rejectDuplicate request event payload)
        (.refused event .eventAlreadyExists)
  | insertedOutbox {event : Event Payload} {payload : String} {now : Time}
      (phase : s.saves request = .insertedEvent event payload now)
      (absent : s.db.outboxFor? event.id = none) (free : s.db.locks (.outbox event.id) = none) :
      SaveEffect codec s request (.insertOutbox request event payload now)
        (.insertedOutbox event payload now s.db.outboxSeq)
  | committed {event : Event Payload} {payload : String} {now : Time} {outboxId : Nat}
      (phase : s.saves request = .insertedOutbox event payload now outboxId) :
      SaveEffect codec s request (.commitSave request event payload now outboxId .ok)
        (.accepted event)
  | commitLost {event : Event Payload} {payload : String} {now : Time} {outboxId : Nat}
      (phase : s.saves request = .insertedOutbox event payload now outboxId) :
      SaveEffect codec s request (.commitSave request event payload now outboxId .lost)
        (.refused event .store)
  | failed {event : Event Payload} (running : (s.saves request).inFlight = some event) :
      SaveEffect codec s request (.failSave request event) (.refused event .store)

omit [DecidableEq Payload] in
private theorem SaveEffect.of_update {r : Nat} {call : SaveCall Payload}
    (acts : action.request? = some r) (own : SaveEffect codec s r action call) (request : Nat) :
    SaveEffect codec s request action (Function.update s.saves r call request) :=
  forall_of_update (motive := fun i => SaveEffect codec s i action) acts own
    (fun _ => .unchanged) request

theorem step_save (taken : step codec config s action = some s') (request : Nat) :
    SaveEffect codec s request action (s'.saves request) := by
  cases action
  all_goals simp only [step, Option.ite_none_right_eq_some, Option.some.injEq] at taken
  case submit r body header event payload =>
      obtain ⟨⟨free, decoded, _, _, marshalled⟩, rfl⟩ := taken
      have produced : codec.Produced event.payload := by
        simp only [Codec.unmarshalEvent, Option.map_map, Option.map_eq_some_iff] at decoded
        obtain ⟨value, unmarshalled, rfl⟩ := decoded
        exact ⟨body.payload, unmarshalled⟩
      exact .of_update rfl (.submitted free produced marshalled) request
  case insertEvent r event payload now =>
      obtain ⟨⟨phase, sampled, absent, free⟩, rfl⟩ := taken
      exact .of_update rfl (.insertedEvent phase sampled absent free) request
  case rejectDuplicate r event payload =>
      obtain ⟨⟨phase, found⟩, rfl⟩ := taken
      exact .of_update rfl (.duplicate phase found) request
  case insertOutbox r event payload now =>
      obtain ⟨⟨phase, absent, free⟩, rfl⟩ := taken
      exact .of_update rfl (.insertedOutbox phase absent free) request
  case commitSave r event payload now outboxId outcome =>
      obtain ⟨⟨phase, effective⟩, rfl⟩ := taken
      refine .of_update rfl ?_ request
      cases outcome with
      | ok => exact .committed phase
      | failed => exact absurd rfl effective
      | lost => exact .commitLost phase
  case failSave r event =>
      obtain ⟨running, rfl⟩ := taken
      exact .of_update rfl (.failed running) request
  all_goals
    obtain ⟨_, rfl⟩ := taken
    exact .unchanged (Option.some_ne_none _).symm

/-! ### Replay calls -/

/-- The replay call of `caller` after a step that took `action`. -/
inductive ReplayEffect (s : System Payload) (caller : Caller) :
    Action Payload → ReplayCall → Prop where
  | unchanged {action : Action Payload} (other : action.caller? ≠ some caller) :
      ReplayEffect s caller action (s.replays caller)
  | begun {id : EventId} (manual : caller.Manual) (free : (s.replays caller).Free) :
      ReplayEffect s caller (.replay caller id) (.begun id)
  | selected {id : EventId} (phase : s.replays caller = .begun id) :
      ReplayEffect s caller (.replaySelect caller id) (s.db.selectForReplay id)
  | eventReset {id : EventId} {eventType requestId payload : String} {now : Time}
      (phase : s.replays caller = .selected id eventType requestId payload)
      (sampled : now ≤ s.clock)
      (free : s.db.status? id = some .failed → s.db.locks (.event id) = none) :
      ReplayEffect s caller (.replayResetEvent caller id eventType requestId payload now)
        (.eventReset
          { eventId := id
            eventType := eventType
            requestId := requestId
            payload := payload
            now := now
            moved := decide (s.db.status? id = some .failed)
            inserted := none })
  | outboxReopened {tx : ReplayTx} (phase : s.replays caller = .eventReset tx)
      (found : s.db.outboxFor? tx.eventId ≠ none)
      (free : s.db.locks (.outbox tx.eventId) = none) :
      ReplayEffect s caller (.replayReopenOutbox caller tx) (.outboxReopened tx)
  | outboxMissing {tx : ReplayTx} (phase : s.replays caller = .eventReset tx)
      (absent : s.db.outboxFor? tx.eventId = none) :
      ReplayEffect s caller (.replayReopenOutbox caller tx) (.outboxMissing tx)
  | outboxInserted {tx : ReplayTx} (phase : s.replays caller = .outboxMissing tx)
      (absent : s.db.outboxFor? tx.eventId = none)
      (free : s.db.locks (.outbox tx.eventId) = none) :
      ReplayEffect s caller (.replayInsertOutbox caller tx)
        (.outboxReopened { tx with
          inserted := some (newOutboxRow s.db.outboxSeq tx.eventId tx.eventType tx.requestId
            tx.payload tx.now) })
  | deadLetterMarked {tx : ReplayTx} (phase : s.replays caller = .outboxReopened tx)
      (free : s.db.locks (.deadLetter tx.eventId) = none) :
      ReplayEffect s caller (.replayMarkDeadLetter caller tx) (.deadLetterMarked tx)
  | committed {tx : ReplayTx} (phase : s.replays caller = .deadLetterMarked tx) :
      ReplayEffect s caller (.replayCommit caller tx none) (.succeeded tx.eventId)
  | commitLost {tx : ReplayTx} {message : String}
      (phase : s.replays caller = .deadLetterMarked tx) :
      ReplayEffect s caller (.replayCommit caller tx (some message))
        (.failed tx.eventId (.store message))
  | failed {id : EventId} {message : String} (running : (s.replays caller).inFlight = some id) :
      ReplayEffect s caller (.replayFail caller id message) (.failed id (.store message))
  | scheduled {n : Nat} {item : RetryableDeadLetterDetail} {rest : List RetryableDeadLetterDetail}
      (self : caller = .scheduler n) (retrying : s.schedulers n = .retrying item rest)
      (free : (s.replays caller).Free) :
      ReplayEffect s caller (.schedulerReplay n item rest) (.begun item.eventId)
  | crashed {n : Nat} (self : caller = .scheduler n) :
      ReplayEffect s caller (.crashScheduler n) .idle

omit [DecidableEq Payload] in
private theorem ReplayEffect.of_update {c : Caller} {call : ReplayCall}
    (acts : action.caller? = some c) (own : ReplayEffect s c action call) (caller : Caller) :
    ReplayEffect s caller action (Function.update s.replays c call caller) :=
  forall_of_update (motive := fun i => ReplayEffect s i action) acts own
    (fun _ => .unchanged) caller

theorem step_replay (taken : step codec config s action = some s') (caller : Caller) :
    ReplayEffect s caller action (s'.replays caller) := by
  cases action
  all_goals simp only [step, Option.ite_none_right_eq_some, Option.some.injEq] at taken
  case replay c id =>
      obtain ⟨⟨manual, free⟩, rfl⟩ := taken
      exact .of_update rfl (.begun manual free) caller
  case replaySelect c id =>
      obtain ⟨phase, rfl⟩ := taken
      exact .of_update rfl (.selected phase) caller
  case replayResetEvent c id eventType requestId payload now =>
      obtain ⟨⟨phase, sampled, free⟩, rfl⟩ := taken
      exact .of_update rfl (.eventReset phase sampled free) caller
  case replayReopenOutbox c tx =>
      obtain ⟨⟨phase, free⟩, rfl⟩ := taken
      refine .of_update rfl ?_ caller
      split
      · exact .outboxMissing phase ‹_›
      · exact .outboxReopened phase ‹_› (free ‹_›)
  case replayInsertOutbox c tx =>
      obtain ⟨⟨phase, absent, free⟩, rfl⟩ := taken
      exact .of_update rfl (.outboxInserted phase absent free) caller
  case replayMarkDeadLetter c tx =>
      obtain ⟨⟨phase, free⟩, rfl⟩ := taken
      exact .of_update rfl (.deadLetterMarked phase free) caller
  case replayCommit c tx error =>
      obtain ⟨phase, rfl⟩ := taken
      refine .of_update rfl ?_ caller
      cases error with
      | none => exact .committed phase
      | some message => exact .commitLost phase
  case replayFail c id message =>
      obtain ⟨running, rfl⟩ := taken
      exact .of_update rfl (.failed running) caller
  case schedulerReplay n item rest =>
      obtain ⟨⟨retrying, free⟩, rfl⟩ := taken
      exact .of_update rfl (.scheduled rfl retrying free) caller
  case crashScheduler n =>
      subst taken
      exact .of_update rfl (.crashed rfl) caller
  all_goals
    obtain ⟨_, rfl⟩ := taken
    exact .unchanged (Option.some_ne_none _).symm

/-! ### Dispatchers -/

/-- The dispatcher `d` after a step that took `action`. -/
inductive DispatcherEffect (codec : Codec Payload) (config : Config) (s : System Payload)
    (d : Nat) : Action Payload → Dispatcher Payload → Prop where
  | unchanged {action : Action Payload} (other : action.dispatcher? ≠ some d) :
      DispatcherEffect codec config s d action (s.dispatchers d)
  | claimed {limit : Nat} {now : Time} {token : String} {order : List Nat}
      {batch : List (OutboxMessage Payload)}
      (idle : s.dispatchers d = .idle) (sampled : now ≤ s.clock)
      (returned : order.Perm
        ((s.db.claimPendingOutbox limit config.outboxDispatchLease now token).1.map OutboxRow.id))
      (scanned : scanClaimed codec token
        (s.db.claimPendingOutbox limit config.outboxDispatchLease now token).1 order =
          some batch) :
      DispatcherEffect codec config s d (.claimPendingOutbox d limit now token order .ok)
        (Dispatcher.loop now batch)
  | claimedNothing {limit : Nat} {now : Time} {token : String} {order : List Nat}
      {outcome : Outcome} (idle : s.dispatchers d = .idle)
      (unusable : outcome = .ok → scanClaimed codec token
        (s.db.claimPendingOutbox limit config.outboxDispatchLease now token).1 order = none) :
      DispatcherEffect codec config s d (.claimPendingOutbox d limit now token order outcome) .idle
  | confirmed {claimedAt : Time} {message : OutboxMessage Payload}
      {rest : List (OutboxMessage Payload)} {body : EventJson}
      (phase : s.dispatchers d = .publishing claimedAt message rest)
      (marshalled : codec.marshalEvent message.event = some body) :
      DispatcherEffect codec config s d (.publishConfirmed d claimedAt message rest body)
        (.published claimedAt message (s.history.openings message.event.id) rest)
  | refused {claimedAt : Time} {message : OutboxMessage Payload}
      {rest : List (OutboxMessage Payload)} {error : String}
      (phase : s.dispatchers d = .publishing claimedAt message rest) :
      DispatcherEffect codec config s d (.publishFailed d claimedAt message rest error)
        (.rejected claimedAt message error)
  | unconfirmed {claimedAt : Time} {message : OutboxMessage Payload}
      {rest : List (OutboxMessage Payload)} {body : EventJson} {error : String}
      (phase : s.dispatchers d = .publishing claimedAt message rest)
      (marshalled : codec.marshalEvent message.event = some body) :
      DispatcherEffect codec config s d (.publishUnconfirmed d claimedAt message rest body error)
        (.rejected claimedAt message error)
  | marked {claimedAt : Time} {message : OutboxMessage Payload} {opening : Nat}
      {rest : List (OutboxMessage Payload)} {now : Time}
      (phase : s.dispatchers d = .published claimedAt message opening rest)
      (reserved : s.db.Reserved message.id message.dispatchToken) :
      DispatcherEffect codec config s d
        (.markOutboxPublished d claimedAt message opening rest now .ok)
        (Dispatcher.loop claimedAt rest)
  | markMissed {claimedAt : Time} {message : OutboxMessage Payload} {opening : Nat}
      {rest : List (OutboxMessage Payload)} {now : Time} {outcome : Outcome}
      (phase : s.dispatchers d = .published claimedAt message opening rest)
      (missed : ¬ (outcome = .ok ∧ s.db.Reserved message.id message.dispatchToken)) :
      DispatcherEffect codec config s d
        (.markOutboxPublished d claimedAt message opening rest now outcome) .idle
  | released {claimedAt : Time} {message : OutboxMessage Payload} {error : String}
      {outcome : Outcome} (phase : s.dispatchers d = .rejected claimedAt message error) :
      DispatcherEffect codec config s d (.markOutboxFailed d claimedAt message error outcome) .idle
  | crashed : DispatcherEffect codec config s d (.crashDispatcher d) .idle

omit [DecidableEq Payload] in
private theorem DispatcherEffect.of_update {actor : Nat} {dispatcher : Dispatcher Payload}
    (acts : action.dispatcher? = some actor)
    (own : DispatcherEffect codec config s actor action dispatcher) (d : Nat) :
    DispatcherEffect codec config s d action
      (Function.update s.dispatchers actor dispatcher d) :=
  forall_of_update (motive := fun i => DispatcherEffect codec config s i action) acts own
    (fun _ => .unchanged) d

theorem step_dispatcher (taken : step codec config s action = some s') (d : Nat) :
    DispatcherEffect codec config s d action (s'.dispatchers d) := by
  cases action
  all_goals simp only [step, Option.ite_none_right_eq_some, Option.some.injEq] at taken
  case claimPendingOutbox actor limit now token order outcome =>
      obtain ⟨⟨idle, sampled, _, returned⟩, rfl⟩ := taken
      refine .of_update rfl ?_ d
      split
      · rename_i succeeded
        subst succeeded
        cases scanned : scanClaimed codec token
            (s.db.claimPendingOutbox limit config.outboxDispatchLease now token).1 order with
        | none => exact .claimedNothing idle fun _ => scanned
        | some batch => exact .claimed idle sampled returned scanned
      · exact .claimedNothing idle fun succeeded => absurd succeeded ‹_›
  case publishConfirmed actor claimedAt message rest body =>
      obtain ⟨⟨phase, marshalled⟩, rfl⟩ := taken
      exact .of_update rfl (.confirmed phase marshalled) d
  case publishFailed actor claimedAt message rest error =>
      obtain ⟨phase, rfl⟩ := taken
      exact .of_update rfl (.refused phase) d
  case publishUnconfirmed actor claimedAt message rest body error =>
      obtain ⟨⟨phase, marshalled⟩, rfl⟩ := taken
      exact .of_update rfl (.unconfirmed phase marshalled) d
  case markOutboxPublished actor claimedAt message opening rest now outcome =>
      obtain ⟨⟨phase, _, _⟩, rfl⟩ := taken
      refine .of_update rfl ?_ d
      split
      · rename_i hit
        obtain ⟨rfl, reserved⟩ := hit
        exact .marked phase reserved
      · exact .markMissed phase ‹_›
  case markOutboxFailed actor claimedAt message error outcome =>
      obtain ⟨⟨phase, _⟩, rfl⟩ := taken
      exact .of_update rfl (.released phase) d
  case crashDispatcher actor =>
      subst taken
      exact .of_update rfl .crashed d
  all_goals
    obtain ⟨_, rfl⟩ := taken
    exact .unchanged (Option.some_ne_none _).symm

theorem step_dispatcher_other (taken : step codec config s action = some s') {d : Nat}
    (other : action.dispatcher? ≠ some d) : s'.dispatchers d = s.dispatchers d := by
  have effect := step_dispatcher taken d
  generalize s'.dispatchers d = dispatcher at effect
  cases effect with
  | unchanged => rfl
  | _ => exact absurd rfl other

omit [DecidableEq Payload] in
@[simp] theorem Dispatcher.hand_loop (claimedAt : Time) (batch : List (OutboxMessage Payload)) :
    (Dispatcher.loop claimedAt batch).hand = batch := by
  cases batch <;> rfl

/-- A dispatcher gets messages only from its claim. -/
theorem hand_of_step (taken : step codec config s action = some s') {d : Nat}
    {message : OutboxMessage Payload} (member : message ∈ (s'.dispatchers d).hand) :
    message ∈ (s.dispatchers d).hand ∨
      ∃ limit now token order batch,
        action = .claimPendingOutbox d limit now token order .ok ∧ now ≤ s.clock ∧
        s.dispatchers d = .idle ∧
        order.Perm ((s.db.claimPendingOutbox limit config.outboxDispatchLease now
          token).1.map OutboxRow.id) ∧
        scanClaimed codec token (s.db.claimPendingOutbox limit config.outboxDispatchLease now
          token).1 order = some batch ∧ message ∈ batch := by
  have effect := step_dispatcher taken d
  generalize s'.dispatchers d = dispatcher at effect member
  cases effect with
  | unchanged => exact Or.inl member
  | @claimed limit now token order batch idle sampled returned scanned =>
      rw [Dispatcher.hand_loop] at member
      exact Or.inr ⟨limit, now, token, order, batch, rfl, sampled, idle, returned, scanned, member⟩
  | confirmed phase => exact Or.inl (by rw [phase]; exact member)
  | refused phase =>
      rw [phase]
      exact Or.inl (List.mem_cons.mpr (Or.inl (List.mem_singleton.mp member)))
  | unconfirmed phase =>
      rw [phase]
      exact Or.inl (List.mem_cons.mpr (Or.inl (List.mem_singleton.mp member)))
  | marked phase =>
      rw [Dispatcher.hand_loop] at member
      rw [phase]
      exact Or.inl (List.mem_cons_of_mem _ member)
  | claimedNothing => cases member
  | markMissed => cases member
  | released => cases member
  | crashed => cases member

/-! ### Workers -/

/-- The worker `w` after a step that took `action`. -/
inductive WorkerEffect (codec : Codec Payload) (config : Config) (s : System Payload) (w : Nat) :
    Action Payload → Worker Payload → Prop where
  | unchanged {action : Action Payload} (other : action.worker? ≠ some w) :
      WorkerEffect codec config s w action (s.workers w)
  | delivered {index : Nat} {message : Message} {event : Event Payload}
      (idle : s.workers w = Worker.idle) (found : s.ready[index]? = some message)
      (decoded : codec.unmarshalEvent message.body = some event) :
      WorkerEffect codec config s w (.deliver w index message event)
        { delivery := some message
          phase := .received event }
  | disconnected {message : Message} (held : (s.workers w).delivery = some message) :
      WorkerEffect codec config s w (.loseConnection w message)
        { s.workers w with delivery := none }
  | claimed {event : Event Payload} {now : Time}
      (phase : (s.workers w).phase = .received event) (sampled : now ≤ s.clock)
      (matched : s.db.ClaimMatches event.id config.processingLease now)
      (free : s.db.locks (.event event.id) = none) :
      WorkerEffect codec config s w (.claimForProcessing w event now .ok)
        { s.workers w with
          phase := .attempting
            { event := event
              since := now
              number := s.history.claims event.id + 1 } 1 }
  | unclaimed {event : Event Payload} {now : Time}
      (phase : (s.workers w).phase = .received event)
      (unmatched : ¬ s.db.ClaimMatches event.id config.processingLease now) :
      WorkerEffect codec config s w (.claimForProcessing w event now .ok)
        { s.workers w with phase := .unclaimed event }
  | claimError {event : Event Payload} {now : Time} {outcome : Outcome}
      (phase : (s.workers w).phase = .received event) (error : outcome ≠ .ok) :
      WorkerEffect codec config s w (.claimForProcessing w event now outcome)
        { s.workers w with phase := .settling event .requeue }
  | statusRead {event : Event Payload} (phase : (s.workers w).phase = .unclaimed event) :
      WorkerEffect codec config s w (.readClaimStatus w event .ok)
        { s.workers w with
          phase := .settling event (settlementOf (s.history.openings event.id)
            (Database.claimResultOf (s.db.status? event.id))) }
  | statusError {event : Event Payload} {outcome : Outcome}
      (phase : (s.workers w).phase = .unclaimed event) (error : outcome ≠ .ok) :
      WorkerEffect codec config s w (.readClaimStatus w event outcome)
        { s.workers w with phase := .settling event .requeue }
  | attempted {claim : Claim Payload} {attempt : Nat} {error : Option String}
      (phase : (s.workers w).phase = .attempting claim attempt) :
      WorkerEffect codec config s w (.processorReturns w claim attempt error)
        { s.workers w with phase := afterAttempt config claim attempt error }
  | processed {claim : Claim Payload} {attempt : Nat} {now : Time}
      (phase : (s.workers w).phase = .succeeded claim attempt)
      (free : s.db.locks (.event claim.event.id) = none) :
      WorkerEffect codec config s w (.markProcessed w claim attempt now .ok)
        { s.workers w with
          phase := .returning claim true (.ack (s.history.openings claim.event.id)) }
  | processedError {claim : Claim Payload} {attempt : Nat} {now : Time} {outcome : Outcome}
      (phase : (s.workers w).phase = .succeeded claim attempt) (error : outcome ≠ .ok) :
      WorkerEffect codec config s w (.markProcessed w claim attempt now outcome)
        { s.workers w with phase := .returning claim (decide outcome.Effective) .requeue }
  | deadLettered {claim : Claim Payload} {attempt : Nat} {error payload : String} {now : Time}
      (phase : (s.workers w).phase = .exhausted claim attempt error)
      (marshalled : codec.marshal claim.event.payload = some payload)
      (free : s.db.locks (.deadLetter claim.event.id) = none) :
      WorkerEffect codec config s w (.saveDeadLetter w claim attempt error payload now .ok)
        { s.workers w with phase := .deadLettered claim attempt error }
  | deadLetterError {claim : Claim Payload} {attempt : Nat} {error payload : String} {now : Time}
      {outcome : Outcome} (phase : (s.workers w).phase = .exhausted claim attempt error)
      (failure : outcome ≠ .ok) :
      WorkerEffect codec config s w (.saveDeadLetter w claim attempt error payload now outcome)
        { s.workers w with phase := .returning claim false .requeue }
  | failed {claim : Claim Payload} {attempt : Nat} {error : String} {now : Time}
      (phase : (s.workers w).phase = .deadLettered claim attempt error)
      (free : s.db.locks (.event claim.event.id) = none) :
      WorkerEffect codec config s w (.markFailed w claim attempt error now .ok)
        { s.workers w with
          phase := .returning claim true (.ack (s.history.openings claim.event.id)) }
  | failedError {claim : Claim Payload} {attempt : Nat} {error : String} {now : Time}
      {outcome : Outcome} (phase : (s.workers w).phase = .deadLettered claim attempt error)
      (failure : outcome ≠ .ok) :
      WorkerEffect codec config s w (.markFailed w claim attempt error now outcome)
        { s.workers w with phase := .returning claim (decide outcome.Effective) .requeue }
  | returned {claim : Claim Payload} {written : Bool} {settlement : Settlement}
      (phase : (s.workers w).phase = .returning claim written settlement) :
      WorkerEffect codec config s w (.returns w claim written settlement)
        { s.workers w with phase := .settling claim.event settlement }
  | settled {event : Event Payload} {settlement : Settlement}
      (phase : (s.workers w).phase = .settling event settlement) :
      WorkerEffect codec config s w (.settle w event settlement) Worker.idle
  | crashed : WorkerEffect codec config s w (.crashWorker w) Worker.idle

omit [DecidableEq Payload] in
private theorem WorkerEffect.of_update {actor : Nat} {worker : Worker Payload}
    (acts : action.worker? = some actor)
    (own : WorkerEffect codec config s actor action worker) (w : Nat) :
    WorkerEffect codec config s w action (Function.update s.workers actor worker w) :=
  forall_of_update (motive := fun i => WorkerEffect codec config s i action) acts own
    (fun _ => .unchanged) w

theorem step_worker (taken : step codec config s action = some s') (w : Nat) :
    WorkerEffect codec config s w action (s'.workers w) := by
  cases action
  all_goals simp only [step, Option.ite_none_right_eq_some, Option.some.injEq] at taken
  case deliver actor index message event =>
      obtain ⟨⟨idle, found, decoded⟩, rfl⟩ := taken
      exact .of_update rfl (.delivered idle found decoded) w
  case loseConnection actor message =>
      obtain ⟨held, rfl⟩ := taken
      exact .of_update rfl (.disconnected held) w
  case claimForProcessing actor event now outcome =>
      obtain ⟨⟨phase, sampled, free⟩, rfl⟩ := taken
      refine .of_update rfl ?_ w
      cases outcome with
      | ok =>
          simp only [afterClaim]
          split
          · rename_i matched
            exact .claimed phase sampled matched (free ⟨Outcome.effective_ok, matched⟩)
          · exact .unclaimed phase ‹_›
      | failed => exact .claimError phase (by decide)
      | lost => exact .claimError phase (by decide)
  case readClaimStatus actor event outcome =>
      obtain ⟨phase, rfl⟩ := taken
      refine .of_update rfl ?_ w
      split
      · rename_i succeeded
        subst succeeded
        exact .statusRead phase
      · exact .statusError phase ‹_›
  case processorReturns actor claim attempt error =>
      obtain ⟨phase, rfl⟩ := taken
      exact .of_update rfl (.attempted phase) w
  case markProcessed actor claim attempt now outcome =>
      obtain ⟨⟨phase, _, free⟩, rfl⟩ := taken
      refine .of_update rfl ?_ w
      cases outcome with
      | ok => exact .processed phase (free Outcome.effective_ok)
      | failed => exact .processedError phase (by decide)
      | lost => exact .processedError phase (by decide)
  case saveDeadLetter actor claim attempt error payload now outcome =>
      obtain ⟨⟨phase, _, guarded⟩, rfl⟩ := taken
      refine .of_update rfl ?_ w
      cases outcome with
      | ok =>
          obtain ⟨marshalled, free⟩ := guarded Outcome.effective_ok
          exact .deadLettered phase marshalled free
      | failed => exact .deadLetterError phase (by decide)
      | lost => exact .deadLetterError phase (by decide)
  case markFailed actor claim attempt error now outcome =>
      obtain ⟨⟨phase, _, free⟩, rfl⟩ := taken
      refine .of_update rfl ?_ w
      cases outcome with
      | ok => exact .failed phase (free Outcome.effective_ok)
      | failed => exact .failedError phase (by decide)
      | lost => exact .failedError phase (by decide)
  case returns actor claim written settlement =>
      obtain ⟨phase, rfl⟩ := taken
      exact .of_update rfl (.returned phase) w
  case settle actor event settlement =>
      obtain ⟨phase, rfl⟩ := taken
      exact .of_update rfl (.settled phase) w
  case crashWorker actor =>
      subst taken
      exact .of_update rfl .crashed w
  all_goals
    obtain ⟨_, rfl⟩ := taken
    exact .unchanged (Option.some_ne_none _).symm

omit [DecidableEq Payload] in
theorem afterAttempt_event? (config : Config) (claim : Claim Payload) (attempt : Nat)
    (error : Option String) :
    (afterAttempt config claim attempt error).event? = some claim.event := by
  cases error with
  | none => rfl
  | some error =>
      simp only [afterAttempt]
      split <;> rfl

/-- A worker handles the event it handled before, with the delivery it had, or one that was just
delivered to it. -/
theorem handled_of_step (taken : step codec config s action = some s') {w : Nat}
    {event : Event Payload} (handled : (s'.workers w).phase.event? = some event) :
    ((s.workers w).phase.event? = some event ∧
      ∀ message, (s'.workers w).delivery = some message →
        (s.workers w).delivery = some message) ∨
    ∃ message ∈ s.ready, codec.unmarshalEvent message.body = some event ∧
      (s'.workers w).delivery = some message := by
  have effect := step_worker taken w
  generalize s'.workers w = worker at effect handled
  cases effect with
  | unchanged => exact Or.inl ⟨handled, fun _ => id⟩
  | delivered _ found decoded =>
      cases handled
      exact Or.inr ⟨_, List.mem_of_getElem? found, decoded, rfl⟩
  | disconnected => exact Or.inl ⟨handled, fun _ gone => by cases gone⟩
  | attempted phase =>
      rw [afterAttempt_event?] at handled
      exact Or.inl ⟨by rw [phase]; exact handled, fun _ => id⟩
  | claimed phase => exact Or.inl ⟨by rw [phase]; exact handled, fun _ => id⟩
  | unclaimed phase => exact Or.inl ⟨by rw [phase]; exact handled, fun _ => id⟩
  | claimError phase => exact Or.inl ⟨by rw [phase]; exact handled, fun _ => id⟩
  | statusRead phase => exact Or.inl ⟨by rw [phase]; exact handled, fun _ => id⟩
  | statusError phase => exact Or.inl ⟨by rw [phase]; exact handled, fun _ => id⟩
  | processed phase => exact Or.inl ⟨by rw [phase]; exact handled, fun _ => id⟩
  | processedError phase => exact Or.inl ⟨by rw [phase]; exact handled, fun _ => id⟩
  | deadLettered phase => exact Or.inl ⟨by rw [phase]; exact handled, fun _ => id⟩
  | deadLetterError phase => exact Or.inl ⟨by rw [phase]; exact handled, fun _ => id⟩
  | failed phase => exact Or.inl ⟨by rw [phase]; exact handled, fun _ => id⟩
  | failedError phase => exact Or.inl ⟨by rw [phase]; exact handled, fun _ => id⟩
  | returned phase => exact Or.inl ⟨by rw [phase]; exact handled, fun _ => id⟩
  | settled => cases handled
  | crashed => cases handled

/-! ### Retry schedulers -/

/-- The scheduler `n` after a step that took `action`. -/
inductive SchedulerEffect (config : Config) (s : System Payload) (n : Nat) :
    Action Payload → Scheduler → Prop where
  | unchanged {action : Action Payload} (other : action.scheduler? ≠ some n) :
      SchedulerEffect config s n action (s.schedulers n)
  | claimed {now : Time} {order : List EventId} (idle : s.schedulers n = .idle)
      (sampled : now ≤ s.clock)
      (returned : order.Perm ((s.db.claimRetryableDeadLetterDetails 10
        config.dlqAutoRetryMaxAttempts now).1.map RetryableDeadLetterDetail.eventId)) :
      SchedulerEffect config s n (.claimRetryable n now order .ok)
        (Scheduler.loop (orderItems (s.db.claimRetryableDeadLetterDetails 10
          config.dlqAutoRetryMaxAttempts now).1 order))
  | claimLost {now : Time} {order : List EventId} {outcome : Outcome}
      (idle : s.schedulers n = .idle) (lost : outcome ≠ .ok) :
      SchedulerEffect config s n (.claimRetryable n now order outcome) .idle
  | replaying {item : RetryableDeadLetterDetail} {rest : List RetryableDeadLetterDetail}
      (phase : s.schedulers n = .retrying item rest) :
      SchedulerEffect config s n (.schedulerReplay n item rest) (.replaying item rest)
  | replayed {item : RetryableDeadLetterDetail} {rest : List RetryableDeadLetterDetail}
      (phase : s.schedulers n = .replaying item rest)
      (returned : s.replays (.scheduler n) = .succeeded item.eventId) :
      SchedulerEffect config s n (.schedulerReplayed n item rest) (Scheduler.loop rest)
  | replayFailed {item : RetryableDeadLetterDetail} {rest : List RetryableDeadLetterDetail}
      {error : ReplayError} (phase : s.schedulers n = .replaying item rest)
      (returned : s.replays (.scheduler n) = .failed item.eventId error) :
      SchedulerEffect config s n (.schedulerReplayFailed n item rest error)
        (.rescheduling item error rest)
  | rescheduled {item : RetryableDeadLetterDetail} {error : ReplayError}
      {rest : List RetryableDeadLetterDetail} {now delay : Time} {outcome : Outcome}
      (phase : s.schedulers n = .rescheduling item error rest) :
      SchedulerEffect config s n (.reschedule n item error rest now delay outcome)
        (Scheduler.loop rest)
  | crashed : SchedulerEffect config s n (.crashScheduler n) .idle

omit [DecidableEq Payload] in
private theorem SchedulerEffect.of_update {actor : Nat} {scheduler : Scheduler}
    (acts : action.scheduler? = some actor)
    (own : SchedulerEffect config s actor action scheduler) (n : Nat) :
    SchedulerEffect config s n action (Function.update s.schedulers actor scheduler n) :=
  forall_of_update (motive := fun i => SchedulerEffect config s i action) acts own
    (fun _ => .unchanged) n

theorem step_scheduler (taken : step codec config s action = some s') (n : Nat) :
    SchedulerEffect config s n action (s'.schedulers n) := by
  cases action
  all_goals simp only [step, Option.ite_none_right_eq_some, Option.some.injEq] at taken
  case claimRetryable actor now order outcome =>
      obtain ⟨⟨idle, sampled, _, returned⟩, rfl⟩ := taken
      refine .of_update rfl ?_ n
      split
      · rename_i succeeded
        subst succeeded
        exact .claimed idle sampled returned
      · exact .claimLost idle ‹_›
  case schedulerReplay actor item rest =>
      obtain ⟨⟨phase, _⟩, rfl⟩ := taken
      exact .of_update rfl (.replaying phase) n
  case schedulerReplayed actor item rest =>
      obtain ⟨⟨phase, returned⟩, rfl⟩ := taken
      exact .of_update rfl (.replayed phase returned) n
  case schedulerReplayFailed actor item rest error =>
      obtain ⟨⟨phase, returned⟩, rfl⟩ := taken
      exact .of_update rfl (.replayFailed phase returned) n
  case reschedule actor item error rest now delay outcome =>
      obtain ⟨⟨phase, _, _⟩, rfl⟩ := taken
      exact .of_update rfl (.rescheduled phase) n
  case crashScheduler actor =>
      subst taken
      exact .of_update rfl .crashed n
  all_goals
    obtain ⟨_, rfl⟩ := taken
    exact .unchanged (Option.some_ne_none _).symm

theorem step_scheduler_other (taken : step codec config s action = some s') {n : Nat}
    (other : action.scheduler? ≠ some n) : s'.schedulers n = s.schedulers n := by
  have effect := step_scheduler taken n
  generalize s'.schedulers n = scheduler at effect
  cases effect with
  | unchanged => rfl
  | _ => exact absurd rfl other

end WebhookProcessor
