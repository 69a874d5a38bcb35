/-
Module: WebhookProcessor.Model.System
Layer: Model
Purpose: The whole service as one transition function: the database, the broker's ready messages,
  any number of concurrent `POST /events` requests, replay callers, dispatchers, workers and retry
  schedulers, and the common clock.  One action is one SQL statement (or one broker or processor
  call) of one party together with the local code up to its next statement, so a run is an
  arbitrary interleaving of the parties' statements.  An action names what it acts on; `step`
  returns `none` when the party does not stand there or its statement has to wait for a row lock.
  Every `now` that a statement carries was sampled at some earlier moment (`now ≤ clock`).
Trusted boundary: as in `Model.EventStore`; a confirmed message stays in the durable queue until a
  worker settles it.
Main exports: System, History, Action, step, Reachable
-/
import WebhookProcessor.Model.Actors
import WebhookProcessor.Transition.Runs

namespace WebhookProcessor

variable {Payload : Type}

/-- History variables: what happened so far, read by no guard. -/
structure History (Payload : Type) where
  /-- Submissions whose `SaveQueuedWithOutbox` committed. -/
  accepted : List (Event Payload)
  /-- Insertions and reopenings of the event's outbox row. -/
  openings : EventId → Nat
  /-- Every message ever put in the queue. -/
  enqueued : List Message
  /-- Every event ever passed to the processor, once per attempt. -/
  attempted : List (Event Payload)
  /-- Successful claims of the event for processing. -/
  claims : EventId → Nat
  /-- Times the event became failed. -/
  failures : EventId → Nat
  /-- `ReplayDeadLetter` transactions for the event that committed. -/
  replays : EventId → Nat
  /-- Dispatch tokens drawn so far. -/
  tokens : List String
  /-- Items claimed by retry schedulers, oldest first. -/
  autoClaims : List RetryableDeadLetterDetail
  /-- Times a scheduler's replay moved the event from failed to queued. -/
  autoReplays : EventId → Nat

def History.empty : History Payload :=
  { accepted := []
    openings := fun _ => 0
    enqueued := []
    attempted := []
    claims := fun _ => 0
    failures := fun _ => 0
    replays := fun _ => 0
    tokens := []
    autoClaims := []
    autoReplays := fun _ => 0 }

/-- Count one more occurrence for `id`. -/
def bump (count : EventId → Nat) (id : EventId) : EventId → Nat :=
  Function.update count id (count id + 1)

structure System (Payload : Type) where
  clock : Time
  db : Database
  ready : List Message
  saves : Nat → SaveCall Payload
  replays : Caller → ReplayCall
  dispatchers : Nat → Dispatcher Payload
  workers : Nat → Worker Payload
  schedulers : Nat → Scheduler
  history : History Payload

namespace System

/-- The empty database and queue with every party idle. -/
def initial : System Payload :=
  { clock := 0
    db := Database.empty
    ready := []
    saves := fun _ => .idle
    replays := fun _ => .idle
    dispatchers := fun _ => .idle
    workers := fun _ => Worker.idle
    schedulers := fun _ => .idle
    history := History.empty }

def setSave (s : System Payload) (request : Nat) (call : SaveCall Payload) : System Payload :=
  { s with saves := Function.update s.saves request call }

def setReplay (s : System Payload) (caller : Caller) (call : ReplayCall) : System Payload :=
  { s with replays := Function.update s.replays caller call }

def setDispatcher (s : System Payload) (d : Nat) (dispatcher : Dispatcher Payload) :
    System Payload :=
  { s with dispatchers := Function.update s.dispatchers d dispatcher }

def setWorker (s : System Payload) (w : Nat) (worker : Worker Payload) : System Payload :=
  { s with workers := Function.update s.workers w worker }

/-- Advance a worker that keeps its delivery. -/
def setPhase (s : System Payload) (w : Nat) (phase : WorkerPhase Payload) : System Payload :=
  s.setWorker w { s.workers w with phase := phase }

def setScheduler (s : System Payload) (n : Nat) (scheduler : Scheduler) : System Payload :=
  { s with schedulers := Function.update s.schedulers n scheduler }

end System

/-- The statements and calls that can come next, with what they act on and how they end. -/
inductive Action (Payload : Type) where
  | tick (span : Nat)
  -- POST /events
  | submit (request : Nat) (body : EventJson) (header : String) (event : Event Payload)
      (payload : String)
  | insertEvent (request : Nat) (event : Event Payload) (payload : String) (now : Time)
  | rejectDuplicate (request : Nat) (event : Event Payload) (payload : String)
  | insertOutbox (request : Nat) (event : Event Payload) (payload : String) (now : Time)
  | commitSave (request : Nat) (event : Event Payload) (payload : String) (now : Time)
      (outboxId : Nat) (outcome : Outcome)
  | failSave (request : Nat) (event : Event Payload)
  -- ReplayDeadLetter
  | replay (caller : Caller) (id : EventId)
  | replaySelect (caller : Caller) (id : EventId)
  | replayResetEvent (caller : Caller) (id : EventId) (eventType requestId payload : String)
      (now : Time)
  | replayReopenOutbox (caller : Caller) (tx : ReplayTx)
  | replayInsertOutbox (caller : Caller) (tx : ReplayTx)
  | replayMarkDeadLetter (caller : Caller) (tx : ReplayTx)
  | replayCommit (caller : Caller) (tx : ReplayTx) (error : Option String)
  | replayFail (caller : Caller) (id : EventId) (message : String)
  -- DispatchPending
  | claimPendingOutbox (d : Nat) (limit : Nat) (now : Time) (token : String) (order : List Nat)
      (outcome : Outcome)
  | publishConfirmed (d : Nat) (claimedAt : Time) (message : OutboxMessage Payload)
      (rest : List (OutboxMessage Payload)) (body : EventJson)
  | publishFailed (d : Nat) (claimedAt : Time) (message : OutboxMessage Payload)
      (rest : List (OutboxMessage Payload)) (error : String)
  | publishUnconfirmed (d : Nat) (claimedAt : Time) (message : OutboxMessage Payload)
      (rest : List (OutboxMessage Payload)) (body : EventJson) (error : String)
  | markOutboxPublished (d : Nat) (claimedAt : Time) (message : OutboxMessage Payload)
      (opening : Nat) (rest : List (OutboxMessage Payload)) (now : Time) (outcome : Outcome)
  | markOutboxFailed (d : Nat) (claimedAt : Time) (message : OutboxMessage Payload)
      (error : String) (outcome : Outcome)
  | crashDispatcher (d : Nat)
  -- deliveries and handleDelivery
  | deliver (w : Nat) (index : Nat) (message : Message) (event : Event Payload)
  | rejectUndecodable (index : Nat) (message : Message)
  | loseConnection (w : Nat) (message : Message)
  | claimForProcessing (w : Nat) (event : Event Payload) (now : Time) (outcome : Outcome)
  | readClaimStatus (w : Nat) (event : Event Payload) (outcome : Outcome)
  | processorReturns (w : Nat) (claim : Claim Payload) (attempt : Nat) (error : Option String)
  | markProcessed (w : Nat) (claim : Claim Payload) (attempt : Nat) (now : Time)
      (outcome : Outcome)
  | saveDeadLetter (w : Nat) (claim : Claim Payload) (attempt : Nat) (error payload : String)
      (now : Time) (outcome : Outcome)
  | markFailed (w : Nat) (claim : Claim Payload) (attempt : Nat) (error : String) (now : Time)
      (outcome : Outcome)
  | returns (w : Nat) (claim : Claim Payload) (written : Bool) (settlement : Settlement)
  | settle (w : Nat) (event : Event Payload) (settlement : Settlement)
  | crashWorker (w : Nat)
  -- DLQRetryScheduler.retry
  | claimRetryable (n : Nat) (now : Time) (order : List EventId) (outcome : Outcome)
  | schedulerReplay (n : Nat) (item : RetryableDeadLetterDetail)
      (rest : List RetryableDeadLetterDetail)
  | schedulerReplayed (n : Nat) (item : RetryableDeadLetterDetail)
      (rest : List RetryableDeadLetterDetail)
  | schedulerReplayFailed (n : Nat) (item : RetryableDeadLetterDetail)
      (rest : List RetryableDeadLetterDetail) (error : ReplayError)
  | reschedule (n : Nat) (item : RetryableDeadLetterDetail) (error : ReplayError)
      (rest : List RetryableDeadLetterDetail) (now delay : Time) (outcome : Outcome)
  | crashScheduler (n : Nat)
  -- EventStore methods that no part of the service calls
  | claimRetryableDeadLetters (limit maxAttempts : Nat) (now : Time)
  | rescheduleDeadLetterRetry (id : EventId) (error : String) (now : Time)

/-- `ClaimPendingOutbox` after the statement: scan the returned rows, in the order `RETURNING`
gave them, into messages; one undecodable payload fails the whole call. -/
def scanClaimed (codec : Codec Payload) (token : String) (rows : List OutboxRow)
    (order : List Nat) : Option (List (OutboxMessage Payload)) :=
  (order.filterMap fun id => rows.find? fun row => row.id = id).mapM
    (scanOutboxMessage codec token)

/-- The claimed items in the order `RETURNING` gave them. -/
def orderItems (items : List RetryableDeadLetterDetail) (order : List EventId) :
    List RetryableDeadLetterDetail :=
  order.filterMap fun id => items.find? fun item => item.eventId = id

/-- The rows that a mark of this message would update are not held by a transaction. -/
def Database.MarkFree (db : Database) (id : Nat) (token : String) : Prop :=
  ∀ row ∈ db.outbox.rows, row.ReservedFor id token → db.locks (.outbox row.eventId) = none

instance (db : Database) (id : Nat) (token : String) : Decidable (db.MarkFree id token) :=
  inferInstanceAs (Decidable (∀ row ∈ db.outbox.rows, _ → _))

/-- The manual entry points of `ReplayDeadLetter`. -/
def Caller.Manual : Caller → Prop
  | .scheduler _ => False
  | _ => True

instance (caller : Caller) : Decidable caller.Manual :=
  match caller with
  | .scheduler _ => inferInstanceAs (Decidable False)
  | .http _ | .cli _ => inferInstanceAs (Decidable True)

section Step

variable [DecidableEq Payload] (codec : Codec Payload) (config : Config) (s : System Payload)

/-- The transition function of the service. -/
def step : Action Payload → Option (System Payload)
  | .tick span => some { s with clock := s.clock + span }
  -- createEventHandler decodes and validates the body, then SaveQueuedWithOutbox marshals the
  -- payload and begins its transaction; rejected requests never reach the store.
  | .submit request body header event payload =>
      if (s.saves request).Free ∧
          (codec.unmarshalEvent body).map (fun decoded => { decoded with requestId := header }) =
            some event ∧
          event.id ≠ "" ∧ event.type ≠ "" ∧ codec.marshal event.payload = some payload then
        some (s.setSave request (.begun event payload))
      else none
  | .insertEvent request event payload now =>
      if s.saves request = .begun event payload ∧ now ≤ s.clock ∧ s.db.event? event.id = none ∧
          s.db.locks (.newEvent event.id) = none then
        some ({ s with db := s.db.lock (.save request) (.newEvent event.id) }.setSave request
          (.insertedEvent event payload now))
      else none
  | .rejectDuplicate request event payload =>
      if s.saves request = .begun event payload ∧ s.db.event? event.id ≠ none then
        some (s.setSave request (.refused event .eventAlreadyExists))
      else none
  | .insertOutbox request event payload now =>
      if s.saves request = .insertedEvent event payload now ∧
          s.db.outboxFor? event.id = none ∧ s.db.locks (.outbox event.id) = none then
        some ({ s with
          db := { s.db.lock (.save request) (.outbox event.id) with
            outboxSeq := s.db.outboxSeq + 1 } }.setSave request
          (.insertedOutbox event payload now s.db.outboxSeq))
      else none
  -- a COMMIT without effect is a failed call
  | .commitSave request event payload now outboxId outcome =>
      if s.saves request = .insertedOutbox event payload now outboxId ∧ outcome.Effective then
        some ({ s with
          db := (s.db.commitSave event payload now outboxId).unlock (.save request)
          history := { s.history with
            accepted := s.history.accepted ++ [event]
            openings := bump s.history.openings event.id } }.setSave request
          (SaveCall.afterCommit event outcome))
      else none
  | .failSave request event =>
      if (s.saves request).inFlight = some event then
        some ({ s with db := s.db.unlock (.save request) }.setSave request (.refused event .store))
      else none
  | .replay caller id =>
      if caller.Manual ∧ (s.replays caller).Free then some (s.setReplay caller (.begun id))
      else none
  | .replaySelect caller id =>
      if s.replays caller = .begun id then
        some (s.setReplay caller (s.db.selectForReplay id))
      else none
  -- UPDATE events ... WHERE id = ? AND status = 'failed': a row that does not match is neither
  -- waited for nor held, and nobody looks at the number of rows.
  | .replayResetEvent caller id eventType requestId payload now =>
      if s.replays caller = .selected id eventType requestId payload ∧ now ≤ s.clock ∧
          (s.db.status? id = some .failed → s.db.locks (.event id) = none) then
        let moved := decide (s.db.status? id = some .failed)
        some ({ s with
          db := if moved then s.db.lock (.replay caller) (.event id) else s.db }.setReplay caller
          (.eventReset
            { eventId := id
              eventType := eventType
              requestId := requestId
              payload := payload
              now := now
              moved := moved
              inserted := none }))
      else none
  | .replayReopenOutbox caller tx =>
      if s.replays caller = .eventReset tx ∧
          (s.db.outboxFor? tx.eventId ≠ none → s.db.locks (.outbox tx.eventId) = none) then
        some ({ s with
          db := if s.db.outboxFor? tx.eventId = none then s.db
            else s.db.lock (.replay caller) (.outbox tx.eventId) }.setReplay caller
          (if s.db.outboxFor? tx.eventId = none then .outboxMissing tx else .outboxReopened tx))
      else none
  | .replayInsertOutbox caller tx =>
      if s.replays caller = .outboxMissing tx ∧ s.db.outboxFor? tx.eventId = none ∧
          s.db.locks (.outbox tx.eventId) = none then
        some ({ s with
          db := { s.db.lock (.replay caller) (.outbox tx.eventId) with
            outboxSeq := s.db.outboxSeq + 1 } }.setReplay caller
          (.outboxReopened { tx with
            inserted := some (newOutboxRow s.db.outboxSeq tx.eventId tx.eventType tx.requestId
              tx.payload tx.now) }))
      else none
  | .replayMarkDeadLetter caller tx =>
      if s.replays caller = .outboxReopened tx ∧ s.db.locks (.deadLetter tx.eventId) = none then
        some ({ s with
          db := if s.db.deadLetter? tx.eventId = none then s.db
            else s.db.lock (.replay caller) (.deadLetter tx.eventId) }.setReplay caller
          (.deadLetterMarked tx))
      else none
  | .replayCommit caller tx error =>
      if s.replays caller = .deadLetterMarked tx then
        some ({ s with
          db := (s.db.commitReplay tx).unlock (.replay caller)
          history := { s.history with
            openings := bump s.history.openings tx.eventId
            replays := bump s.history.replays tx.eventId
            autoReplays :=
              if tx.moved = true ∧ ¬ caller.Manual then bump s.history.autoReplays tx.eventId
              else s.history.autoReplays } }.setReplay caller (ReplayCall.afterCommit tx error))
      else none
  | .replayFail caller id message =>
      if (s.replays caller).inFlight = some id then
        some ({ s with db := s.db.unlock (.replay caller) }.setReplay caller
          (.failed id (.store message)))
      else none
  | .claimPendingOutbox d limit now token order outcome =>
      let claimed := s.db.claimPendingOutbox limit config.outboxDispatchLease now token
      if s.dispatchers d = .idle ∧ now ≤ s.clock ∧ outcome.Effective ∧
          order.Perm (claimed.1.map OutboxRow.id) then
        let batch := if outcome = Outcome.ok then scanClaimed codec token claimed.1 order else none
        some ({ s with
          db := claimed.2
          history := { s.history with tokens := s.history.tokens ++ [token] } }.setDispatcher d
          (Dispatcher.loop now (batch.getD [])))
      else none
  | .publishConfirmed d claimedAt message rest body =>
      if s.dispatchers d = .publishing claimedAt message rest ∧
          codec.marshalEvent message.event = some body then
        let opening := s.history.openings message.event.id
        let sent : Message :=
          { messageId := message.event.id
            body := body
            opening := opening }
        some ({ s with
          ready := s.ready ++ [sent]
          history := { s.history with enqueued := s.history.enqueued ++ [sent] } }.setDispatcher d
          (.published claimedAt message opening rest))
      else none
  | .publishFailed d claimedAt message rest error =>
      if s.dispatchers d = .publishing claimedAt message rest then
        some (s.setDispatcher d (.rejected claimedAt message error))
      else none
  -- the broker took the message but the confirmation did not arrive
  | .publishUnconfirmed d claimedAt message rest body error =>
      if s.dispatchers d = .publishing claimedAt message rest ∧
          codec.marshalEvent message.event = some body then
        let sent : Message :=
          { messageId := message.event.id
            body := body
            opening := s.history.openings message.event.id }
        some ({ s with
          ready := s.ready ++ [sent]
          history := { s.history with enqueued := s.history.enqueued ++ [sent] } }.setDispatcher d
          (.rejected claimedAt message error))
      else none
  | .markOutboxPublished d claimedAt message opening rest now outcome =>
      if s.dispatchers d = .published claimedAt message opening rest ∧ now ≤ s.clock ∧
          (outcome.Effective → s.db.MarkFree message.id message.dispatchToken) then
        some ({ s with
          db := if outcome.Effective then
              s.db.markOutboxPublished message.id message.dispatchToken now
            else s.db }.setDispatcher d
          (if outcome = Outcome.ok ∧ s.db.Reserved message.id message.dispatchToken then
            Dispatcher.loop claimedAt rest
          else .idle))
      else none
  -- whatever MarkOutboxFailed answers, the loop is left
  | .markOutboxFailed d claimedAt message error outcome =>
      if s.dispatchers d = .rejected claimedAt message error ∧
          (outcome.Effective → s.db.MarkFree message.id message.dispatchToken) then
        some ({ s with
          db := if outcome.Effective then
              s.db.markOutboxFailed message.id message.dispatchToken error
            else s.db }.setDispatcher d .idle)
      else none
  | .crashDispatcher d => some (s.setDispatcher d .idle)
  -- forwardDeliveries decodes the body and hands the delivery to a worker
  | .deliver w index message event =>
      if s.workers w = Worker.idle ∧ s.ready[index]? = some message ∧
          codec.unmarshalEvent message.body = some event then
        some ({ s with ready := s.ready.eraseIdx index }.setWorker w
          { delivery := some message
            phase := .received event })
      else none
  | .rejectUndecodable index message =>
      if s.ready[index]? = some message ∧ codec.unmarshalEvent message.body = none then
        some { s with ready := s.ready.eraseIdx index }
      else none
  | .loseConnection w message =>
      if (s.workers w).delivery = some message then
        some ({ s with ready := s.ready ++ [message] }.setWorker w
          { s.workers w with delivery := none })
      else none
  | .claimForProcessing w event now outcome =>
      let matched := outcome.Effective ∧ s.db.ClaimMatches event.id config.processingLease now
      if (s.workers w).phase = .received event ∧ now ≤ s.clock ∧
          (matched → s.db.locks (.event event.id) = none) then
        let phase := afterClaim event now (s.history.claims event.id + 1) outcome
          (s.db.ClaimMatches event.id config.processingLease now)
        some ({ s with
          db := if matched then s.db.claimEvent event.id config.processingLease now else s.db
          history := { s.history with
            claims := if matched then bump s.history.claims event.id else s.history.claims
            attempted := s.history.attempted ++ phase.attempted } }.setPhase w phase)
      else none
  | .readClaimStatus w event outcome =>
      if (s.workers w).phase = .unclaimed event then
        some (s.setPhase w (.settling event
          (if outcome = Outcome.ok then
            settlementOf (s.history.openings event.id)
              (Database.claimResultOf (s.db.status? event.id))
          else .requeue)))
      else none
  -- one turn of the loop in processEventWithRetry
  | .processorReturns w claim attempt error =>
      if (s.workers w).phase = .attempting claim attempt then
        let phase := afterAttempt config claim attempt error
        some ({ s with
          history := { s.history with
            attempted := s.history.attempted ++ phase.attempted } }.setPhase w phase)
      else none
  | .markProcessed w claim attempt now outcome =>
      if (s.workers w).phase = .succeeded claim attempt ∧ now ≤ s.clock ∧
          (outcome.Effective → s.db.locks (.event claim.event.id) = none) then
        some ({ s with
          db := if outcome.Effective then s.db.markProcessed claim.event.id attempt now
            else s.db }.setPhase w (.returning claim (decide outcome.Effective)
          (if outcome = Outcome.ok then .ack (s.history.openings claim.event.id) else .requeue)))
      else none
  | .saveDeadLetter w claim attempt error payload now outcome =>
      if (s.workers w).phase = .exhausted claim attempt error ∧ now ≤ s.clock ∧
          (outcome.Effective → codec.marshal claim.event.payload = some payload ∧
            s.db.locks (.deadLetter claim.event.id) = none) then
        some ({ s with
          db := if outcome.Effective then s.db.saveDeadLetter claim.event payload error attempt now
            else s.db }.setPhase w
          (if outcome = Outcome.ok then .deadLettered claim attempt error
          else .returning claim false .requeue))
      else none
  | .markFailed w claim attempt error now outcome =>
      if (s.workers w).phase = .deadLettered claim attempt error ∧ now ≤ s.clock ∧
          (outcome.Effective → s.db.locks (.event claim.event.id) = none) then
        some ({ s with
          db := if outcome.Effective then s.db.markFailed claim.event.id attempt error now
            else s.db
          history := { s.history with
            failures :=
              if outcome.Effective ∧ s.db.status? claim.event.id ≠ some EventStatus.failed then
                bump s.history.failures claim.event.id
              else s.history.failures } }.setPhase w (.returning claim (decide outcome.Effective)
          (if outcome = Outcome.ok then .ack (s.history.openings claim.event.id) else .requeue)))
      else none
  -- the answer of its last statement arrives and processEventWithRetry returns
  | .returns w claim written settlement =>
      if (s.workers w).phase = .returning claim written settlement then
        some (s.setPhase w (.settling claim.event settlement))
      else none
  -- the settle call reaches the broker only over the connection that delivered the message
  | .settle w event settlement =>
      if (s.workers w).phase = .settling event settlement then
        some ({ s with
          ready :=
            if settlement = Settlement.requeue then s.ready ++ (s.workers w).delivery.toList
            else s.ready }.setWorker w Worker.idle)
      else none
  | .crashWorker w =>
      some ({ s with ready := s.ready ++ (s.workers w).delivery.toList }.setWorker w Worker.idle)
  | .claimRetryable n now order outcome =>
      let claimed := s.db.claimRetryableDeadLetterDetails 10 config.dlqAutoRetryMaxAttempts now
      if s.schedulers n = .idle ∧ now ≤ s.clock ∧ outcome.Effective ∧
          order.Perm (claimed.1.map RetryableDeadLetterDetail.eventId) then
        some ({ s with
          db := claimed.2
          history := { s.history with
            autoClaims := s.history.autoClaims ++ claimed.1 } }.setScheduler n
          (Scheduler.loop (if outcome = Outcome.ok then orderItems claimed.1 order else [])))
      else none
  | .schedulerReplay n item rest =>
      if s.schedulers n = .retrying item rest ∧ (s.replays (.scheduler n)).Free then
        some ((s.setReplay (.scheduler n) (.begun item.eventId)).setScheduler n
          (.replaying item rest))
      else none
  | .schedulerReplayed n item rest =>
      if s.schedulers n = .replaying item rest ∧
          s.replays (.scheduler n) = .succeeded item.eventId then
        some (s.setScheduler n (Scheduler.loop rest))
      else none
  | .schedulerReplayFailed n item rest error =>
      if s.schedulers n = .replaying item rest ∧
          s.replays (.scheduler n) = .failed item.eventId error then
        some (s.setScheduler n (.rescheduling item error rest))
      else none
  -- a failed reschedule is only logged; the loop goes on with the next item
  | .reschedule n item error rest now delay outcome =>
      if s.schedulers n = .rescheduling item error rest ∧ now ≤ s.clock ∧
          (outcome.Effective → s.db.locks (.deadLetter item.eventId) = none) then
        some ({ s with
          db := if outcome.Effective then
              s.db.rescheduleDeadLetterRetry item.eventId error.message (now + delay)
            else s.db }.setScheduler n (Scheduler.loop rest))
      else none
  | .crashScheduler n =>
      some (({ s with db := s.db.unlock (.replay (.scheduler n)) }.setReplay (.scheduler n)
        .idle).setScheduler n .idle)
  | .claimRetryableDeadLetters limit maxAttempts now =>
      if now ≤ s.clock then
        some { s with db := (s.db.claimRetryableDeadLetterDetails limit maxAttempts now).2 }
      else none
  | .rescheduleDeadLetterRetry id error now =>
      if now ≤ s.clock ∧ s.db.locks (.deadLetter id) = none then
        some { s with db := s.db.rescheduleDeadLetterRetry id error now }
      else none

/-- States of the service that some interleaving leads to from the empty database. -/
abbrev Reachable (state : System Payload) : Prop :=
  Transition.Reachable System.initial (step codec config) state

/-- States that some interleaving leads to whose steps all meet `allowed`. -/
abbrev ReachableVia (allowed : System Payload → Action Payload → System Payload → Prop)
    (state : System Payload) : Prop :=
  Transition.ReachableVia System.initial (step codec config) allowed state

end Step

end WebhookProcessor
