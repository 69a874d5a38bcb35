/-
Module: WebhookProcessor.Model.Process
Layer: Model
Purpose: The service process from the end of its startup to the return of `main`, as one transition
  function: the HTTP server, the loop of `OutboxDispatcher.run` with its `Publish` calls, the loop of
  `DLQRetryScheduler.run`, the queue with its workers, and the shutdown sequence of `main`.  The
  queue moves by `queueStep`; only the dispatcher calls `Publish`, and only `main` calls
  `StopConsuming` and `Close`.
Trusted boundary: as in `Model.Queue`; `sync.WaitGroup` and `http.Server.Shutdown`; a statement whose
  context is cancelled before it is answered fails; the two tickers have positive intervals.
Main exports: MainPhase, HttpServer, DispatchLoop, RetryLoop, Process, ProcessAction, processStep,
  ProcessReachable
-/
import WebhookProcessor.Model.Queue

namespace WebhookProcessor

/-- The call in which `main` stands once everything is started. -/
inductive MainPhase where
  /-- The select on `serverErrors` and `shutdownSignal`. -/
  | selecting
  /-- `server.Shutdown`. -/
  | shuttingDownServer
  /-- `dispatchers.Wait`. -/
  | waitingDispatchers
  /-- `StopConsuming`. -/
  | stoppingConsumption
  /-- `workers.Wait`. -/
  | waitingWorkers
  /-- `Close`. -/
  | closingQueue
  | returned
  /-- `os.Exit(1)` after an unexpected error of the server. -/
  | exited
deriving Repr, DecidableEq

/-- The process is over. -/
def MainPhase.Ended : MainPhase → Prop
  | .returned | .exited => True
  | _ => False

instance (phase : MainPhase) : Decidable phase.Ended :=
  match phase with
  | .returned | .exited => inferInstanceAs (Decidable True)
  | .selecting | .shuttingDownServer | .waitingDispatchers | .stoppingConsumption
  | .waitingWorkers | .closingQueue => inferInstanceAs (Decidable False)

/-! ### The HTTP server -/

/-- What `ListenAndServe` returns. -/
inductive ServerError where
  | serverClosed
  | other (cause : String)
deriving Repr, DecidableEq

/-- `server`: whether it takes new requests, what its goroutine sent on `serverErrors`, and the
number of handlers that are running. -/
structure HttpServer where
  accepting : Bool
  sent : Option ServerError
  inFlight : Nat
deriving Repr, DecidableEq

/-- `main` after it received an error of the server. -/
def MainPhase.afterServerError : ServerError → MainPhase
  | .serverClosed => .shuttingDownServer
  | .other _ => .exited

/-! ### The dispatcher and the scheduler -/

/-- The errors of `Publish`. -/
inductive PublishFailure where
  | marshal
  | queue (error : PublishError)
deriving Repr, DecidableEq

/-- Where `OutboxDispatcher.run` stands. -/
inductive DispatchLoop (Payload : Type) where
  /-- Before `ClaimPendingOutbox`. -/
  | claiming
  /-- Before the `Publish` of a claimed message. -/
  | publishing (message : OutboxMessage Payload) (rest : List (OutboxMessage Payload))
  /-- Inside that `Publish`, with `publishMu` taken. -/
  | awaiting (message : OutboxMessage Payload) (rest : List (OutboxMessage Payload))
  /-- Before `MarkOutboxPublished`. -/
  | marking (message : OutboxMessage Payload) (rest : List (OutboxMessage Payload))
  /-- Before `MarkOutboxFailed`. -/
  | markingFailed (message : OutboxMessage Payload) (error : PublishFailure)
  /-- The select on the context and the ticker. -/
  | selecting
  | returned
deriving Repr, DecidableEq

namespace DispatchLoop

variable {Payload : Type}

/-- The head of the loop over the claimed messages. -/
def loop : List (OutboxMessage Payload) → DispatchLoop Payload
  | [] => .selecting
  | message :: rest => .publishing message rest

/-- `DispatchPending` after `ClaimPendingOutbox`; its error is only logged. -/
def afterClaim : Option (List (OutboxMessage Payload)) → DispatchLoop Payload
  | none => .selecting
  | some messages => loop messages

/-- `DispatchPending` after `Publish`. -/
def afterPublish (message : OutboxMessage Payload) (rest : List (OutboxMessage Payload)) :
    Option PublishError → DispatchLoop Payload
  | none => .marking message rest
  | some error => .markingFailed message (.queue error)

/-- `DispatchPending` after `MarkOutboxPublished`: an error ends the batch. -/
def afterMark (rest : List (OutboxMessage Payload)) (marked : Bool) : DispatchLoop Payload :=
  if marked then loop rest else .selecting

end DispatchLoop

/-- Where `DLQRetryScheduler.run` stands. -/
inductive RetryLoop where
  | notStarted
  | retrying
  | selecting
  | returned
deriving Repr, DecidableEq

/-- `main` starts the scheduler if it is enabled, and `Start` does nothing without attempts. -/
def RetryLoop.start (config : LoadedConfig) : RetryLoop :=
  if config.dlqAutoRetryEnabled ∧ config.dlqAutoRetryMaxAttempts ≠ 0 then .retrying
  else .notStarted

/-- The scheduler does not keep `dispatchers.Wait` from returning. -/
def RetryLoop.Done (loop : RetryLoop) : Prop := loop = .notStarted ∨ loop = .returned

instance (loop : RetryLoop) : Decidable loop.Done := inferInstanceAs (Decidable (_ ∨ _))

/-! ### The transition function -/

structure Process (Payload : Type) where
  main : MainPhase
  server : HttpServer
  /-- `dispatcherContext.Err() != nil`. -/
  dispatcherCancelled : Bool
  dispatcher : DispatchLoop Payload
  scheduler : RetryLoop
  queue : EventQueue Payload

/-- Everything is started and nothing has happened. -/
def Process.initial {Payload : Type} (config : LoadedConfig) : Process Payload :=
  { main := .selecting
    server :=
      { accepting := true
        sent := none
        inFlight := 0 }
    dispatcherCancelled := false
    dispatcher := .claiming
    scheduler := RetryLoop.start config
    queue := EventQueue.initial }

inductive ProcessAction (Payload : Type) where
  -- the HTTP server
  | acceptRequest
  | answerRequest
  | listenReturns (error : ServerError)
  -- main
  | receiveServerError (error : ServerError)
  | receiveSignal
  | shutdownReturns (expired : Bool)
  | dispatchersDone
  | consumptionStopped
  | workersDone
  | closeReturned
  -- OutboxDispatcher.run
  | claim (answer : Option (List (OutboxMessage Payload)))
  | marshalFails (message : OutboxMessage Payload) (rest : List (OutboxMessage Payload))
  | publish (message : OutboxMessage Payload) (rest : List (OutboxMessage Payload))
  | publishReturns (message : OutboxMessage Payload) (rest : List (OutboxMessage Payload))
      (error : Option PublishError)
  | markPublished (message : OutboxMessage Payload) (rest : List (OutboxMessage Payload))
      (marked : Bool)
  | markFailed (message : OutboxMessage Payload) (error : PublishFailure)
  | pollTick
  | dispatcherStops
  -- DLQRetryScheduler.run
  | retryReturns
  | retryTick
  | schedulerStops
  -- the broker, the rest of a Publish or Close call, the consumer loop and the workers
  | queue (action : QueueAction Payload)

/-- The queue's own steps, as opposed to the calls that others make. -/
def QueueAction.Internal {Payload : Type} : QueueAction Payload → Prop
  | .publish | .publishReturns _ | .stopConsuming | .close => False
  | _ => True

instance {Payload : Type} (action : QueueAction Payload) : Decidable action.Internal :=
  match action with
  | .publish | .publishReturns _ | .stopConsuming | .close => .isFalse not_false
  | .dropConnection _ | .dropChannel _ | .checkPublisher | .invalidateChannel _ _
  | .invalidateConnection _ | .openPublisher _ _ | .send _ | .waitConfirmation _ | .checkContext
  | .openConsumer _ _ | .setConsumer _ _ | .receive _ _ _ | .deliveriesClosed _ _
  | .forwardCancelled _ _ | .handOff _ _ _ | .handOffCancelled _ _ _ | .afterForward _ _
  | .clearConsumer _ _ | .closeConsumerChannel _ _ _ | .closeConsumerConnection _ | .retryTimer
  | .retryCancelled | .closeEvents | .stopReturns | .closeStopped | .takeConsumer
  | .takePublisher _ | .closeHandle _ _ _ | .closeReturns | .take _ _ _ | .handle _ _ _ _ _
  | .stopWorker _ => .isTrue trivial

section Step

variable {Payload : Type} [DecidableEq Payload] (codec : Codec Payload) (config : LoadedConfig)
  (limits : QueueLimits) (s : Process Payload)

/-- A step of a process whose `main` has not ended. -/
def processMove : ProcessAction Payload → Option (Process Payload)
  | .acceptRequest =>
      if s.server.accepting then
        some { s with server := { s.server with inFlight := s.server.inFlight + 1 } }
      else none
  | .answerRequest =>
      if 0 < s.server.inFlight then
        some { s with server := { s.server with inFlight := s.server.inFlight - 1 } }
      else none
  -- ErrServerClosed only comes after Shutdown has closed the listener
  | .listenReturns error =>
      if s.server.sent = none ∧ (error = .serverClosed ↔ s.server.accepting = false) then
        some { s with
          server := { s.server with
            accepting := false
            sent := some error } }
      else none
  | .receiveServerError error =>
      if s.main = .selecting ∧ s.server.sent = some error then
        some { s with
          main := MainPhase.afterServerError error
          server := { s.server with accepting := false } }
      else none
  | .receiveSignal =>
      if s.main = .selecting then
        some { s with
          main := .shuttingDownServer
          server := { s.server with accepting := false } }
      else none
  -- Shutdown waits for the handlers or for its deadline; stopDispatcher follows at once
  | .shutdownReturns expired =>
      if s.main = .shuttingDownServer ∧ (s.server.inFlight = 0 ∨ expired) then
        some { s with
          main := .waitingDispatchers
          dispatcherCancelled := true }
      else none
  | .dispatchersDone =>
      if s.main = .waitingDispatchers ∧ s.dispatcher = .returned ∧ s.scheduler.Done then
        (queueStep codec config limits s.queue .stopConsuming).map fun queue =>
          { s with
            main := .stoppingConsumption
            queue := queue }
      else none
  | .consumptionStopped =>
      if s.main = .stoppingConsumption ∧ s.queue.stopOnce = .returned then
        some { s with main := .waitingWorkers }
      else none
  | .workersDone =>
      if s.main = .waitingWorkers ∧ ∀ w < limits.workerCount, s.queue.workers w = .stopped then
        (queueStep codec config limits s.queue .close).map fun queue =>
          { s with
            main := .closingQueue
            queue := queue }
      else none
  | .closeReturned =>
      if s.main = .closingQueue ∧ s.queue.closeOnce = .returned then
        some { s with main := .returned }
      else none
  | .claim answer =>
      if s.dispatcher = .claiming ∧ (answer ≠ none → s.dispatcherCancelled = false) then
        some { s with dispatcher := DispatchLoop.afterClaim answer }
      else none
  | .marshalFails message rest =>
      if s.dispatcher = .publishing message rest ∧ codec.marshalEvent message.event = none then
        some { s with dispatcher := .markingFailed message .marshal }
      else none
  | .publish message rest =>
      if s.dispatcher = .publishing message rest ∧ codec.marshalEvent message.event ≠ none then
        (queueStep codec config limits s.queue .publish).map fun queue =>
          { s with
            dispatcher := .awaiting message rest
            queue := queue }
      else none
  | .publishReturns message rest error =>
      if s.dispatcher = .awaiting message rest then
        (queueStep codec config limits s.queue (.publishReturns error)).map fun queue =>
          { s with
            dispatcher := DispatchLoop.afterPublish message rest error
            queue := queue }
      else none
  | .markPublished message rest marked =>
      if s.dispatcher = .marking message rest ∧ (marked → s.dispatcherCancelled = false) then
        some { s with dispatcher := DispatchLoop.afterMark rest marked }
      else none
  -- MarkOutboxFailed runs without the cancellation, and its answer is only logged
  | .markFailed message error =>
      if s.dispatcher = .markingFailed message error then
        some { s with dispatcher := .selecting }
      else none
  | .pollTick =>
      if s.dispatcher = .selecting then some { s with dispatcher := .claiming } else none
  | .dispatcherStops =>
      if s.dispatcher = .selecting ∧ s.dispatcherCancelled then
        some { s with dispatcher := .returned }
      else none
  | .retryReturns =>
      if s.scheduler = .retrying then some { s with scheduler := .selecting } else none
  | .retryTick =>
      if s.scheduler = .selecting then some { s with scheduler := .retrying } else none
  | .schedulerStops =>
      if s.scheduler = .selecting ∧ s.dispatcherCancelled then
        some { s with scheduler := .returned }
      else none
  | .queue action =>
      if action.Internal then
        (queueStep codec config limits s.queue action).map fun queue => { s with queue := queue }
      else none

/-- The transition function of the process; nothing happens after its end. -/
def processStep (action : ProcessAction Payload) : Option (Process Payload) :=
  if s.main.Ended then none else processMove codec config limits s action

/-- States of the process that some schedule leads to. -/
abbrev ProcessReachable (state : Process Payload) : Prop :=
  Transition.Reachable (Process.initial config) (processStep codec config limits) state

end Step

end WebhookProcessor
