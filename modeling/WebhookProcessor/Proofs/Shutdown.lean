/-
Module: WebhookProcessor.Proofs.Shutdown
Layer: Proofs
Purpose: The shutdown of the process.  `main` passes its waits in one order, and what it has waited
  for stays as it is: after `dispatchers.Wait` nobody publishes, after `StopConsuming` nothing is
  received, after `workers.Wait` nothing is settled, and `Close` comes last.  So the queue is used as
  its own guarantees require, whatever the broker and the database do.
Trusted boundary: as in `Model.Process`
Main exports: ControlKept, ProcessEffect, effect_of_step, Orderly, orderly, queue_reachable,
  main_returns_clean, close_comes_last, publishes_after_cancellation
-/
import WebhookProcessor.Model.Process
import WebhookProcessor.Proofs.Connections
import WebhookProcessor.Proofs.Settlement

namespace WebhookProcessor

open Transition

variable {Payload : Type}

/-! ### The queue's own steps -/

/-- What others have called is as it was, and what they have not called is not called. -/
structure ControlKept (s s' : EventQueue Payload) : Prop where
  publisher : s'.publisher = .idle ↔ s.publisher = .idle
  stopOnce : s'.stopOnce = s.stopOnce ∨ (s.stopOnce = .waiting ∧ s'.stopOnce = .returned)
  notClosed : s'.closeOnce = .notCalled ↔ s.closeOnce = .notCalled
  closed : s.closeOnce = .returned → s'.closeOnce = .returned

theorem ControlKept.of_same {s s' : EventQueue Payload} (publisher : s'.publisher = s.publisher)
    (stopOnce : s'.stopOnce = s.stopOnce) (closeOnce : s'.closeOnce = s.closeOnce) :
    ControlKept s s' := by
  constructor
  · rw [publisher]
  · exact Or.inl stopOnce
  · rw [closeOnce]
  · rw [closeOnce]
    exact id

/-- A step within a `Publish` call. -/
theorem ControlKept.of_publisher {s s' : EventQueue Payload} (before : s.publisher ≠ .idle)
    (after : s'.publisher ≠ .idle) (stopOnce : s'.stopOnce = s.stopOnce)
    (closeOnce : s'.closeOnce = s.closeOnce) : ControlKept s s' := by
  constructor
  · simp [before, after]
  · exact Or.inl stopOnce
  · rw [closeOnce]
  · rw [closeOnce]
    exact id

/-- A step within a `Close` call. -/
theorem ControlKept.of_close {s s' : EventQueue Payload} (publisher : s'.publisher = s.publisher)
    (stopOnce : s'.stopOnce = s.stopOnce) (before : s.closeOnce ≠ .notCalled)
    (unfinished : s.closeOnce ≠ .returned) (after : s'.closeOnce ≠ .notCalled) :
    ControlKept s s' := by
  constructor
  · rw [publisher]
  · exact Or.inl stopOnce
  · simp [before, after]
  · intro returned
    exact absurd returned unfinished

section Queue

variable [DecidableEq Payload] {codec : Codec Payload} {config : LoadedConfig}
  {limits : QueueLimits} {s s' : EventQueue Payload} {action : QueueAction Payload}

theorem controlKept_of_internal (internal : action.Internal)
    (taken : queueStep codec config limits s action = some s') : ControlKept s s' := by
  cases action
  all_goals
    simp only [queueStep, Option.ite_none_right_eq_some, Option.some.injEq] at taken
  case publish | publishReturns | stopConsuming | close => exact internal.elim
  case dropConnection | dropChannel =>
      cases taken
      exact .of_same rfl rfl rfl
  case checkPublisher =>
      obtain ⟨phase, rfl⟩ := taken
      refine .of_publisher (by simp [phase]) ?_ rfl rfl
      split <;> simp
  case invalidateChannel =>
      obtain ⟨phase, rfl⟩ := taken
      exact .of_publisher (by simp [phase]) (by simp) rfl rfl
  case invalidateConnection error =>
      obtain ⟨phase, rfl⟩ := taken
      refine .of_publisher (by simp [phase]) ?_ rfl rfl
      cases error <;> simp [Publisher.invalidated]
  case openPublisher opening answer =>
      obtain ⟨phase, rfl⟩ := taken
      cases (opening.advance ensurePublisherCalls s.amqp answer).2 <;>
        exact .of_publisher (by simp [phase]) (by simp [EventQueue.afterPublisherCall]) rfl rfl
  case send answer =>
      obtain ⟨phase, rfl⟩ := taken
      refine .of_publisher (by simp [phase]) ?_ rfl rfl
      cases answer <;> simp [Publisher.afterSend]
  case waitConfirmation answer =>
      obtain ⟨phase, rfl⟩ := taken
      refine .of_publisher (by simp [phase]) ?_ rfl rfl
      cases answer <;> simp [Publisher.afterWait]
  case receive =>
      obtain ⟨_, taken⟩ := taken
      split at taken
      all_goals
        cases taken
        exact .of_same rfl rfl rfl
  case handOff =>
      obtain ⟨_, taken⟩ := taken
      split at taken
      · cases taken
        exact .of_same rfl rfl rfl
      · obtain ⟨_, rfl⟩ := (Option.ite_none_right_eq_some.mp taken).imp id Option.some.inj
        exact .of_same rfl rfl rfl
  case stopReturns =>
      obtain ⟨⟨waiting, _⟩, rfl⟩ := taken
      exact
        { publisher := Iff.rfl
          stopOnce := Or.inr ⟨waiting, rfl⟩
          notClosed := Iff.rfl
          closed := id }
  case closeStopped =>
      obtain ⟨⟨phase, _⟩, rfl⟩ := taken
      exact .of_close rfl rfl (by simp [phase]) (by simp [phase]) (by simp)
  case takePublisher =>
      obtain ⟨⟨phase, _⟩, rfl⟩ := taken
      exact .of_close rfl rfl (by simp [phase]) (by simp [phase]) (by simp)
  case takeConsumer | closeHandle | closeReturns =>
      obtain ⟨phase, rfl⟩ := taken
      exact .of_close rfl rfl (by simp [phase]) (by simp [phase]) (by simp)
  all_goals
    obtain ⟨_, rfl⟩ := taken
    exact .of_same rfl rfl rfl

/-- A worker that has left its loop does not come back. -/
theorem stopped_of_step (taken : queueStep codec config limits s action = some s') {w : Nat}
    (stopped : s.workers w = .stopped) : s'.workers w = .stopped := by
  have effect := step_flow taken
  change s'.flow.workers w = .stopped
  generalize s'.flow = after at effect
  have apart : ∀ {v : Nat} {other new : PoolWorker Payload}, s.workers v = other →
      other ≠ .stopped → Function.update s.workers v new w = .stopped := by
    intro v other new here running
    have different : w ≠ v := by
      rintro rfl
      exact running (here.symm.trans stopped)
    rw [Function.update_of_ne different]
    exact stopped
  cases effect with
  | taken _ free => exact apart free (by simp)
  | handled _ holds => exact apart holds (by simp)
  | stopped _ free => exact apart free (by simp)
  | _ => exact stopped

/-- With the loop at its end and every worker stopped, nothing is received or settled. -/
theorem quiet_of_step (ended : s.consumeLoop = .returned) (stopped : s.AllStopped limits)
    (taken : queueStep codec config limits s action = some s') :
    s'.received = s.received ∧ s'.settled = s.settled := by
  have effect := step_flow taken
  have noHand : s.consumeLoop.hand = [] := by
    rw [ended]
    rfl
  change s'.flow.received = s.received ∧ s'.flow.settled = s.settled
  generalize s'.flow = after at effect
  cases effect with
  | rejected | accepted =>
      simp only [queueStep, Option.ite_none_right_eq_some] at taken
      cases ended.symm.trans taken.1
  | requeued held =>
      rw [noHand] at held
      cases held
  | handled worker holds => cases (stopped _ worker).symm.trans holds
  | _ => exact ⟨rfl, rfl⟩

end Queue

/-! ### What a step of the process does -/

namespace DispatchLoop

/-- Not inside `Publish`. -/
def Outside : DispatchLoop Payload → Prop
  | .awaiting _ _ => False
  | _ => True

/-- The dispatcher stands right before a `Publish` call. -/
def publishesLeft : DispatchLoop Payload → Nat
  | .publishing _ _ => 1
  | _ => 0

theorem outside_loop (messages : List (OutboxMessage Payload)) : (loop messages).Outside := by
  cases messages <;> trivial

end DispatchLoop

/-- The dispatcher calls `Publish`, which may fail before it takes the mutex. -/
def ProcessAction.isPublish : ProcessAction Payload → Bool
  | .publish _ _ | .marshalFails _ _ => true
  | _ => false

/-- A step of the dispatcher that neither enters nor leaves `publish` with its mutex. -/
structure DispatcherMoves (s : Process Payload) (next : DispatchLoop Payload) : Prop where
  before : s.dispatcher.Outside
  after : next.Outside
  running : s.dispatcher ≠ .returned
  /-- With a cancelled context it comes to no further `Publish`. -/
  bounded : s.dispatcherCancelled = true → next.publishesLeft = 0

inductive ProcessEffect [DecidableEq Payload] (codec : Codec Payload) (config : LoadedConfig)
    (limits : QueueLimits) (s : Process Payload) :
    ProcessAction Payload → Process Payload → Prop where
  | served {action : ProcessAction Payload} {server : HttpServer}
      (silent : action.isPublish = false) :
      ProcessEffect codec config limits s action { s with server := server }
  | failed {error : ServerError} {server : HttpServer} (phase : s.main = .selecting) :
      ProcessEffect codec config limits s (.receiveServerError error)
        { s with
          main := .exited
          server := server }
  | signalled {action : ProcessAction Payload} {server : HttpServer}
      (silent : action.isPublish = false) (phase : s.main = .selecting) :
      ProcessEffect codec config limits s action
        { s with
          main := .shuttingDownServer
          server := server }
  | serverDown {expired : Bool} (phase : s.main = .shuttingDownServer) :
      ProcessEffect codec config limits s (.shutdownReturns expired)
        { s with
          main := .waitingDispatchers
          dispatcherCancelled := true }
  | dispatchersDone (phase : s.main = .waitingDispatchers) (stopped : s.dispatcher = .returned)
      (done : s.scheduler.Done) :
      ProcessEffect codec config limits s .dispatchersDone
        { s with
          main := .stoppingConsumption
          queue := s.queue.stop }
  | consumptionStopped (phase : s.main = .stoppingConsumption)
      (stopped : s.queue.stopOnce = .returned) :
      ProcessEffect codec config limits s .consumptionStopped { s with main := .waitingWorkers }
  | workersDone (phase : s.main = .waitingWorkers) (stopped : s.queue.AllStopped limits)
      (first : s.queue.closeOnce = .notCalled) :
      ProcessEffect codec config limits s .workersDone
        { s with
          main := .closingQueue
          queue := { s.queue.stop with closeOnce := .stopping } }
  | closed (phase : s.main = .closingQueue) (returned : s.queue.closeOnce = .returned) :
      ProcessEffect codec config limits s .closeReturned { s with main := .returned }
  | dispatched {action : ProcessAction Payload} {next : DispatchLoop Payload}
      (called : action.isPublish = true → s.dispatcher.publishesLeft = 1)
      (moves : DispatcherMoves s next) :
      ProcessEffect codec config limits s action { s with dispatcher := next }
  | publishCalled {message : OutboxMessage Payload} {rest : List (OutboxMessage Payload)}
      (phase : s.dispatcher = .publishing message rest) (idle : s.queue.publisher = .idle) :
      ProcessEffect codec config limits s (.publish message rest)
        { s with
          dispatcher := .awaiting message rest
          queue := { s.queue with publisher := .checking } }
  | publishReturned {message : OutboxMessage Payload} {rest : List (OutboxMessage Payload)}
      {error : Option PublishError} (phase : s.dispatcher = .awaiting message rest)
      (returning : s.queue.publisher = .returning error) :
      ProcessEffect codec config limits s (.publishReturns message rest error)
        { s with
          dispatcher := DispatchLoop.afterPublish message rest error
          queue := { s.queue with publisher := .idle } }
  | scheduled {action : ProcessAction Payload} {next : RetryLoop}
      (silent : action.isPublish = false) (running : ¬ s.scheduler.Done) :
      ProcessEffect codec config limits s action { s with scheduler := next }
  | queueMoved {action : QueueAction Payload} {queue : EventQueue Payload}
      (internal : action.Internal)
      (taken : queueStep codec config limits s.queue action = some queue) :
      ProcessEffect codec config limits s (.queue action) { s with queue := queue }

section Process

variable [DecidableEq Payload] {codec : Codec Payload} {config : LoadedConfig}
  {limits : QueueLimits} {s s' : Process Payload} {action : ProcessAction Payload}

theorem ProcessEffect.dispatched_of_silent {next : DispatchLoop Payload}
    (silent : action.isPublish = false) (moves : DispatcherMoves s next) :
    ProcessEffect codec config limits s action { s with dispatcher := next } := by
  apply ProcessEffect.dispatched _ moves
  intro called
  rw [silent] at called
  cases called

theorem effect_of_move (taken : processMove codec config limits s action = some s') :
    ProcessEffect codec config limits s action s' := by
  cases action
  all_goals
    simp only [processMove, queueStep, Option.ite_none_right_eq_some, Option.some.injEq,
      Option.map_eq_some_iff] at taken
  case acceptRequest | answerRequest | listenReturns =>
      obtain ⟨_, rfl⟩ := taken
      exact .served rfl
  case receiveServerError error =>
      obtain ⟨⟨phase, _⟩, rfl⟩ := taken
      cases error with
      | serverClosed => exact .signalled rfl phase
      | other => exact .failed phase
  case receiveSignal =>
      obtain ⟨phase, rfl⟩ := taken
      exact .signalled rfl phase
  case shutdownReturns =>
      obtain ⟨⟨phase, _⟩, rfl⟩ := taken
      exact .serverDown phase
  case dispatchersDone =>
      obtain ⟨⟨phase, stopped, done⟩, queue, rfl, rfl⟩ := taken
      exact .dispatchersDone phase stopped done
  case consumptionStopped =>
      obtain ⟨⟨phase, stopped⟩, rfl⟩ := taken
      exact .consumptionStopped phase stopped
  case workersDone =>
      obtain ⟨⟨phase, stopped⟩, queue, ⟨first, rfl⟩, rfl⟩ := taken
      exact .workersDone phase stopped first
  case closeReturned =>
      obtain ⟨⟨phase, returned⟩, rfl⟩ := taken
      exact .closed phase returned
  case claim answer =>
      obtain ⟨⟨phase, alive⟩, rfl⟩ := taken
      refine .dispatched_of_silent rfl
        { before := by rw [phase]; trivial
          after := ?_
          running := by simp [phase]
          bounded := ?_ }
      · cases answer with
        | none => trivial
        | some messages => exact DispatchLoop.outside_loop messages
      · intro cancelled
        cases answer with
        | none => rfl
        | some messages => simp [cancelled] at alive
  case marshalFails =>
      obtain ⟨⟨phase, _⟩, rfl⟩ := taken
      exact .dispatched (fun _ => by rw [phase]; rfl)
        { before := by rw [phase]; trivial
          after := trivial
          running := by simp [phase]
          bounded := fun _ => rfl }
  case publish =>
      obtain ⟨⟨phase, _⟩, queue, ⟨idle, rfl⟩, rfl⟩ := taken
      exact .publishCalled phase idle
  case publishReturns =>
      obtain ⟨phase, queue, ⟨returning, rfl⟩, rfl⟩ := taken
      exact .publishReturned phase returning
  case markPublished rest marked =>
      obtain ⟨⟨phase, alive⟩, rfl⟩ := taken
      refine .dispatched_of_silent rfl
        { before := by rw [phase]; trivial
          after := ?_
          running := by simp [phase]
          bounded := ?_ }
      · cases marked with
        | false => trivial
        | true => exact DispatchLoop.outside_loop rest
      · intro cancelled
        cases marked with
        | false => rfl
        | true => simp [cancelled] at alive
  case markFailed | pollTick =>
      obtain ⟨phase, rfl⟩ := taken
      exact .dispatched_of_silent rfl
        { before := by rw [phase]; trivial
          after := trivial
          running := by simp [phase]
          bounded := fun _ => rfl }
  case dispatcherStops =>
      obtain ⟨⟨phase, _⟩, rfl⟩ := taken
      exact .dispatched_of_silent rfl
        { before := by rw [phase]; trivial
          after := trivial
          running := by simp [phase]
          bounded := fun _ => rfl }
  case retryReturns | retryTick =>
      obtain ⟨phase, rfl⟩ := taken
      exact .scheduled rfl (by simp [RetryLoop.Done, phase])
  case schedulerStops =>
      obtain ⟨⟨phase, _⟩, rfl⟩ := taken
      exact .scheduled rfl (by simp [RetryLoop.Done, phase])
  case queue action =>
      obtain ⟨internal, queue, moved, rfl⟩ := taken
      exact .queueMoved internal moved

theorem effect_of_step (taken : processStep codec config limits s action = some s') :
    ¬ s.main.Ended ∧ ProcessEffect codec config limits s action s' := by
  unfold processStep at taken
  split at taken
  · cases taken
  · exact ⟨‹_›, effect_of_move taken⟩

end Process

/-! ### The order of the shutdown -/

namespace MainPhase

/-- `main` has called `stopDispatcher`. -/
def PastServer : MainPhase → Prop
  | .selecting | .shuttingDownServer | .exited => False
  | _ => True

/-- `dispatchers.Wait` has returned. -/
def PastDispatchers : MainPhase → Prop
  | .stoppingConsumption | .waitingWorkers | .closingQueue | .returned => True
  | _ => False

/-- `StopConsuming` has returned. -/
def PastConsumption : MainPhase → Prop
  | .waitingWorkers | .closingQueue | .returned => True
  | _ => False

/-- `workers.Wait` has returned. -/
def PastWorkers : MainPhase → Prop
  | .closingQueue | .returned => True
  | _ => False

theorem PastConsumption.pastDispatchers {phase : MainPhase} (past : phase.PastConsumption) :
    phase.PastDispatchers := by
  cases phase <;> trivial

theorem PastWorkers.pastConsumption {phase : MainPhase} (past : phase.PastWorkers) :
    phase.PastConsumption := by
  cases phase <;> trivial

end MainPhase

/-- What `main` has waited for stays as it was, and what it has not called yet is not called. -/
structure Orderly (limits : QueueLimits) (s : Process Payload) : Prop where
  publisher : s.queue.publisher = .idle ↔ s.dispatcher.Outside
  cancelled : s.main.PastServer → s.dispatcherCancelled = true
  dispatchers : s.main.PastDispatchers → s.dispatcher = .returned ∧ s.scheduler.Done
  stopCalled : s.main.PastDispatchers → s.queue.stopOnce ≠ .notCalled
  stopReturned : s.main.PastConsumption → s.queue.stopOnce = .returned
  workers : s.main.PastWorkers → s.queue.AllStopped limits
  closeCalled : s.queue.closeOnce ≠ .notCalled ↔ s.main.PastWorkers
  closed : s.main = .returned → s.queue.closeOnce = .returned

theorem Orderly.initial (config : LoadedConfig) (limits : QueueLimits) :
    Orderly limits (Process.initial config : Process Payload) := by
  constructor
  · exact iff_of_true rfl trivial
  · exact False.elim
  · exact False.elim
  · exact False.elim
  · exact False.elim
  · exact False.elim
  · exact iff_of_false (by simp [Process.initial, EventQueue.initial]) id
  · intro returned
    cases returned

theorem stopOnce_stop (s : EventQueue Payload) : s.stop.stopOnce ≠ .notCalled := by
  unfold EventQueue.stop
  split
  · simp
  · assumption

theorem publisher_stop (s : EventQueue Payload) : s.stop.publisher = s.publisher := by
  unfold EventQueue.stop
  split <;> rfl

theorem closeOnce_stop (s : EventQueue Payload) : s.stop.closeOnce = s.closeOnce := by
  unfold EventQueue.stop
  split <;> rfl

theorem stop_of_called {s : EventQueue Payload} (called : s.stopOnce ≠ .notCalled) :
    s.stop = s := by
  unfold EventQueue.stop
  rw [if_neg called]

section Process

variable [DecidableEq Payload] {codec : Codec Payload} {config : LoadedConfig}
  {limits : QueueLimits} {s s' : Process Payload} {action : ProcessAction Payload}

namespace Orderly

variable (orderly : Orderly limits s)

include orderly

omit [DecidableEq Payload] in
theorem notClosed (early : ¬ s.main.PastWorkers) : s.queue.closeOnce = .notCalled := by
  by_contra called
  exact early (orderly.closeCalled.mp called)

omit [DecidableEq Payload] in
/-- A dispatcher that has not returned is before `dispatchers.Wait`. -/
theorem beforeWait (running : s.dispatcher ≠ .returned) : ¬ s.main.PastDispatchers :=
  fun past => running (orderly.dispatchers past).1

omit [DecidableEq Payload] in
/-- A step of `main` that only the named phases can be at the end of. -/
theorem of_early {next : Process Payload} (queue : next.queue = s.queue)
    (dispatcher : next.dispatcher = s.dispatcher) (before : ¬ s.main.PastDispatchers)
    (after : ¬ next.main.PastDispatchers)
    (cancelled : next.main.PastServer → next.dispatcherCancelled = true) :
    Orderly limits next := by
  have notPast : ¬ s.main.PastWorkers := fun past => before past.pastConsumption.pastDispatchers
  have closeOnce := orderly.notClosed notPast
  constructor
  · rw [queue, dispatcher]
    exact orderly.publisher
  · exact cancelled
  · exact fun past => absurd past after
  · exact fun past => absurd past after
  · exact fun past => absurd past.pastDispatchers after
  · exact fun past => absurd past.pastConsumption.pastDispatchers after
  · rw [queue]
    exact iff_of_false (by simp [closeOnce])
      fun past => after past.pastConsumption.pastDispatchers
  · intro returned
    rw [returned] at after
    exact absurd trivial after

/-- A step of the queue's own changes nothing of the order. -/
theorem of_queueMoved {move : QueueAction Payload} {queue : EventQueue Payload}
    (internal : move.Internal) (taken : queueStep codec config limits s.queue move = some queue) :
    Orderly limits { s with queue := queue } := by
  have kept := controlKept_of_internal internal taken
  constructor
  · exact kept.publisher.trans orderly.publisher
  · exact orderly.cancelled
  · exact orderly.dispatchers
  · intro past
    rcases kept.stopOnce with same | ⟨_, returned⟩
    · rw [same]
      exact orderly.stopCalled past
    · simp [returned]
  · intro past
    rcases kept.stopOnce with same | ⟨_, returned⟩
    · rw [same]
      exact orderly.stopReturned past
    · exact returned
  · intro past w worker
    exact stopped_of_step taken (orderly.workers past w worker)
  · exact (not_congr kept.notClosed).trans orderly.closeCalled
  · intro returned
    exact kept.closed (orderly.closed returned)

omit [DecidableEq Payload] in
/-- A step of the dispatcher, together with what it changes in the publisher. -/
theorem of_dispatcher {next : DispatchLoop Payload} {publisher : Publisher}
    (running : s.dispatcher ≠ .returned) (matched : publisher = .idle ↔ next.Outside) :
    Orderly limits
      { s with
        dispatcher := next
        queue := { s.queue with publisher := publisher } } := by
  have early := orderly.beforeWait running
  exact
    { publisher := matched
      cancelled := orderly.cancelled
      dispatchers := fun past => absurd past early
      stopCalled := orderly.stopCalled
      stopReturned := orderly.stopReturned
      workers := orderly.workers
      closeCalled := orderly.closeCalled
      closed := orderly.closed }

theorem of_effect (effect : ProcessEffect codec config limits s action s') :
    Orderly limits s' := by
  cases effect with
  | served =>
      exact
        { publisher := orderly.publisher
          cancelled := orderly.cancelled
          dispatchers := orderly.dispatchers
          stopCalled := orderly.stopCalled
          stopReturned := orderly.stopReturned
          workers := orderly.workers
          closeCalled := orderly.closeCalled
          closed := orderly.closed }
  | failed phase => exact orderly.of_early rfl rfl (by rw [phase]; exact id) id False.elim
  | signalled _ phase => exact orderly.of_early rfl rfl (by rw [phase]; exact id) id False.elim
  | serverDown phase => exact orderly.of_early rfl rfl (by rw [phase]; exact id) id fun _ => rfl
  | dispatchersDone phase stopped done =>
      have closeOnce : s.queue.closeOnce = .notCalled := orderly.notClosed (by rw [phase]; exact id)
      constructor
      · exact (iff_of_eq (congrArg (· = Publisher.idle) (publisher_stop s.queue))).trans
          orderly.publisher
      · exact fun _ => orderly.cancelled (by rw [phase]; trivial)
      · exact fun _ => ⟨stopped, done⟩
      · exact fun _ => stopOnce_stop s.queue
      · exact False.elim
      · exact False.elim
      · exact iff_of_false (by simp [closeOnce_stop, closeOnce]) id
      · intro returned
        cases returned
  | consumptionStopped phase stopped =>
      have closeOnce : s.queue.closeOnce = .notCalled := orderly.notClosed (by rw [phase]; exact id)
      constructor
      · exact orderly.publisher
      · exact fun _ => orderly.cancelled (by rw [phase]; trivial)
      · exact fun _ => orderly.dispatchers (by rw [phase]; trivial)
      · exact fun _ => by simp [stopped]
      · exact fun _ => stopped
      · exact False.elim
      · exact iff_of_false (by simp [closeOnce]) id
      · intro returned
        cases returned
  | workersDone phase stopped =>
      have past : s.main.PastConsumption := by
        rw [phase]
        trivial
      have stopReturned := orderly.stopReturned past
      have same : s.queue.stop = s.queue := stop_of_called (by simp [stopReturned])
      rw [same]
      constructor
      · exact orderly.publisher
      · exact fun _ => orderly.cancelled (by rw [phase]; trivial)
      · exact fun _ => orderly.dispatchers past.pastDispatchers
      · exact fun _ => by simp [stopReturned]
      · exact fun _ => stopReturned
      · exact fun _ => stopped
      · exact iff_of_true (by simp) trivial
      · intro returned
        cases returned
  | closed phase returned =>
      have past : s.main.PastWorkers := by
        rw [phase]
        trivial
      constructor
      · exact orderly.publisher
      · exact fun _ => orderly.cancelled (by rw [phase]; trivial)
      · exact fun _ => orderly.dispatchers past.pastConsumption.pastDispatchers
      · exact fun _ => orderly.stopCalled past.pastConsumption.pastDispatchers
      · exact fun _ => orderly.stopReturned past.pastConsumption
      · exact fun _ => orderly.workers past
      · exact iff_of_true (by simp [returned]) trivial
      · exact fun _ => returned
  | dispatched _ moves =>
      exact orderly.of_dispatcher moves.running
        (iff_of_true (orderly.publisher.mpr moves.before) moves.after)
  | publishCalled phase =>
      exact orderly.of_dispatcher (by simp [phase]) (iff_of_false (by simp) id)
  | @publishReturned message rest error phase =>
      refine orderly.of_dispatcher (by simp [phase]) (iff_of_true rfl ?_)
      cases error <;> trivial
  | scheduled _ running =>
      have early : ¬ s.main.PastDispatchers := fun past => running (orderly.dispatchers past).2
      exact orderly.of_early rfl rfl early early orderly.cancelled
  | queueMoved internal taken => exact orderly.of_queueMoved internal taken

end Orderly

theorem orderly (reached : ProcessReachable codec config limits s) : Orderly limits s := by
  refine reached.invariant ?_ ?_
  · exact Orderly.initial config limits
  · intro before action after _ kept taken _
    exact kept.of_effect (effect_of_step taken).2

/-- The queue of a process moves by its own transition function. -/
def QueueSound (codec : Codec Payload) (config : LoadedConfig) (limits : QueueLimits)
    (s : Process Payload) : Prop :=
  QueueReachableVia codec config limits PublishBeforeClose s.queue

theorem QueueSound.of_effect (sound : QueueSound codec config limits s)
    (inOrder : Orderly limits s) (effect : ProcessEffect codec config limits s action s') :
    QueueSound codec config limits s' := by
  cases effect with
  | dispatchersDone =>
      have call : queueStep codec config limits s.queue .stopConsuming = some s.queue.stop := rfl
      exact sound.step call trivial
  | workersDone _ _ first =>
      have call : queueStep codec config limits s.queue .close =
          some { s.queue.stop with closeOnce := .stopping } := if_pos first
      exact sound.step call trivial
  | publishCalled phase idle =>
      have call : queueStep codec config limits s.queue .publish =
          some { s.queue with publisher := .checking } := if_pos idle
      -- the dispatcher still runs, so `main` has not come to its `Close`
      have early := inOrder.beforeWait (by simp [phase])
      have notCalled := inOrder.notClosed fun past => early past.pastConsumption.pastDispatchers
      refine sound.step call ?_
      change ¬ s.queue.closeOnce.PublisherTaken
      rw [notCalled]
      exact id
  | @publishReturned _ _ error _ returning =>
      have call : queueStep codec config limits s.queue (.publishReturns error) =
          some { s.queue with publisher := .idle } := if_pos returning
      exact sound.step call trivial
  | @queueMoved move _ internal taken =>
      refine sound.step taken ?_
      cases move with
      | publish => exact internal.elim
      | _ => trivial
  | _ => exact sound

/-- As the process uses it, the queue sees no `Publish` after `Close`. -/
theorem queue_reachable (reached : ProcessReachable codec config limits s) :
    QueueSound codec config limits s := by
  refine reached.invariant ?_ ?_
  · exact ReachableVia.start
  · intro before action after earlier sound taken _
    exact sound.of_effect (orderly earlier) (effect_of_step taken).2

/-! ### What the shutdown leaves behind -/

/-- When `main` returns, every goroutine that it started has returned, every connection ever opened
is closed, and every delivery ever received has got its one settle call, the right one. -/
theorem main_returns_clean (reached : ProcessReachable codec config limits s)
    (returned : s.main = .returned) :
    s.dispatcher = .returned ∧ s.scheduler.Done ∧ s.queue.consumeLoop = .returned ∧
      s.queue.AllStopped limits ∧ s.queue.publisher = .idle ∧ s.queue.events = [] ∧
      s.queue.panicked = false ∧
      (∀ connection < s.queue.amqp.dialled, connection ∉ s.queue.amqp.openConnections) ∧
      ∀ delivery ∈ s.queue.received, ∃ entry, s.queue.settlesOf delivery = [entry] ∧
        SettledRightly codec s.queue delivery entry := by
  have inOrder := orderly reached
  have past : s.main.PastWorkers := by
    rw [returned]
    trivial
  have sound := queue_reachable reached
  have linked : Linked s.queue.links := queueLinked sound
  have channel := channelSound sound.reachable
  obtain ⟨dispatcher, scheduler⟩ := inOrder.dispatchers past.pastConsumption.pastDispatchers
  have stopped := inOrder.workers past
  have drained := channel.drained 0 (stopped 0 limits.workerCountPositive)
  refine ⟨dispatcher, scheduler, channel.closed.mp drained.1, stopped, ?_, drained.2,
    channel.unpanicked, ?_, ?_⟩
  · rw [inOrder.publisher, dispatcher]
    trivial
  · intro connection _
    exact linked.closed_of_returned (inOrder.closed returned) connection
  · intro delivery member
    have inv := conserved sound.reachable
    rcases inv.inProgress_or_settled member with ⟨progress, _⟩ | ⟨_, once⟩
    · exact absurd progress (stopped.not_inProgress channel delivery)
    · obtain ⟨entry, only⟩ := List.length_eq_one_iff.mp once
      exact ⟨entry, only, settledRightly_of_entry inv (fitting sound.reachable) member only⟩

end Process

/-- The consumer is connected, one message is published and one delivery handed to a worker when the
signal comes. -/
def busyRun : List (ProcessAction String) :=
  (openConsumerCallsOn 0 (Sample.channel 0)).map .queue ++
    [.claim (some [Sample.outboxMessage]),
      .publish Sample.outboxMessage []] ++
    (publishCallsOn 1 (Sample.channel 1)).tail.dropLast.map .queue ++
    [.publishReturns Sample.outboxMessage [] none,
      .markPublished Sample.outboxMessage [] true,
      .queue (.receive 0 (Sample.channel 0) Sample.body),
      .queue (.handOff 0 (Sample.channel 0) (Sample.delivered 0)),
      .queue (.take 0 (Sample.delivered 0) []),
      .receiveSignal]

/-- The rest of the shutdown up to the call of `Close`. -/
def stoppedRun : List (ProcessAction String) :=
  busyRun ++
    [.shutdownReturns false,
      .dispatcherStops,
      .dispatchersDone,
      .queue (.forwardCancelled 0 (Sample.channel 0)),
      .queue (.afterForward 0 (Sample.channel 0)),
      .queue .closeEvents,
      .queue .stopReturns,
      .consumptionStopped,
      .queue (.handle 0 (Sample.delivered 0) (Answers.quiet 0 fun _ => none) Database.empty
        Metrics.new),
      .queue (.stopWorker 0),
      .workersDone]

/-- `Close` and the return of `main`. -/
def closeActions : List (ProcessAction String) :=
  [.queue .closeStopped,
    .queue .takeConsumer,
    .queue (.takePublisher [.channel (some (Sample.channel 0)), .connection (some 0)]),
    .queue (.closeHandle (.channel (some (Sample.channel 0)))
      [.connection (some 0), .channel (some (Sample.channel 1)), .connection (some 1)] none),
    .queue (.closeHandle (.connection (some 0))
      [.channel (some (Sample.channel 1)), .connection (some 1)] none),
    .queue (.closeHandle (.channel (some (Sample.channel 1))) [.connection (some 1)] none),
    .queue (.closeHandle (.connection (some 1)) [] none),
    .queue .closeReturns,
    .closeReturned]

set_option maxRecDepth 4000 in
theorem main_returns_clean_of_busyRun :
    ∃ s, run (processStep Codec.text (readConfig fun _ => none) Sample.limits)
        (Process.initial (readConfig fun _ => none)) (stoppedRun ++ closeActions) = some s ∧
      s.queue.amqp.dialled = 2 ∧ s.queue.received.length = 1 ∧
      (∀ connection < s.queue.amqp.dialled, connection ∉ s.queue.amqp.openConnections) ∧
      ∀ delivery ∈ s.queue.received, ∃ entry, s.queue.settlesOf delivery = [entry] ∧
        SettledRightly Codec.text s.queue delivery entry := by
  have ran : (run (processStep Codec.text (readConfig fun _ => none) Sample.limits)
      (Process.initial (readConfig fun _ => none)) (stoppedRun ++ closeActions)).map (fun s =>
        (s.main, s.queue.amqp.dialled, s.queue.received.length)) = some (.returned, 2, 1) := by
    decide +kernel
  obtain ⟨s, reaches, all⟩ := Option.map_eq_some_iff.mp ran
  obtain ⟨returned, both⟩ := Prod.mk.inj all
  obtain ⟨dialled, received⟩ := Prod.mk.inj both
  have clean := main_returns_clean (Reachable.of_run reaches) returned
  exact ⟨s, reaches, dialled, received, clean.2.2.2.2.2.2.2⟩

section Process

variable [DecidableEq Payload] {codec : Codec Payload} {config : LoadedConfig}
  {limits : QueueLimits} {s s' : Process Payload} {action : ProcessAction Payload}

/-- `main` is inside `Close` or has returned, with the given deliveries received and settled. -/
structure Closing (codec : Codec Payload) (config : LoadedConfig) (limits : QueueLimits)
    (received : List AmqpDelivery) (settled : List SettleEntry) (s : Process Payload) : Prop where
  reached : ProcessReachable codec config limits s
  past : s.main.PastWorkers
  received : s.queue.received = received
  settled : s.queue.settled = settled

variable {received : List AmqpDelivery} {settled : List SettleEntry}

/-- Everything that could still use the queue has returned. -/
theorem Closing.at_rest (closing : Closing codec config limits received settled s) :
    s.dispatcher = .returned ∧ s.queue.publisher = .idle ∧ s.queue.consumeLoop = .returned ∧
      s.queue.AllStopped limits := by
  have inOrder := orderly closing.reached
  have channel := channelSound (queue_reachable closing.reached).reachable
  have dispatcher := (inOrder.dispatchers closing.past.pastConsumption.pastDispatchers).1
  have stopped := inOrder.workers closing.past
  have drained := channel.drained 0 (stopped 0 limits.workerCountPositive)
  refine ⟨dispatcher, ?_, channel.closed.mp drained.1, stopped⟩
  rw [inOrder.publisher, dispatcher]
  trivial

theorem Closing.of_step (closing : Closing codec config limits received settled s)
    (taken : processStep codec config limits s action = some s') :
    Closing codec config limits received settled s' := by
  have reached := closing.reached.step taken trivial
  obtain ⟨dispatcher, _, ended, stopped⟩ := closing.at_rest
  have late : ∀ {phase : MainPhase}, s.main = phase → phase.PastWorkers := by
    rintro _ rfl
    exact closing.past
  cases (effect_of_step taken).2 with
  | served | scheduled => exact ⟨reached, closing.past, closing.received, closing.settled⟩
  | closed => exact ⟨reached, trivial, closing.received, closing.settled⟩
  | queueMoved _ moved =>
      obtain ⟨sameReceived, sameSettled⟩ := quiet_of_step ended stopped moved
      exact ⟨reached, closing.past, sameReceived.trans closing.received,
        sameSettled.trans closing.settled⟩
  | dispatched _ moves => exact absurd dispatcher moves.running
  | publishCalled phase | publishReturned phase => cases phase.symm.trans dispatcher
  | failed phase | signalled _ phase | serverDown phase | dispatchersDone phase
  | consumptionStopped phase | workersDone phase => exact (late phase).elim

/-- Once `Close` is called, the dispatcher, the consumer loop and the workers have returned, no
`Publish` is under way, and nothing is published, received or settled any more. -/
theorem close_comes_last (reached : ProcessReachable codec config limits s)
    (called : s.queue.closeOnce ≠ .notCalled) {actions : List (ProcessAction Payload)}
    {final : Process Payload} (ran : run (processStep codec config limits) s actions = some final) :
    (final.dispatcher = .returned ∧ final.queue.publisher = .idle ∧
        final.queue.consumeLoop = .returned ∧ final.queue.AllStopped limits) ∧
      final.queue.received = s.queue.received ∧ final.queue.settled = s.queue.settled := by
  have start : Closing codec config limits s.queue.received s.queue.settled s :=
    { reached := reached
      past := (orderly reached).closeCalled.mp called
      received := rfl
      settled := rfl }
  have ends : Closing codec config limits s.queue.received s.queue.settled final := by
    apply run_invariant _ _ start ran
    intro before action after _ taken closing
    exact closing.of_step taken
  exact ⟨ends.at_rest, ends.received, ends.settled⟩

end Process

set_option maxRecDepth 4000 in
theorem close_comes_last_of_stoppedRun :
    ∃ s final, run (processStep Codec.text (readConfig fun _ => none) Sample.limits)
        (Process.initial (readConfig fun _ => none)) stoppedRun = some s ∧
      run (processStep Codec.text (readConfig fun _ => none) Sample.limits) s closeActions =
        some final ∧
      s.queue.closeOnce = .stopping ∧ final.queue.settled = s.queue.settled := by
  have first : (run (processStep Codec.text (readConfig fun _ => none) Sample.limits)
      (Process.initial (readConfig fun _ => none)) stoppedRun).map (fun s => s.queue.closeOnce) =
        some .stopping := by
    decide +kernel
  have whole : (run (processStep Codec.text (readConfig fun _ => none) Sample.limits)
      (Process.initial (readConfig fun _ => none)) (stoppedRun ++ closeActions)).isSome := by
    decide +kernel
  obtain ⟨s, reaches, called⟩ := Option.map_eq_some_iff.mp first
  obtain ⟨final, finishes⟩ := Option.isSome_iff_exists.mp whole
  rw [run_append, reaches, Option.bind_some] at finishes
  have last := close_comes_last (Reachable.of_run reaches) (by simp [called]) finishes
  exact ⟨s, final, reaches, finishes, called, last.2.2⟩

/-! ### The dispatcher after its context is cancelled -/

section Process

variable [DecidableEq Payload] {codec : Codec Payload} {config : LoadedConfig}
  {limits : QueueLimits} {s s' : Process Payload} {action : ProcessAction Payload}

theorem cancelled_of_processStep (taken : processStep codec config limits s action = some s')
    (cancelled : s.dispatcherCancelled = true) : s'.dispatcherCancelled = true := by
  cases (effect_of_step taken).2 with
  | serverDown => rfl
  | _ => exact cancelled

/-- With a cancelled context, a `Publish` is the only one that was still to come. -/
theorem publishesLeft_of_step (taken : processStep codec config limits s action = some s')
    (cancelled : s.dispatcherCancelled = true) :
    (if action.isPublish then 1 else 0) + s'.dispatcher.publishesLeft ≤
      s.dispatcher.publishesLeft := by
  cases (effect_of_step taken).2 with
  | served silent | signalled silent | scheduled silent => simp [silent]
  | dispatched called moves =>
      rw [moves.bounded cancelled]
      split
      · rename_i publishes
        rw [called publishes]
      · exact Nat.zero_le _
  | publishCalled phase => simp [phase, ProcessAction.isPublish, DispatchLoop.publishesLeft]
  | @publishReturned _ _ error =>
      cases error <;> simp [ProcessAction.isPublish, DispatchLoop.afterPublish,
        DispatchLoop.publishesLeft]
  | _ => simp [ProcessAction.isPublish]

/-- After `stopDispatcher` at most one more `Publish` is called, and none unless the dispatcher stood
right before it. -/
theorem publishes_after_cancellation (cancelled : s.dispatcherCancelled = true)
    {actions : List (ProcessAction Payload)} {final : Process Payload}
    (ran : run (processStep codec config limits) s actions = some final) :
    actions.countP ProcessAction.isPublish ≤ s.dispatcher.publishesLeft := by
  induction actions generalizing s with
  | nil => exact Nat.zero_le _
  | cons action actions inductionHypothesis =>
      simp only [run] at ran
      cases taken : processStep codec config limits s action with
      | none => simp [taken] at ran
      | some after =>
          rw [taken] at ran
          have later := inductionHypothesis (cancelled_of_processStep taken cancelled) ran
          have first := publishesLeft_of_step taken cancelled
          rw [List.countP_cons]
          omega

end Process

/-- The signal comes when the dispatcher has claimed two messages and published neither. -/
def claimedRun : List (ProcessAction String) :=
  [.claim (some [Sample.outboxMessage, Sample.outboxMessage]),
    .receiveSignal,
    .shutdownReturns true]

theorem publishes_after_cancellation_of_claimedRun :
    ∃ s final, run (processStep Codec.text (readConfig fun _ => none) Sample.limits)
        (Process.initial (readConfig fun _ => none)) claimedRun = some s ∧
      run (processStep Codec.text (readConfig fun _ => none) Sample.limits) s
        [.publish Sample.outboxMessage [Sample.outboxMessage]] = some final ∧
      [ProcessAction.publish Sample.outboxMessage [Sample.outboxMessage]].countP
        ProcessAction.isPublish ≤ s.dispatcher.publishesLeft ∧
      s.dispatcher.publishesLeft = 1 := by
  have first : (run (processStep Codec.text (readConfig fun _ => none) Sample.limits)
      (Process.initial (readConfig fun _ => none)) claimedRun).map (fun s =>
        (s.dispatcherCancelled, s.dispatcher.publishesLeft)) = some (true, 1) := by
    decide +kernel
  have whole : (run (processStep Codec.text (readConfig fun _ => none) Sample.limits)
      (Process.initial (readConfig fun _ => none)) (claimedRun ++
        [.publish Sample.outboxMessage [Sample.outboxMessage]])).isSome := by
    decide +kernel
  obtain ⟨s, reaches, both⟩ := Option.map_eq_some_iff.mp first
  obtain ⟨cancelled, left⟩ := Prod.mk.inj both
  obtain ⟨final, finishes⟩ := Option.isSome_iff_exists.mp whole
  rw [run_append, reaches, Option.bind_some] at finishes
  exact ⟨s, final, reaches, finishes, publishes_after_cancellation cancelled finishes, left⟩

end WebhookProcessor
