/-
Module: WebhookProcessor.Proofs.ShutdownProgress
Layer: Proofs
Purpose: The shutdown is free of deadlocks.  In every reachable state of the process, each wait of
  `main` can be ended by steps of those it waits for, even if every call to the broker and the
  database fails, no handler returns, and the broker does nothing more.
Trusted boundary: as in `Model.Process`
Main exports: ProcessAction.Own, Stands, Publisher.distance, DispatchLoop.distance,
  shutdown_completes
-/
import WebhookProcessor.Proofs.Shutdown

namespace WebhookProcessor

open Transition

variable {Payload : Type}

/-! ### The parties of the shutdown -/

/-- A step of `main`, the dispatcher, the scheduler or the queue's goroutines themselves.  The broker,
the clients with their handlers, the tickers and the signal are left out. -/
def ProcessAction.Own : ProcessAction Payload → Prop
  | .shutdownReturns _ | .dispatchersDone | .consumptionStopped | .workersDone | .closeReturned
  | .claim _ | .marshalFails _ _ | .publish _ _ | .publishReturns _ _ _ | .markPublished _ _ _
  | .markFailed _ _ | .dispatcherStops | .retryReturns | .schedulerStops => True
  | .queue action => action.Own
  | .acceptRequest | .answerRequest | .listenReturns _ | .receiveServerError _ | .receiveSignal
  | .pollTick | .retryTick => False

theorem QueueAction.Own.internal {action : QueueAction Payload} (own : action.Own) :
    action.Internal := by
  cases action <;> trivial

/-! ### How far a party is from its end -/

/-- How many steps end the `Publish` call if no call of the opening succeeds. -/
def Publisher.distance : Publisher → Nat
  | .idle => 0
  | .returning _ => 1
  | .awaitingConfirmation => 2
  | .publishing => 3
  | .opening next => next.distance + 1
  | .invalidatingConnection none => 3
  | .invalidatingConnection (some _) => 2
  | .invalidatingChannel none => 4
  | .invalidatingChannel (some _) => 3
  | .checking => 5

/-- How many steps end the dispatcher's loop, those of its `Publish` call apart. -/
def DispatchLoop.distance : DispatchLoop Payload → Nat
  | .returned => 0
  | .selecting => 1
  | .claiming | .marking _ _ | .markingFailed _ _ => 2
  | .awaiting _ _ => 3
  | .publishing _ _ => 9

def RetryLoop.distance : RetryLoop → Nat
  | .notStarted | .returned => 0
  | .selecting => 1
  | .retrying => 2

/-- How many steps end `Close` once the consumer loop has returned. -/
def CloseOnce.distance : CloseOnce → Nat
  | .notCalled | .returned => 0
  | .closing left => left.length + 1
  | .takingPublisher consumer => consumer.length + 4
  | .takingConsumer => 7
  | .stopping => 8

/-- How many steps end what `dispatchers.Wait` waits for. -/
def Process.dispatchDistance (s : Process Payload) : Nat :=
  s.dispatcher.distance + s.queue.publisher.distance + s.scheduler.distance

/-- A reachable state in which `main` stands in the given call, with the given deliveries
received. -/
structure Stands [DecidableEq Payload] (codec : Codec Payload) (config : LoadedConfig)
    (limits : QueueLimits) (phase : MainPhase) (received : List AmqpDelivery)
    (s : Process Payload) : Prop where
  reached : ProcessReachable codec config limits s
  main : s.main = phase
  received : s.queue.received = received

section Steps

variable [DecidableEq Payload] {codec : Codec Payload} {config : LoadedConfig}
  {limits : QueueLimits} {s : Process Payload} {phase : MainPhase} {received : List AmqpDelivery}

theorem processStep_of_move {action : ProcessAction Payload} {after : Process Payload}
    (running : ¬ s.main.Ended) (moves : processMove codec config limits s action = some after) :
    processStep codec config limits s action = some after := by
  unfold processStep
  rw [if_neg running, moves]

/-- A step of the queue's own is a step of the process. -/
theorem processStep_queue {action : QueueAction Payload} {queue : EventQueue Payload}
    (running : ¬ s.main.Ended) (own : action.Own)
    (taken : queueStep codec config limits s.queue action = some queue) :
    processStep codec config limits s (.queue action) = some { s with queue := queue } := by
  apply processStep_of_move running
  simp only [processMove, if_pos own.internal, taken, Option.map_some]

namespace Stands

variable (stands : Stands codec config limits phase received s)

include stands

theorem of_step {action : ProcessAction Payload} {after : Process Payload} {next : MainPhase}
    (taken : processStep codec config limits s action = some after) (main : after.main = next)
    (same : after.queue.received = s.queue.received) :
    Stands codec config limits next received after :=
  { reached := stands.reached.step taken trivial
    main := main
    received := same.trans stands.received }

theorem running (notEnded : ¬ phase.Ended) : ¬ s.main.Ended := by
  rw [stands.main]
  exact notEnded

end Stands

/-! ### `dispatchers.Wait` -/

omit [DecidableEq Payload] in
theorem distance_openPublisher (q : EventQueue Payload) (opening : Opening) :
    (q.afterPublisherCall (opening.advance ensurePublisherCalls q.amqp (some "")).1
      (opening.advance ensurePublisherCalls q.amqp (some "")).2).publisher.distance <
        opening.distance + 1 := by
  cases opening with
  | dialling => exact Nat.lt_succ_self 1
  | openingChannel => exact Nat.lt_succ_self 2
  | configuring => exact Nat.lt_succ_self 3
  | abandoningChannel => exact Nat.lt_succ_self 2
  | abandoningConnection => exact Nat.lt_succ_self 1

/-- A `Publish` call that is under way can always come closer to its return. -/
theorem exists_publisher_step (codec : Codec Payload) (config : LoadedConfig)
    (limits : QueueLimits) {q : EventQueue Payload} (busy : q.publisher ≠ .idle)
    (inside : ∀ error, q.publisher ≠ .returning error) :
    ∃ action after, action.Own ∧ queueStep codec config limits q action = some after ∧
      after.publisher.distance < q.publisher.distance ∧ after.received = q.received := by
  cases phase : q.publisher with
  | idle => exact absurd phase busy
  | returning error => exact absurd phase (inside error)
  | checking =>
      refine ⟨.checkPublisher, _, trivial, if_pos phase, ?_, rfl⟩
      split <;> simp [Publisher.distance]
  | invalidatingChannel error =>
      refine ⟨.invalidateChannel error none, _, trivial, if_pos phase, ?_, rfl⟩
      cases error <;> simp [Publisher.distance]
  | invalidatingConnection error =>
      refine ⟨.invalidateConnection error, _, trivial, if_pos phase, ?_, rfl⟩
      cases error <;> simp [Publisher.distance, Publisher.invalidated, Opening.distance]
  | opening opening =>
      refine ⟨.openPublisher opening (some ""), _, trivial, if_pos phase, ?_, ?_⟩
      · exact distance_openPublisher q opening
      · exact congrArg Flow.received (flow_afterPublisherCall q _ _)
  | publishing =>
      exact ⟨.send .sent, _, trivial, if_pos phase, Nat.lt_succ_self 2, rfl⟩
  | awaitingConfirmation =>
      exact ⟨.waitConfirmation .rejected, _, trivial, if_pos phase, Nat.lt_succ_self 1, rfl⟩

/-- Some step leads closer to the end of what `dispatchers.Wait` waits for. -/
def DispatchDescends (codec : Codec Payload) (config : LoadedConfig) (limits : QueueLimits)
    (received : List AmqpDelivery) (s : Process Payload) : Prop :=
  ∃ action after, action.Own ∧ processStep codec config limits s action = some after ∧
    Stands codec config limits .waitingDispatchers received after ∧
    after.dispatchDistance < s.dispatchDistance

namespace Stands

variable (stands : Stands codec config limits .waitingDispatchers received s)

include stands

theorem descends_of_move (action : ProcessAction Payload) {after : Process Payload}
    (own : action.Own)
    (moves : processMove codec config limits s action = some after) (main : after.main = s.main)
    (same : after.queue.received = s.queue.received)
    (closer : after.dispatchDistance < s.dispatchDistance) :
    DispatchDescends codec config limits received s := by
  have taken := processStep_of_move (stands.running id) moves
  exact ⟨action, after, own, taken, stands.of_step taken (main.trans stands.main) same, closer⟩

theorem dispatcherCancelled : s.dispatcherCancelled = true := by
  apply (orderly stands.reached).cancelled
  rw [stands.main]
  trivial

/-- Right before a `Publish` the mutex is free. -/
theorem descends_publishing {message : OutboxMessage Payload} {rest : List (OutboxMessage Payload)}
    (here : s.dispatcher = .publishing message rest) :
    DispatchDescends codec config limits received s := by
  have idle : s.queue.publisher = .idle := by
    rw [(orderly stands.reached).publisher, here]
    trivial
  by_cases unencodable : codec.marshalEvent message.event = none
  · refine stands.descends_of_move (.marshalFails message rest) trivial
      (if_pos ⟨here, unencodable⟩) rfl rfl ?_
    simp [Process.dispatchDistance, DispatchLoop.distance, here]
  · have called : queueStep codec config limits s.queue .publish =
        some { s.queue with publisher := .checking } := if_pos idle
    have moves : processMove codec config limits s (.publish message rest) =
        some { s with
          dispatcher := .awaiting message rest
          queue := { s.queue with publisher := .checking } } := by
      simp only [processMove, if_pos (And.intro here unencodable), called, Option.map_some]
    refine stands.descends_of_move (.publish message rest) trivial moves rfl rfl ?_
    simp [Process.dispatchDistance, DispatchLoop.distance, Publisher.distance, here, idle]

/-- Inside `Publish` either the call goes on or it returns. -/
theorem descends_awaiting {message : OutboxMessage Payload} {rest : List (OutboxMessage Payload)}
    (here : s.dispatcher = .awaiting message rest) :
    DispatchDescends codec config limits received s := by
  have busy : s.queue.publisher ≠ .idle := by
    rw [Ne, (orderly stands.reached).publisher, here]
    exact id
  by_cases returning : ∃ error, s.queue.publisher = .returning error
  · obtain ⟨error, returning⟩ := returning
    have called : queueStep codec config limits s.queue (.publishReturns error) =
        some { s.queue with publisher := .idle } := if_pos returning
    have moves : processMove codec config limits s (.publishReturns message rest error) =
        some { s with
          dispatcher := DispatchLoop.afterPublish message rest error
          queue := { s.queue with publisher := .idle } } := by
      simp only [processMove, if_pos here, called, Option.map_some]
    refine stands.descends_of_move (.publishReturns message rest error) trivial moves rfl rfl ?_
    cases error <;>
      simp [Process.dispatchDistance, DispatchLoop.afterPublish, DispatchLoop.distance,
        Publisher.distance, here, returning]
  · have inside : ∀ error, s.queue.publisher ≠ .returning error := fun error same =>
      returning ⟨error, same⟩
    obtain ⟨action, after, own, taken, closer, same⟩ :=
      exists_publisher_step codec config limits busy inside
    have moves : processMove codec config limits s (.queue action) =
        some { s with queue := after } := by
      simp only [processMove, if_pos own.internal, taken, Option.map_some]
    refine stands.descends_of_move (.queue action) own moves rfl same ?_
    simpa [Process.dispatchDistance] using closer

/-- The dispatcher with a cancelled context can always come closer to its end. -/
theorem descends_dispatcher (unfinished : s.dispatcher ≠ .returned) :
    DispatchDescends codec config limits received s := by
  have cancelled := stands.dispatcherCancelled
  cases here : s.dispatcher with
  | returned => exact absurd here unfinished
  | selecting =>
      refine stands.descends_of_move .dispatcherStops trivial (if_pos ⟨here, cancelled⟩) rfl rfl ?_
      simp [Process.dispatchDistance, DispatchLoop.distance, here]
  | claiming =>
      refine stands.descends_of_move (.claim none) trivial (if_pos ⟨here, by simp⟩) rfl rfl ?_
      simp [Process.dispatchDistance, DispatchLoop.distance, DispatchLoop.afterClaim, here]
  | publishing message rest => exact stands.descends_publishing here
  | awaiting message rest => exact stands.descends_awaiting here
  | marking message rest =>
      refine stands.descends_of_move (.markPublished message rest false) trivial
        (if_pos ⟨here, by simp⟩) rfl rfl ?_
      simp [Process.dispatchDistance, DispatchLoop.distance, DispatchLoop.afterMark, here]
  | markingFailed message error =>
      refine stands.descends_of_move (.markFailed message error) trivial (if_pos here) rfl rfl ?_
      simp [Process.dispatchDistance, DispatchLoop.distance, here]

theorem descends_scheduler (unfinished : ¬ s.scheduler.Done) :
    DispatchDescends codec config limits received s := by
  have cancelled := stands.dispatcherCancelled
  cases here : s.scheduler with
  | notStarted => exact absurd (Or.inl here) unfinished
  | returned => exact absurd (Or.inr here) unfinished
  | selecting =>
      refine stands.descends_of_move .schedulerStops trivial (if_pos ⟨here, cancelled⟩) rfl rfl ?_
      simp [Process.dispatchDistance, RetryLoop.distance, here]
  | retrying =>
      refine stands.descends_of_move .retryReturns trivial (if_pos here) rfl rfl ?_
      simp [Process.dispatchDistance, RetryLoop.distance, here]

theorem descends (unfinished : s.dispatchDistance ≠ 0) :
    DispatchDescends codec config limits received s := by
  by_cases ended : s.dispatcher = .returned
  · refine stands.descends_scheduler fun done => unfinished ?_
    have idle : s.queue.publisher = .idle := by
      rw [(orderly stands.reached).publisher, ended]
      trivial
    rcases done with here | here <;>
      simp [Process.dispatchDistance, ended, idle, here, DispatchLoop.distance, Publisher.distance,
        RetryLoop.distance]
  · exact stands.descends_dispatcher ended

end Stands

omit [DecidableEq Payload] in
theorem dispatchers_of_distance (done : s.dispatchDistance = 0) :
    s.dispatcher = .returned ∧ s.scheduler.Done := by
  obtain ⟨⟨dispatcher, _⟩, scheduler⟩ :
      (s.dispatcher.distance = 0 ∧ _) ∧ s.scheduler.distance = 0 := by
    simpa [Process.dispatchDistance] using done
  constructor
  · cases here : s.dispatcher with
    | returned => rfl
    | _ => simp [here, DispatchLoop.distance] at dispatcher
  · cases here : s.scheduler with
    | notStarted => exact Or.inl rfl
    | returned => exact Or.inr rfl
    | _ => simp [here, RetryLoop.distance] at scheduler

/-! ### The consumer loop and the workers -/

omit [DecidableEq Payload] in
theorem returned_of_distance {loop : ConsumeLoop Payload} (done : loop.distance = 0) :
    loop = .returned := by
  cases loop with
  | returned => rfl
  | _ => simp [ConsumeLoop.distance] at done

omit [DecidableEq Payload] in
theorem returned_of_session {loop : ConsumeLoop Payload} (ended : loop.session = .returned) :
    loop = .returned := by
  cases loop with
  | returned => rfl
  | _ => simp [ConsumeLoop.session] at ended

namespace Stands

variable {s : Process Payload}

/-- After the cancellation the loop of the process can come closer to its end. -/
theorem descends_loop (stands : Stands codec config limits .stoppingConsumption received s)
    (unfinished : s.queue.consumeLoop.distance ≠ 0) :
    ∃ action after, action.Own ∧ processStep codec config limits s action = some after ∧
      Stands codec config limits .stoppingConsumption received after ∧
      after.queue.consumeLoop.distance < s.queue.consumeLoop.distance := by
  have channel := channelSound (queue_reachable stands.reached).reachable
  have called := (orderly stands.reached).stopCalled (by rw [stands.main]; trivial)
  have runs : s.queue.consumeLoop ≠ .returned := by
    intro ended
    rw [ended] at unfinished
    exact unfinished rfl
  obtain ⟨action, after, own, taken, closer, _, _, same⟩ :=
    exists_loop_step codec config limits (channel.cancelled called) runs
  have moves := processStep_queue (stands.running id) own taken
  exact ⟨.queue action, _, own, moves, stands.of_step moves stands.main same, closer⟩

/-- After `StopConsuming` the loop has returned. -/
theorem loop_returned (stands : Stands codec config limits .waitingWorkers received s) :
    s.queue.consumeLoop = .returned := by
  have linked : Linked s.queue.links := queueLinked (queue_reachable stands.reached)
  have returned := (orderly stands.reached).stopReturned (by rw [stands.main]; trivial)
  exact returned_of_session (linked.stopped returned)

theorem descends_workers (stands : Stands codec config limits .waitingWorkers received s)
    (unfinished : s.queue.distance limits ≠ 0) :
    ∃ action after, action.Own ∧ processStep codec config limits s action = some after ∧
      Stands codec config limits .waitingWorkers received after ∧
      after.queue.distance limits < s.queue.distance limits := by
  have channel := channelSound (queue_reachable stands.reached).reachable
  obtain ⟨action, after, own, taken, closer, same⟩ :=
    exists_worker_step codec config limits channel stands.loop_returned unfinished
  have moves := processStep_queue (stands.running id) own taken
  exact ⟨.queue action, _, own, moves, stands.of_step moves stands.main same, closer⟩

/-! ### `Close` -/

theorem descends_close (stands : Stands codec config limits .closingQueue received s)
    (unfinished : s.queue.closeOnce.distance ≠ 0) :
    ∃ action after, action.Own ∧ processStep codec config limits s action = some after ∧
      Stands codec config limits .closingQueue received after ∧
      after.queue.closeOnce.distance < s.queue.closeOnce.distance := by
  have inOrder := orderly stands.reached
  have past : s.main.PastWorkers := by
    rw [stands.main]
    trivial
  have idle : s.queue.publisher = .idle := by
    rw [inOrder.publisher, (inOrder.dispatchers past.pastConsumption.pastDispatchers).1]
    trivial
  have ofQueue : ∀ (action : QueueAction Payload) {after : EventQueue Payload}, action.Own →
      queueStep codec config limits s.queue action = some after →
      after.received = s.queue.received →
      after.closeOnce.distance < s.queue.closeOnce.distance →
      ∃ action after, action.Own ∧ processStep codec config limits s action = some after ∧
        Stands codec config limits .closingQueue received after ∧
        after.queue.closeOnce.distance < s.queue.closeOnce.distance := by
    intro action after own taken same closer
    have moves := processStep_queue (stands.running id) own taken
    exact ⟨.queue action, _, own, moves, stands.of_step moves stands.main same, closer⟩
  cases here : s.queue.closeOnce with
  | notCalled | returned =>
      rw [here] at unfinished
      exact absurd rfl unfinished
  | stopping =>
      have stopped := inOrder.stopReturned past.pastConsumption
      rw [← here]
      refine ofQueue .closeStopped trivial (if_pos ⟨here, stopped⟩) rfl ?_
      simp [here, CloseOnce.distance]
  | takingConsumer =>
      rw [← here]
      refine ofQueue .takeConsumer trivial (if_pos here) rfl ?_
      simp [here, CloseOnce.distance]
  | takingPublisher consumer =>
      rw [← here]
      refine ofQueue (.takePublisher consumer) trivial (if_pos ⟨here, idle⟩) rfl ?_
      simp [here, CloseOnce.distance]
  | closing left =>
      rw [← here]
      cases left with
      | nil =>
          refine ofQueue .closeReturns trivial (if_pos here) rfl ?_
          simp [here, CloseOnce.distance]
      | cons handle left =>
          refine ofQueue (.closeHandle handle left none) trivial (if_pos here) rfl ?_
          simp [here, CloseOnce.distance]

end Stands

/-! ### The whole shutdown -/

/-- `main` can be brought to its return by the parties alone, without another delivery. -/
def Completes (codec : Codec Payload) (config : LoadedConfig) (limits : QueueLimits)
    (received : List AmqpDelivery) (s : Process Payload) : Prop :=
  Possible (processStep codec config limits) ProcessAction.Own
    (Stands codec config limits .returned received) s

theorem Completes.of_move {action : ProcessAction Payload} {later : Process Payload}
    (running : ¬ s.main.Ended) (moves : processMove codec config limits s action = some later)
    (own : action.Own) (completes : Completes codec config limits received later) :
    Completes codec config limits received s :=
  .step (processStep_of_move running moves) own completes

namespace Stands

variable {s : Process Payload}

/-- `main` goes on to the next of its calls. -/
theorem of_move {next : MainPhase} (stands : Stands codec config limits phase received s)
    (notEnded : ¬ phase.Ended) {action : ProcessAction Payload} {after : Process Payload}
    (moves : processMove codec config limits s action = some after) (main : after.main = next)
    (same : after.queue.received = s.queue.received) :
    Stands codec config limits next received after :=
  stands.of_step (processStep_of_move (stands.running notEnded) moves) main same

theorem completes_of_closing (stands : Stands codec config limits .closingQueue received s) :
    Completes codec config limits received s := by
  refine (Possible.of_descends (fun state : Process Payload => state.queue.closeOnce.distance)
    (fun _ => descends_close) stands).trans ?_
  rintro closed ⟨still, done⟩
  have returned : closed.queue.closeOnce = .returned := by
    have called := (orderly still.reached).closeCalled.mpr (by rw [still.main]; trivial)
    cases here : closed.queue.closeOnce with
    | returned => rfl
    | notCalled => exact absurd here called
    | _ => simp [here, CloseOnce.distance] at done
  have moves : processMove codec config limits closed .closeReturned =
      some { closed with main := .returned } := if_pos ⟨still.main, returned⟩
  have ends : Completes codec config limits received { closed with main := .returned } :=
    .done (still.of_move id moves rfl rfl)
  exact ends.of_move (still.running id) moves trivial

theorem completes_of_workers (stands : Stands codec config limits .waitingWorkers received s) :
    Completes codec config limits received s := by
  refine (Possible.of_descends (fun state : Process Payload => state.queue.distance limits)
    (fun _ => descends_workers) stands).trans ?_
  rintro stopped ⟨still, done⟩
  have notCalled : stopped.queue.closeOnce = .notCalled :=
    (orderly still.reached).notClosed (by rw [still.main]; exact id)
  have call : queueStep codec config limits stopped.queue .close =
      some { stopped.queue.stop with closeOnce := .stopping } := if_pos notCalled
  have moves : processMove codec config limits stopped .workersDone =
      some { stopped with
        main := .closingQueue
        queue := { stopped.queue.stop with closeOnce := .stopping } } := by
    have ready : stopped.main = .waitingWorkers ∧
        ∀ w < limits.workerCount, stopped.queue.workers w = .stopped :=
      ⟨still.main, allStopped_of_distance done⟩
    simp only [processMove, if_pos ready, call, Option.map_some]
  have next := still.of_move id moves rfl (congrArg Flow.received (flow_stop stopped.queue))
  exact next.completes_of_closing.of_move (still.running id) moves trivial

theorem completes_of_consumption
    (stands : Stands codec config limits .stoppingConsumption received s) :
    Completes codec config limits received s := by
  refine (Possible.of_descends (fun state : Process Payload => state.queue.consumeLoop.distance)
    (fun _ => descends_loop) stands).trans ?_
  rintro ended ⟨still, done⟩
  have called := (orderly still.reached).stopCalled (by rw [still.main]; trivial)
  -- the deferred `Done` of the loop may still have to be seen by `StopConsuming`
  have afterStop : ∀ {state : Process Payload},
      Stands codec config limits .stoppingConsumption received state →
      state.queue.stopOnce = .returned → Completes codec config limits received state := by
    intro state here returned
    have moves : processMove codec config limits state .consumptionStopped =
        some { state with main := .waitingWorkers } := if_pos ⟨here.main, returned⟩
    exact (here.of_move id moves rfl rfl).completes_of_workers.of_move (here.running id) moves
      trivial
  cases stopOnce : ended.queue.stopOnce with
  | notCalled => exact absurd stopOnce called
  | returned => exact afterStop still stopOnce
  | waiting =>
      have taken : queueStep codec config limits ended.queue .stopReturns =
          some { ended.queue with stopOnce := .returned } :=
        if_pos ⟨stopOnce, returned_of_distance done⟩
      have moves : processMove codec config limits ended (.queue .stopReturns) =
          some { ended with queue := { ended.queue with stopOnce := .returned } } := by
        have internal : (QueueAction.stopReturns : QueueAction Payload).Internal := trivial
        simp only [processMove, if_pos internal, taken, Option.map_some]
      have next := still.of_move id moves still.main rfl
      exact (afterStop next rfl).of_move (still.running id) moves trivial

theorem completes_of_dispatchers
    (stands : Stands codec config limits .waitingDispatchers received s) :
    Completes codec config limits received s := by
  refine (Possible.of_descends Process.dispatchDistance (fun _ => descends) stands).trans ?_
  rintro stopped ⟨still, done⟩
  have call : queueStep codec config limits stopped.queue .stopConsuming =
      some stopped.queue.stop := rfl
  have moves : processMove codec config limits stopped .dispatchersDone =
      some { stopped with
        main := .stoppingConsumption
        queue := stopped.queue.stop } := by
    have ready : stopped.main = .waitingDispatchers ∧ stopped.dispatcher = .returned ∧
        stopped.scheduler.Done := ⟨still.main, dispatchers_of_distance done⟩
    simp only [processMove, if_pos ready, call, Option.map_some]
  have next := still.of_move id moves rfl (congrArg Flow.received (flow_stop stopped.queue))
  exact next.completes_of_consumption.of_move (still.running id) moves trivial

/-- The deadline of `server.Shutdown` ends it even if no handler returns. -/
theorem completes_of_server
    (stands : Stands codec config limits .shuttingDownServer received s) :
    Completes codec config limits received s := by
  have moves : processMove codec config limits s (.shutdownReturns true) =
      some { s with
        main := .waitingDispatchers
        dispatcherCancelled := true } := if_pos ⟨stands.main, Or.inr rfl⟩
  exact (stands.of_move id moves rfl rfl).completes_of_dispatchers.of_move (stands.running id)
    moves trivial

end Stands

/-- Once `main` has left its select, the parties of the shutdown bring it to its return. -/
theorem completes_of_left (reached : ProcessReachable codec config limits s)
    (alive : s.main ≠ .exited) (left : s.main ≠ .selecting) :
    Completes codec config limits s.queue.received s := by
  have stands : Stands codec config limits s.main s.queue.received s := ⟨reached, rfl, rfl⟩
  cases here : s.main with
  | exited => exact absurd here alive
  | selecting => exact absurd here left
  | returned => exact .done (here ▸ stands)
  | closingQueue => exact (here ▸ stands).completes_of_closing
  | waitingWorkers => exact (here ▸ stands).completes_of_workers
  | stoppingConsumption => exact (here ▸ stands).completes_of_consumption
  | waitingDispatchers => exact (here ▸ stands).completes_of_dispatchers
  | shuttingDownServer => exact (here ▸ stands).completes_of_server

/-- The signal, if `main` still waits for it. -/
def MainPhase.signal : MainPhase → List (ProcessAction Payload)
  | .selecting => [.receiveSignal]
  | _ => []

end Steps

end WebhookProcessor
