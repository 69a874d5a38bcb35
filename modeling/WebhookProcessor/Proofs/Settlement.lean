/-
Module: WebhookProcessor.Proofs.Settlement
Layer: Proofs
Purpose: Every delivery that `forwardDeliveries` receives is settled exactly once.  It is rejected
  on the spot, returned to the broker when the shutdown wins, or in exactly one of three places on
  its way: the hand of the forwarder, the buffer of the channel, a worker.  The `events` channel is
  closed by the loop's last step, so nothing is sent after that, and the workers stop only when the
  buffer is empty.
Trusted boundary: Go channels, mutexes, `sync.Once` and contexts
Main exports: Flow, FlowEffect, step_flow, Flow.Conserved, Flow.Fitting, deliveries_settled_once
-/
import WebhookProcessor.Model.Calls
import WebhookProcessor.Model.Queue
import WebhookProcessor.Proofs.Deliveries
import WebhookProcessor.Queueing.Custody

namespace WebhookProcessor

open Transition

variable {Payload : Type}

/-! ### Where deliveries are -/

/-- The delivery that the second select of `forwardDeliveries` holds. -/
def ConsumeLoop.hand : ConsumeLoop Payload → List (EventDelivery Payload)
  | .handingOff _ _ delivery => [delivery]
  | _ => []

/-- The delivery that a worker handles. -/
def PoolWorker.delivery? : PoolWorker Payload → Option AmqpDelivery
  | .handling delivery => some delivery.delivery
  | _ => none

/-- The part of the queue that deliveries pass through. -/
structure Flow (Payload : Type) where
  received : List AmqpDelivery
  hand : List (EventDelivery Payload)
  events : List (EventDelivery Payload)
  eventsClosed : Bool
  panicked : Bool
  workers : Nat → PoolWorker Payload
  taken : List (AmqpDelivery × Nat)
  settled : List SettleEntry

namespace EventQueue

def flow (s : EventQueue Payload) : Flow Payload :=
  { received := s.received
    hand := s.consumeLoop.hand
    events := s.events
    eventsClosed := s.eventsClosed
    panicked := s.panicked
    workers := s.workers
    taken := s.taken
    settled := s.settled }

/-- The next delivery, with the given body. -/
def incoming (s : EventQueue Payload) (body : EventJson) : AmqpDelivery :=
  { number := s.received.length
    body := body }

/-- The settle calls on a delivery, oldest first. -/
def settlesOf (s : EventQueue Payload) (delivery : AmqpDelivery) : List SettleEntry :=
  s.settled.filter fun entry => entry.delivery = delivery

/-- The workers that took the delivery from the channel. -/
def takers (s : EventQueue Payload) (delivery : AmqpDelivery) : List Nat :=
  (s.taken.filter fun pair => pair.1 = delivery).map Prod.snd

/-- The forwarder, the channel or a worker has the delivery. -/
def InProgress (limits : QueueLimits) (s : EventQueue Payload) (delivery : AmqpDelivery) : Prop :=
  (∃ held ∈ s.consumeLoop.hand, held.delivery = delivery) ∨
    (∃ held ∈ s.events, held.delivery = delivery) ∨
    ∃ w < limits.workerCount, (s.workers w).delivery? = some delivery

/-- `workers.Wait` returns. -/
def AllStopped (limits : QueueLimits) (s : EventQueue Payload) : Prop :=
  ∀ w < limits.workerCount, s.workers w = .stopped

end EventQueue

/-- The settle call that a delivery gets: a body that does not decode is rejected for good, a
shutdown before the hand-off gives the delivery back to the broker, and otherwise the call is made
by the one worker that took it. -/
def SettledRightly (codec : Codec Payload) (s : EventQueue Payload) (delivery : AmqpDelivery)
    (entry : SettleEntry) : Prop :=
  match codec.unmarshalEvent delivery.body with
  | none => entry.settler = .forwarder ∧ entry.call = .nack false ∧ s.takers delivery = []
  | some _ =>
      (entry.settler = .forwarder ∧ entry.call = .nack true ∧ s.cancelled = true ∧
          s.takers delivery = []) ∨
        ∃ w, s.takers delivery = [w] ∧ entry.settler = .worker w

/-- What one step does to the deliveries. -/
inductive FlowEffect (codec : Codec Payload) (limits : QueueLimits) (s : EventQueue Payload) :
    QueueAction Payload → Flow Payload → Prop where
  | unchanged {action : QueueAction Payload} : FlowEffect codec limits s action s.flow
  | rejected {connection : Nat} {channel : AmqpChannel} {body : EventJson}
      (undecodable : codec.unmarshalEvent body = none) :
      FlowEffect codec limits s (.receive connection channel body)
        { s.flow with
          received := s.received ++ [s.incoming body]
          settled := s.settled ++
            [{ delivery := s.incoming body
               settler := .forwarder
               call := .nack false }] }
  | accepted {connection : Nat} {channel : AmqpChannel} {body : EventJson} {event : Event Payload}
      (free : s.consumeLoop.hand = []) (decoded : codec.unmarshalEvent body = some event) :
      FlowEffect codec limits s (.receive connection channel body)
        { s.flow with
          received := s.received ++ [s.incoming body]
          hand :=
            [{ event := event
               delivery := s.incoming body }] }
  | handedOff {connection : Nat} {channel : AmqpChannel} {delivery : EventDelivery Payload}
      (held : s.consumeLoop.hand = [delivery]) (isOpen : s.eventsClosed = false) :
      FlowEffect codec limits s (.handOff connection channel delivery)
        { s.flow with
          hand := []
          events := s.events ++ [delivery] }
  | sentOnClosed {connection : Nat} {channel : AmqpChannel} {delivery : EventDelivery Payload}
      (held : s.consumeLoop.hand = [delivery]) (closed : s.eventsClosed = true) :
      FlowEffect codec limits s (.handOff connection channel delivery)
        { s.flow with panicked := true }
  | requeued {connection : Nat} {channel : AmqpChannel} {delivery : EventDelivery Payload}
      (held : s.consumeLoop.hand = [delivery]) (cancelled : s.cancelled = true) :
      FlowEffect codec limits s (.handOffCancelled connection channel delivery)
        { s.flow with
          hand := []
          settled := s.settled ++
            [{ delivery := delivery.delivery
               settler := .forwarder
               call := .nack true }] }
  | closed (phase : s.consumeLoop = .returning) :
      FlowEffect codec limits s .closeEvents
        { s.flow with
          panicked := s.panicked || s.eventsClosed
          eventsClosed := true }
  | taken {w : Nat} {delivery : EventDelivery Payload} {rest : List (EventDelivery Payload)}
      (worker : w < limits.workerCount) (free : s.workers w = .receiving)
      (first : s.events = delivery :: rest) :
      FlowEffect codec limits s (.take w delivery rest)
        { s.flow with
          events := rest
          taken := s.taken ++ [(delivery.delivery, w)]
          workers := Function.update s.workers w (.handling delivery) }
  | handled {w : Nat} {delivery : EventDelivery Payload} {answers : Answers} {db : Database}
      {metrics : Metrics} {call : SettleCall} (worker : w < limits.workerCount)
      (holds : s.workers w = .handling delivery) :
      FlowEffect codec limits s (.handle w delivery answers db metrics)
        { s.flow with
          settled := s.settled ++
            [{ delivery := delivery.delivery
               settler := .worker w
               call := call }]
          workers := Function.update s.workers w .receiving }
  | stopped {w : Nat} (worker : w < limits.workerCount) (free : s.workers w = .receiving)
      (drained : s.events = []) (closed : s.eventsClosed = true) :
      FlowEffect codec limits s (.stopWorker w)
        { s.flow with workers := Function.update s.workers w .stopped }

section Steps

variable {codec : Codec Payload} {config : LoadedConfig} {limits : QueueLimits}
  {s s' : EventQueue Payload} {action : QueueAction Payload}

theorem flow_stop (s : EventQueue Payload) : s.stop.flow = s.flow := by
  unfold EventQueue.stop
  split <;> rfl

theorem flow_afterPublisherCall (s : EventQueue Payload) (amqp : Amqp) (next : OpeningStep) :
    (s.afterPublisherCall amqp next).flow = s.flow := by
  cases next <;> rfl

theorem hand_afterOpening (next : OpeningStep) :
    (ConsumeLoop.afterOpening next : ConsumeLoop Payload).hand = [] := by
  cases next <;> rfl

/-- A step of the loop that neither takes nor gives away a delivery. -/
theorem FlowEffect.of_loop {loop : ConsumeLoop Payload} (same : loop.hand = s.consumeLoop.hand) :
    FlowEffect codec limits s action { s.flow with hand := loop.hand } := by
  rw [same]
  exact .unchanged

/-- `handleDelivery` makes one settle call. -/
theorem exists_settle (codec : Codec Payload) (config : LoadedConfig) (answers : Answers)
    (event : Event Payload) (db : Database) (metrics : Metrics) :
    ∃ call, (handleDelivery codec config answers event (Journal.start db metrics)).select
      WorkerCall.settle? = [call] := by
  rcases (handleDelivery_course codec config answers event db metrics).settled with
    ⟨once, _⟩ | ⟨once, _⟩ | ⟨once, _⟩
  · exact ⟨_, once⟩
  · exact ⟨_, once⟩
  · exact ⟨_, once⟩

variable [DecidableEq Payload]

theorem step_flow (taken : queueStep codec config limits s action = some s') :
    FlowEffect codec limits s action s'.flow := by
  cases action
  all_goals
    simp only [queueStep, Option.ite_none_right_eq_some, Option.some.injEq] at taken
  case dropConnection | dropChannel =>
      cases taken
      exact .unchanged
  case stopConsuming =>
      cases taken
      rw [flow_stop]
      exact .unchanged
  case openPublisher =>
      obtain ⟨_, rfl⟩ := taken
      rw [flow_afterPublisherCall]
      exact .unchanged
  case close =>
      obtain ⟨_, rfl⟩ := taken
      show FlowEffect codec limits s _ s.stop.flow
      rw [flow_stop]
      exact .unchanged
  case receive connection channel body =>
      obtain ⟨phase, taken⟩ := taken
      cases decoded : codec.unmarshalEvent body with
      | none =>
          rw [decoded] at taken
          cases taken
          exact .rejected decoded
      | some event =>
          rw [decoded] at taken
          cases taken
          exact .accepted (by rw [phase]; rfl) decoded
  case handOff connection channel delivery =>
      obtain ⟨phase, taken⟩ := taken
      split at taken
      · rename_i closed
        cases taken
        exact .sentOnClosed (by rw [phase]; rfl) closed
      · rename_i isOpen
        obtain ⟨_, rfl⟩ := (Option.ite_none_right_eq_some.mp taken).imp id Option.some.inj
        exact .handedOff (by rw [phase]; rfl) (Bool.not_eq_true _ ▸ isOpen)
  case handOffCancelled connection channel delivery =>
      obtain ⟨⟨phase, cancelled⟩, rfl⟩ := taken
      exact .requeued (by rw [phase]; rfl) cancelled
  case closeEvents =>
      obtain ⟨phase, rfl⟩ := taken
      have free : s.consumeLoop.hand = [] := by
        rw [phase]
        rfl
      have effect : FlowEffect codec limits s .closeEvents _ := .closed phase
      rw [EventQueue.flow, free] at effect
      exact effect
  case take w delivery rest =>
      obtain ⟨⟨worker, free, first⟩, rfl⟩ := taken
      exact .taken worker free first
  case handle w delivery answers db metrics =>
      obtain ⟨⟨worker, holds⟩, rfl⟩ := taken
      obtain ⟨call, once⟩ := exists_settle codec config answers delivery.event db metrics
      rw [once]
      exact .handled worker holds
  case stopWorker w =>
      obtain ⟨⟨worker, free, drained, closed⟩, rfl⟩ := taken
      exact .stopped worker free drained closed
  case openConsumer opening answer =>
      obtain ⟨phase, rfl⟩ := taken
      refine FlowEffect.of_loop ?_
      rw [hand_afterOpening, phase]
      rfl
  case checkContext | afterForward =>
      obtain ⟨phase, rfl⟩ := taken
      refine FlowEffect.of_loop ?_
      rw [phase]
      split <;> rfl
  case setConsumer | deliveriesClosed | clearConsumer | closeConsumerChannel |
      closeConsumerConnection | retryTimer =>
      obtain ⟨phase, rfl⟩ := taken
      refine FlowEffect.of_loop ?_
      rw [phase]
      rfl
  case forwardCancelled | retryCancelled =>
      obtain ⟨⟨phase, _⟩, rfl⟩ := taken
      refine FlowEffect.of_loop ?_
      rw [phase]
      rfl
  all_goals
    obtain ⟨_, rfl⟩ := taken
    exact .unchanged

omit [DecidableEq Payload] in
/-- How often a token occurs after one is added. -/
private theorem count_concat {τ : Type} [DecidableEq τ] (tokens : List τ) (token other : τ) :
    (tokens ++ [token]).count other = tokens.count other + if token = other then 1 else 0 := by
  simp [List.count_append, List.count_singleton]

omit [DecidableEq Payload] in
private theorem countP_concat {τ : Type} (items : List τ) (item : τ) (test : τ → Prop)
    [DecidablePred test] :
    (items ++ [item]).countP (fun other => test other) =
      items.countP (fun other => test other) + if test item then 1 else 0 := by
  simp [List.countP_append, List.countP_singleton]

/-! ### Conservation -/

/-- Every received delivery is in one place: in the forwarder's hand, in the buffer, taken by a
worker, or settled by the forwarder; and a taken one is with its worker or settled by it. -/
structure Flow.Conserved (limits : QueueLimits) (flow : Flow Payload) : Prop where
  forwarded : ∀ delivery, flow.received.count delivery =
    flow.hand.countP (fun held => held.delivery = delivery) +
      flow.events.countP (fun held => held.delivery = delivery) +
      flow.taken.countP (fun pair => pair.1 = delivery) +
      flow.settled.countP fun entry => entry.delivery = delivery ∧ entry.settler = .forwarder
  worked : ∀ delivery, flow.taken.countP (fun pair => pair.1 = delivery) =
    Custody.holdersOf (Finset.range limits.workerCount) PoolWorker.delivery? flow.workers delivery +
      flow.settled.countP fun entry => entry.delivery = delivery ∧ entry.settler ≠ .forwarder
  numbered : flow.received.map AmqpDelivery.number = List.range flow.received.length

omit [DecidableEq Payload] in
theorem numbered_incoming
    (numbered : s.received.map AmqpDelivery.number = List.range s.received.length)
    (body : EventJson) :
    (s.received ++ [s.incoming body]).map AmqpDelivery.number =
      List.range (s.received ++ [s.incoming body]).length := by
  rw [List.map_append, numbered, List.length_append, List.length_singleton, List.range_succ]
  rfl

omit [DecidableEq Payload] in
theorem FlowEffect.conserved {after : Flow Payload}
    (effect : FlowEffect codec limits s action after) (inv : s.flow.Conserved limits) :
    after.Conserved limits := by
  obtain ⟨forwarded, worked, numbered⟩ := inv
  dsimp only [EventQueue.flow] at forwarded worked numbered
  cases effect with
  | unchanged => exact ⟨forwarded, worked, numbered⟩
  | @rejected connection channel body undecodable =>
      refine ⟨fun delivery => ?_, fun delivery => ?_, numbered_incoming numbered body⟩
      · have before := forwarded delivery
        simp only [count_concat, countP_concat, EventQueue.flow, and_true]
        omega
      · have before := worked delivery
        simp only [countP_concat, EventQueue.flow, ne_eq, not_true_eq_false, and_false, if_false]
        exact before
  | @accepted connection channel body event free decoded =>
      refine ⟨fun delivery => ?_, worked, numbered_incoming numbered body⟩
      have before := forwarded delivery
      rw [free, List.countP_nil] at before
      simp only [count_concat, List.countP_singleton, EventQueue.flow, decide_eq_true_eq]
      omega
  | @handedOff connection channel moved held isOpen =>
      refine ⟨fun delivery => ?_, worked, numbered⟩
      have before := forwarded delivery
      rw [held, List.countP_singleton] at before
      simp only [countP_concat, List.countP_nil, EventQueue.flow, decide_eq_true_eq] at before ⊢
      omega
  | sentOnClosed => exact ⟨forwarded, worked, numbered⟩
  | @requeued connection channel moved held cancelled =>
      refine ⟨fun delivery => ?_, fun delivery => ?_, numbered⟩
      · have before := forwarded delivery
        rw [held, List.countP_singleton] at before
        simp only [countP_concat, List.countP_nil, EventQueue.flow, decide_eq_true_eq,
          and_true] at before ⊢
        omega
      · have before := worked delivery
        simp only [countP_concat, EventQueue.flow, ne_eq, not_true_eq_false, and_false, if_false]
        exact before
  | closed => exact ⟨forwarded, worked, numbered⟩
  | @taken w moved rest worker free first =>
      refine ⟨fun delivery => ?_, fun delivery => ?_, numbered⟩
      · have before := forwarded delivery
        rw [first, List.countP_cons] at before
        simp only [countP_concat, EventQueue.flow, decide_eq_true_eq] at before ⊢
        omega
      · have before := worked delivery
        have handed := Custody.holdersOf_update PoolWorker.delivery? s.workers
          (Finset.mem_range.mpr worker) (.handling moved) delivery
        simp only [free, PoolWorker.delivery?, reduceCtorEq, if_false, Option.some.injEq] at handed
        simp only [countP_concat, EventQueue.flow] at before ⊢
        omega
  | @handled w moved answers db metrics call worker holds =>
      refine ⟨fun delivery => ?_, fun delivery => ?_, numbered⟩
      · have before := forwarded delivery
        simp only [countP_concat, EventQueue.flow, reduceCtorEq, and_false, if_false]
        exact before
      · have before := worked delivery
        have handed := Custody.holdersOf_update PoolWorker.delivery? s.workers
          (Finset.mem_range.mpr worker) .receiving delivery
        simp only [holds, PoolWorker.delivery?, reduceCtorEq, if_false, Option.some.injEq] at handed
        simp only [countP_concat, EventQueue.flow, ne_eq, reduceCtorEq, not_false_eq_true,
          and_true] at before ⊢
        omega
  | @stopped w worker free drained closed =>
      refine ⟨forwarded, fun delivery => ?_, numbered⟩
      have before := worked delivery
      have same := Custody.holdersOf_update PoolWorker.delivery? s.workers
        (Finset.mem_range.mpr worker) .stopped delivery
      simp only [free, PoolWorker.delivery?, reduceCtorEq, if_false] at same
      simp only [EventQueue.flow] at before ⊢
      omega

/-! ### Which settle call -/

/-- The delivery decodes to the event it carries. -/
def EventDelivery.Decoded (codec : Codec Payload) (held : EventDelivery Payload) : Prop :=
  codec.unmarshalEvent held.delivery.body = some held.event

/-- What is known about a settle call when it is made, and stays true. -/
def SettleEntry.Fits (codec : Codec Payload) (cancelled : Bool)
    (taken : List (AmqpDelivery × Nat)) (entry : SettleEntry) : Prop :=
  match entry.settler with
  | .forwarder =>
      (codec.unmarshalEvent entry.delivery.body = none ∧ entry.call = .nack false) ∨
        (codec.unmarshalEvent entry.delivery.body ≠ none ∧ entry.call = .nack true ∧
          cancelled = true)
  | .worker w =>
      codec.unmarshalEvent entry.delivery.body ≠ none ∧ (entry.delivery, w) ∈ taken

/-- Only decoded deliveries go on, and every settle call fits its delivery. -/
structure Flow.Fitting (codec : Codec Payload) (cancelled : Bool) (flow : Flow Payload) :
    Prop where
  hand : ∀ held ∈ flow.hand, held.Decoded codec
  events : ∀ held ∈ flow.events, held.Decoded codec
  workers : ∀ w held, flow.workers w = .handling held →
    held.Decoded codec ∧ (held.delivery, w) ∈ flow.taken
  settled : ∀ entry ∈ flow.settled, entry.Fits codec cancelled flow.taken

omit [DecidableEq Payload] in
theorem SettleEntry.Fits.mono {cancelled later : Bool} {taken more : List (AmqpDelivery × Nat)}
    {entry : SettleEntry} (fits : entry.Fits codec cancelled taken)
    (kept : cancelled = true → later = true) (grown : taken ⊆ more) :
    entry.Fits codec later more := by
  obtain ⟨delivery, settler, call⟩ := entry
  cases settler with
  | forwarder =>
      rcases fits with rejected | ⟨decodes, requeued, before⟩
      · exact Or.inl rejected
      · exact Or.inr ⟨decodes, requeued, kept before⟩
  | worker w => exact ⟨fits.1, grown fits.2⟩

omit [DecidableEq Payload] in
theorem FlowEffect.fitting {after : Flow Payload} {later : Bool}
    (effect : FlowEffect codec limits s action after) (inv : s.flow.Fitting codec s.cancelled)
    (kept : s.cancelled = true → later = true) : after.Fitting codec later := by
  obtain ⟨hand, events, workers, settled⟩ := inv
  dsimp only [EventQueue.flow] at hand events workers settled
  have still : ∀ entry ∈ s.settled, entry.Fits codec later s.taken := by
    intro entry member
    exact (settled entry member).mono kept (List.Subset.refl _)
  cases effect with
  | unchanged => exact ⟨hand, events, workers, still⟩
  | rejected undecodable =>
      refine ⟨hand, events, workers, ?_⟩
      exact List.forall_mem_append.mpr
        ⟨still, List.forall_mem_singleton.mpr (Or.inl ⟨undecodable, rfl⟩)⟩
  | accepted _ decoded =>
      exact ⟨List.forall_mem_singleton.mpr decoded, events, workers, still⟩
  | @handedOff _ _ moved held =>
      refine ⟨List.forall_mem_nil _, ?_, workers, still⟩
      rw [held] at hand
      have decoded := hand moved (List.mem_singleton_self _)
      exact List.forall_mem_append.mpr ⟨events, List.forall_mem_singleton.mpr decoded⟩
  | sentOnClosed => exact ⟨hand, events, workers, still⟩
  | @requeued _ _ moved held cancelled =>
      refine ⟨List.forall_mem_nil _, events, workers, ?_⟩
      rw [held] at hand
      have decoded := hand moved (List.mem_singleton_self _)
      have decodes : codec.unmarshalEvent moved.delivery.body ≠ none := by
        rw [decoded]
        exact Option.some_ne_none _
      exact List.forall_mem_append.mpr
        ⟨still, List.forall_mem_singleton.mpr (Or.inr ⟨decodes, rfl, kept cancelled⟩)⟩
  | closed => exact ⟨hand, events, workers, still⟩
  | @taken w moved rest _ _ first =>
      have decoded : ∀ held ∈ moved :: rest, held.Decoded codec := by
        rw [← first]
        exact events
      refine ⟨hand, fun held member => decoded held (List.mem_cons_of_mem _ member), ?_, ?_⟩
      · intro v held phase
        by_cases same : v = w
        · subst same
          simp only [Function.update_self, PoolWorker.handling.injEq] at phase
          subst phase
          exact ⟨decoded moved List.mem_cons_self, List.mem_append_right _ List.mem_cons_self⟩
        · simp only [Function.update_of_ne same] at phase
          obtain ⟨known, member⟩ := workers v held phase
          exact ⟨known, List.mem_append_left _ member⟩
      · intro entry member
        exact (still entry member).mono id (List.subset_append_left _ _)
  | @handled w moved _ _ _ _ _ holds =>
      obtain ⟨decoded, member⟩ := workers w moved holds
      have decodes : codec.unmarshalEvent moved.delivery.body ≠ none := by
        rw [decoded]
        exact Option.some_ne_none _
      refine ⟨hand, events, ?_, ?_⟩
      · intro v held phase
        by_cases same : v = w
        · subst same
          simp at phase
        · simp only [Function.update_of_ne same] at phase
          exact workers v held phase
      · exact List.forall_mem_append.mpr
          ⟨still, List.forall_mem_singleton.mpr ⟨decodes, member⟩⟩
  | @stopped w =>
      refine ⟨hand, events, ?_, still⟩
      intro v held phase
      by_cases same : v = w
      · subst same
        simp at phase
      · simp only [Function.update_of_ne same] at phase
        exact workers v held phase

/-! ### Closing the channel -/

theorem returned_of_step (taken : queueStep codec config limits s action = some s') :
    s'.consumeLoop = .returned ↔ s.consumeLoop = .returned ∨ action = .closeEvents := by
  have ofStop : s.stop.consumeLoop = s.consumeLoop := by
    unfold EventQueue.stop
    split <;> rfl
  have ofPublisher : ∀ amqp next, (s.afterPublisherCall amqp next).consumeLoop = s.consumeLoop := by
    intro amqp next
    cases next <;> rfl
  have ofOpening : ∀ next, (ConsumeLoop.afterOpening next : ConsumeLoop Payload) ≠ .returned := by
    intro next
    cases next <;> simp [ConsumeLoop.afterOpening]
  cases action
  all_goals
    simp only [queueStep, Option.ite_none_right_eq_some, Option.some.injEq] at taken
  case receive connection channel body =>
      obtain ⟨phase, taken⟩ := taken
      cases decoded : codec.unmarshalEvent body with
      | none =>
          rw [decoded] at taken
          cases taken
          simp [EventQueue.settle, phase]
      | some event =>
          rw [decoded] at taken
          cases taken
          simp [phase]
  case handOff connection channel delivery =>
      obtain ⟨phase, taken⟩ := taken
      split at taken
      · cases taken
        simp [phase]
      · obtain ⟨_, rfl⟩ := (Option.ite_none_right_eq_some.mp taken).imp id Option.some.inj
        simp [phase]
  case checkContext | afterForward =>
      obtain ⟨phase, rfl⟩ := taken
      split <;> simp [phase]
  case openConsumer =>
      obtain ⟨phase, rfl⟩ := taken
      simp [phase, ofOpening]
  case dropConnection | dropChannel | stopConsuming =>
      cases taken
      simp [ofStop]
  case forwardCancelled | handOffCancelled | retryCancelled =>
      obtain ⟨⟨phase, _⟩, rfl⟩ := taken
      simp [EventQueue.settle, phase]
  case stopReturns =>
      obtain ⟨⟨_, phase⟩, rfl⟩ := taken
      simp
  all_goals
    obtain ⟨phase, rfl⟩ := taken
    simp [ofStop, ofPublisher, EventQueue.setWorker, phase]

/-- The context is cancelled by the first `StopConsuming` and stays cancelled. -/
theorem step_cancelled (taken : queueStep codec config limits s action = some s') :
    (s'.cancelled = s.cancelled ∧ (s'.stopOnce = s.stopOnce ∨ s.stopOnce = .waiting)) ∨
      s'.cancelled = true := by
  have ofStop : (s.stop.cancelled = s.cancelled ∧ s.stop.stopOnce = s.stopOnce) ∨
      s.stop.cancelled = true := by
    unfold EventQueue.stop
    split
    · exact Or.inr rfl
    · exact Or.inl ⟨rfl, rfl⟩
  cases action
  all_goals
    simp only [queueStep, Option.ite_none_right_eq_some, Option.some.injEq] at taken
  case stopConsuming =>
      cases taken
      rcases ofStop with ⟨same, sameStop⟩ | cancelled
      · exact Or.inl ⟨same, Or.inl sameStop⟩
      · exact Or.inr cancelled
  case close =>
      obtain ⟨_, rfl⟩ := taken
      rcases ofStop with ⟨same, sameStop⟩ | cancelled
      · exact Or.inl ⟨same, Or.inl sameStop⟩
      · exact Or.inr cancelled
  case stopReturns =>
      obtain ⟨⟨waiting, _⟩, rfl⟩ := taken
      exact Or.inl ⟨rfl, Or.inr waiting⟩
  case dropConnection | dropChannel =>
      cases taken
      exact Or.inl ⟨rfl, Or.inl rfl⟩
  case openPublisher opening answer =>
      obtain ⟨_, rfl⟩ := taken
      cases (opening.advance ensurePublisherCalls s.amqp answer).2 <;>
        exact Or.inl ⟨rfl, Or.inl rfl⟩
  case receive connection channel body =>
      obtain ⟨_, taken⟩ := taken
      split at taken
      all_goals
        cases taken
        exact Or.inl ⟨rfl, Or.inl rfl⟩
  case handOff connection channel delivery =>
      obtain ⟨_, taken⟩ := taken
      split at taken
      · cases taken
        exact Or.inl ⟨rfl, Or.inl rfl⟩
      · obtain ⟨_, rfl⟩ := (Option.ite_none_right_eq_some.mp taken).imp id Option.some.inj
        exact Or.inl ⟨rfl, Or.inl rfl⟩
  all_goals
    obtain ⟨_, rfl⟩ := taken
    exact Or.inl ⟨rfl, Or.inl rfl⟩

theorem cancelled_of_step (taken : queueStep codec config limits s action = some s')
    (cancelled : s.cancelled = true) : s'.cancelled = true := by
  rcases step_cancelled taken with ⟨same, _⟩ | now
  · rw [same]
    exact cancelled
  · exact now

/-- The channel is closed by the last step of the loop, no worker stops before the closed channel is
empty, and no operation on the channel panics. -/
structure ChannelSound (s : EventQueue Payload) : Prop where
  closed : s.eventsClosed = true ↔ s.consumeLoop = .returned
  drained : ∀ w, s.workers w = .stopped → s.eventsClosed = true ∧ s.events = []
  unpanicked : s.panicked = false
  cancelled : s.stopOnce ≠ .notCalled → s.cancelled = true

theorem ChannelSound.step_closed (sound : ChannelSound s)
    (taken : queueStep codec config limits s action = some s') :
    s'.eventsClosed = true ↔ s'.consumeLoop = .returned := by
  rw [returned_of_step taken, ← sound.closed]
  have effect := step_flow taken
  change s'.flow.eventsClosed = true ↔ _
  by_cases closes : action = .closeEvents
  · subst closes
    simp only [queueStep, Option.ite_none_right_eq_some, Option.some.injEq] at taken
    obtain ⟨_, rfl⟩ := taken
    simp [EventQueue.flow]
  · simp only [closes, or_false]
    generalize s'.flow = after at effect
    cases effect with
    | closed => exact absurd rfl closes
    | _ => exact Iff.rfl

omit [DecidableEq Payload] in
/-- A closed channel is sent nothing: the loop that sends has returned. -/
theorem ChannelSound.hand_eq_nil (sound : ChannelSound s) (closed : s.eventsClosed = true) :
    s.consumeLoop.hand = [] := by
  rw [sound.closed.mp closed]
  rfl

omit [DecidableEq Payload] in
theorem ChannelSound.step_drained {after : Flow Payload} (sound : ChannelSound s)
    (effect : FlowEffect codec limits s action after) (w : Nat)
    (stopped : after.workers w = .stopped) :
    after.eventsClosed = true ∧ after.events = [] := by
  have before : s.workers w = .stopped → s.eventsClosed = true ∧ s.events = [] := sound.drained w
  cases effect with
  | unchanged => exact before stopped
  | rejected => exact before stopped
  | accepted => exact before stopped
  | handedOff held =>
      rw [sound.hand_eq_nil (before stopped).1] at held
      cases held
  | sentOnClosed => exact before stopped
  | requeued => exact before stopped
  | closed => exact ⟨rfl, (before stopped).2⟩
  | @taken v moved rest _ _ first =>
      by_cases same : w = v
      · subst same
        simp at stopped
      · simp only [Function.update_of_ne same] at stopped
        rw [(before stopped).2] at first
        cases first
  | @handled v =>
      by_cases same : w = v
      · subst same
        simp at stopped
      · simp only [Function.update_of_ne same] at stopped
        exact before stopped
  | stopped _ _ drained closed => exact ⟨closed, drained⟩

omit [DecidableEq Payload] in
theorem ChannelSound.step_unpanicked {after : Flow Payload} (sound : ChannelSound s)
    (effect : FlowEffect codec limits s action after) : after.panicked = false := by
  cases effect with
  | sentOnClosed held closed =>
      rw [sound.hand_eq_nil closed] at held
      cases held
  | closed phase =>
      have isOpen : s.eventsClosed ≠ true := by
        rw [Ne, sound.closed, phase]
        simp
      simp [sound.unpanicked, isOpen]
  | _ => exact sound.unpanicked

theorem ChannelSound.of_step (sound : ChannelSound s)
    (taken : queueStep codec config limits s action = some s') : ChannelSound s' := by
  have effect := step_flow taken
  constructor
  · exact sound.step_closed taken
  · exact sound.step_drained effect
  · exact sound.step_unpanicked effect
  · intro called
    rcases step_cancelled taken with ⟨same, sameStop | waiting⟩ | cancelled
    · rw [sameStop] at called
      rw [same]
      exact sound.cancelled called
    · rw [same]
      exact sound.cancelled (by rw [waiting]; simp)
    · exact cancelled

theorem channelSound (reached : QueueReachable codec config limits s) : ChannelSound s := by
  refine reached.invariant ?_ ?_
  · constructor
    · simp [EventQueue.initial]
    · simp [EventQueue.initial]
    · rfl
    · simp [EventQueue.initial]
  · intro before action after _ sound taken _
    exact sound.of_step taken

/-- The deliveries are conserved in every reachable state. -/
def Conserved (limits : QueueLimits) (s : EventQueue Payload) : Prop :=
  s.flow.Conserved limits

theorem conserved (reached : QueueReachable codec config limits s) : Conserved limits s := by
  refine reached.invariant ?_ ?_
  · constructor
    · intro delivery
      rfl
    · intro delivery
      have nobody : Custody.holdersOf (Finset.range limits.workerCount) PoolWorker.delivery?
          (EventQueue.initial : EventQueue Payload).workers delivery = 0 :=
        Custody.holdersOf_eq_zero_iff.mpr fun _ _ => (Option.some_ne_none _).symm
      exact nobody.symm
    · rfl
  · intro before action after _ inv taken _
    exact (step_flow taken).conserved inv

/-- The settle calls fit in every reachable state. -/
def Fitting (codec : Codec Payload) (s : EventQueue Payload) : Prop :=
  s.flow.Fitting codec s.cancelled

theorem fitting (reached : QueueReachable codec config limits s) : Fitting codec s := by
  refine reached.invariant ?_ ?_
  · constructor
    · exact List.forall_mem_nil _
    · exact List.forall_mem_nil _
    · intro w held phase
      cases phase
    · exact List.forall_mem_nil _
  · intro before action after _ inv taken _
    exact (step_flow taken).fitting inv (cancelled_of_step taken)

/-! ### Exactly one settle call -/

omit [DecidableEq Payload] in
theorem Conserved.count_received (inv : Conserved limits s) {delivery : AmqpDelivery}
    (member : delivery ∈ s.received) : s.received.count delivery = 1 := by
  have once : (s.received.map AmqpDelivery.number).Nodup := by
    have numbered : s.received.map AmqpDelivery.number = _ := inv.numbered
    rw [numbered]
    exact List.nodup_range
  exact List.count_eq_one_of_mem once.of_map member

omit [DecidableEq Payload] in
/-- The settle calls on a delivery are those of the forwarder and those of the workers. -/
theorem length_settlesOf (s : EventQueue Payload) (delivery : AmqpDelivery) :
    (s.settlesOf delivery).length =
      s.settled.countP (fun entry => entry.delivery = delivery ∧ entry.settler = .forwarder) +
        s.settled.countP fun entry => entry.delivery = delivery ∧ entry.settler ≠ .forwarder := by
  rw [EventQueue.settlesOf, ← List.countP_eq_length_filter,
    List.countP_eq_countP_filter_add _ _ fun entry => decide (entry.settler = .forwarder),
    List.countP_filter, List.countP_filter]
  simp only [Bool.decide_and, ne_eq, decide_not]

omit [DecidableEq Payload] in
theorem inProgress_iff {delivery : AmqpDelivery} :
    s.InProgress limits delivery ↔
      0 < s.consumeLoop.hand.countP (fun held => held.delivery = delivery) ∨
        0 < s.events.countP (fun held => held.delivery = delivery) ∨
        Custody.holdersOf (Finset.range limits.workerCount) PoolWorker.delivery? s.workers
          delivery ≠ 0 := by
  rw [Ne, Custody.holdersOf_eq_zero_iff]
  simp [EventQueue.InProgress, List.countP_pos_iff]

omit [DecidableEq Payload] in
/-- A received delivery is in progress and has no settle call, or it has exactly one. -/
theorem Conserved.inProgress_or_settled (inv : Conserved limits s) {delivery : AmqpDelivery}
    (member : delivery ∈ s.received) :
    (s.InProgress limits delivery ∧ (s.settlesOf delivery).length = 0) ∨
      (¬ s.InProgress limits delivery ∧ (s.settlesOf delivery).length = 1) := by
  have once := inv.count_received member
  have forwarded := inv.forwarded delivery
  have worked := inv.worked delivery
  rw [inProgress_iff, length_settlesOf]
  dsimp only [EventQueue.flow] at forwarded worked
  omega

omit [DecidableEq Payload] in
theorem length_takers (s : EventQueue Payload) (delivery : AmqpDelivery) :
    (s.takers delivery).length = s.taken.countP fun pair => pair.1 = delivery := by
  rw [EventQueue.takers, List.length_map, List.countP_eq_length_filter]

omit [DecidableEq Payload] in
/-- A settle call on a received delivery is the right one for it. -/
theorem settledRightly_of_entry (inv : Conserved limits s) (fits : Fitting codec s)
    {delivery : AmqpDelivery} (member : delivery ∈ s.received) {entry : SettleEntry}
    (only : s.settlesOf delivery = [entry]) : SettledRightly codec s delivery entry := by
  have found : entry ∈ s.settled ∧ entry.delivery = delivery := by
    have inside : entry ∈ s.settlesOf delivery := by
      rw [only]
      exact List.mem_cons_self
    simpa [EventQueue.settlesOf] using inside
  obtain ⟨stored, rfl⟩ := found
  have once := inv.count_received member
  have forwarded := inv.forwarded entry.delivery
  have takers := length_takers s entry.delivery
  have known := fits.settled entry stored
  dsimp only [EventQueue.flow] at forwarded known
  cases maker : entry.settler with
  | forwarder =>
      -- the forwarder's call leaves no room for a worker
      have counted : 0 < s.settled.countP fun other =>
          other.delivery = entry.delivery ∧ other.settler = .forwarder :=
        List.countP_pos_iff.mpr ⟨entry, stored, by simp [maker]⟩
      have nobody : s.takers entry.delivery = [] := List.length_eq_zero_iff.mp (by omega)
      simp only [SettleEntry.Fits, maker] at known
      unfold SettledRightly
      rcases known with ⟨undecodable, rejected⟩ | ⟨decodes, requeued, cancelled⟩
      · rw [undecodable]
        exact ⟨maker, rejected, nobody⟩
      · obtain ⟨event, decoded⟩ := Option.ne_none_iff_exists'.mp decodes
        rw [decoded]
        exact Or.inl ⟨maker, requeued, cancelled, nobody⟩
  | worker w =>
      simp only [SettleEntry.Fits, maker] at known
      obtain ⟨decodes, taken⟩ := known
      have inside : w ∈ s.takers entry.delivery :=
        List.mem_map.mpr ⟨(entry.delivery, w), List.mem_filter.mpr ⟨taken, by simp⟩, rfl⟩
      have positive := List.length_pos_of_mem inside
      obtain ⟨other, alone⟩ : ∃ other, s.takers entry.delivery = [other] :=
        List.length_eq_one_iff.mp (by omega)
      have same : w = other := by
        rw [alone] at inside
        exact List.mem_singleton.mp inside
      obtain ⟨event, decoded⟩ := Option.ne_none_iff_exists'.mp decodes
      unfold SettledRightly
      rw [decoded]
      exact Or.inr ⟨w, by rw [alone, same], maker⟩

omit [DecidableEq Payload] in
theorem EventQueue.AllStopped.not_inProgress (stopped : s.AllStopped limits)
    (sound : ChannelSound s) (delivery : AmqpDelivery) : ¬ s.InProgress limits delivery := by
  obtain ⟨closed, drained⟩ := sound.drained 0 (stopped 0 limits.workerCountPositive)
  rintro (⟨held, inHand, _⟩ | ⟨held, buffered, _⟩ | ⟨w, worker, handling⟩)
  · rw [sound.hand_eq_nil closed] at inHand
    cases inHand
  · rw [drained] at buffered
    cases buffered
  · rw [stopped w worker] at handling
    cases handling

/-! ### Shutdown -/

/-- How many failing calls end the opening. -/
def Opening.distance : Opening → Nat
  | .dialling => 1
  | .openingChannel _ => 2
  | .configuring _ _ _ _ => 3
  | .abandoningChannel _ _ _ => 2
  | .abandoningConnection _ _ => 1

/-- How many steps end the loop once the context is cancelled. -/
def ConsumeLoop.distance : ConsumeLoop Payload → Nat
  | .returned => 0
  | .returning => 1
  | .checking | .waiting | .forwarded _ _ => 2
  | .forwarding _ _ | .handingOff _ _ _ | .closingConnection _ => 3
  | .setting _ _ | .closingChannel _ _ => 4
  | .clearing _ _ => 5
  | .opening next => next.distance + 2

def PoolWorker.distance : PoolWorker Payload → Nat
  | .stopped => 0
  | .receiving => 1
  | .handling _ => 2

/-- How many steps of the loop and the workers end the shutdown. -/
def EventQueue.distance (limits : QueueLimits) (s : EventQueue Payload) : Nat :=
  s.consumeLoop.distance + 2 * s.events.length +
    ∑ w ∈ Finset.range limits.workerCount, (s.workers w).distance

omit [DecidableEq Payload] in
theorem distance_afterOpening (opening : Opening) (amqp : Amqp) :
    (ConsumeLoop.afterOpening (opening.advance openConsumerCalls amqp (some "")).2 :
      ConsumeLoop Payload).distance < opening.distance + 2 := by
  cases opening with
  | dialling => exact Nat.lt_succ_self 2
  | openingChannel => exact Nat.lt_succ_self 3
  | configuring => exact Nat.lt_succ_self 4
  | abandoningChannel => exact Nat.lt_succ_self 3
  | abandoningConnection => exact Nat.lt_succ_self 2

/-- A step that the consumer loop, a worker or a running `Publish` or `Close` takes by itself: not
one of the broker and not a call by somebody else. -/
def QueueAction.Own : QueueAction Payload → Prop
  | .dropConnection _ | .dropChannel _ | .receive _ _ _ | .deliveriesClosed _ _ => False
  | .publish | .publishReturns _ | .stopConsuming | .close => False
  | _ => True

variable (codec config limits)

/-- After the cancellation the loop can always come closer to its end, without another delivery. -/
theorem exists_loop_step (cancelled : s.cancelled = true) (runs : s.consumeLoop ≠ .returned) :
    ∃ action after, action.Own ∧ queueStep codec config limits s action = some after ∧
      after.consumeLoop.distance < s.consumeLoop.distance ∧ after.events = s.events ∧
      after.workers = s.workers ∧ after.received = s.received := by
  cases phase : s.consumeLoop with
  | returned => exact absurd phase runs
  | checking =>
      refine ⟨.checkContext, _, trivial, if_pos phase, ?_, rfl, rfl, rfl⟩
      simp [cancelled, ConsumeLoop.distance]
  | opening next =>
      refine ⟨.openConsumer next (some ""), _, trivial, if_pos phase, ?_, rfl, rfl, rfl⟩
      exact distance_afterOpening next s.amqp
  | setting connection channel =>
      exact ⟨.setConsumer connection channel, _, trivial, if_pos phase, Nat.lt_succ_self 3, rfl, rfl,
        rfl⟩
  | forwarding connection channel =>
      exact ⟨.forwardCancelled connection channel, _, trivial, if_pos ⟨phase, cancelled⟩,
        Nat.lt_succ_self 2, rfl, rfl, rfl⟩
  | handingOff connection channel delivery =>
      exact ⟨.handOffCancelled connection channel delivery, _, trivial, if_pos ⟨phase, cancelled⟩,
        Nat.lt_succ_self 2, rfl, rfl, rfl⟩
  | forwarded connection channel =>
      refine ⟨.afterForward connection channel, _, trivial, if_pos phase, ?_, rfl, rfl, rfl⟩
      simp [cancelled, ConsumeLoop.distance]
  | clearing connection channel =>
      exact ⟨.clearConsumer connection channel, _, trivial, if_pos phase, Nat.lt_succ_self 4, rfl,
        rfl, rfl⟩
  | closingChannel connection channel =>
      exact ⟨.closeConsumerChannel connection channel none, _, trivial, if_pos phase,
        Nat.lt_succ_self 3, rfl, rfl, rfl⟩
  | closingConnection connection =>
      exact ⟨.closeConsumerConnection connection, _, trivial, if_pos phase, Nat.lt_succ_self 2, rfl,
        rfl, rfl⟩
  | waiting =>
      exact ⟨.retryCancelled, _, trivial, if_pos ⟨phase, cancelled⟩, Nat.lt_succ_self 1, rfl, rfl,
        rfl⟩
  | returning => exact ⟨.closeEvents, _, trivial, if_pos phase, Nat.lt_succ_self 0, rfl, rfl, rfl⟩

/-- After the loop has returned the workers can always come closer to their end. -/
theorem exists_worker_step (sound : ChannelSound s) (ended : s.consumeLoop = .returned)
    (unfinished : s.distance limits ≠ 0) :
    ∃ action after, action.Own ∧ queueStep codec config limits s action = some after ∧
      after.distance limits < s.distance limits ∧ after.received = s.received := by
  -- a worker that changes its state changes the sum of the distances by its own share
  have moves : ∀ {w : Nat}, w < limits.workerCount → ∀ new : PoolWorker Payload,
      ∑ v ∈ Finset.range limits.workerCount, (Function.update s.workers w new v).distance +
          (s.workers w).distance =
        ∑ v ∈ Finset.range limits.workerCount, (s.workers v).distance + new.distance := by
    intro w worker new
    exact Custody.sum_update PoolWorker.distance s.workers (Finset.mem_range.mpr worker) new
  have closed := sound.closed.mpr ended
  by_cases busy : ∃ w < limits.workerCount, ∃ held, s.workers w = .handling held
  · obtain ⟨w, worker, held, holds⟩ := busy
    refine ⟨.handle w held (Answers.quiet 0 fun _ => none) Database.empty Metrics.new, _, trivial,
      if_pos ⟨worker, holds⟩, ?_, rfl⟩
    have sum := moves worker .receiving
    rw [holds] at sum
    simp only [EventQueue.distance, EventQueue.setWorker, PoolWorker.distance] at sum ⊢
    omega
  · cases buffer : s.events with
    | cons held rest =>
        -- no worker has stopped while the buffer is not empty
        have worker := limits.workerCountPositive
        have free : s.workers 0 = .receiving := by
          cases phase : s.workers 0 with
          | receiving => rfl
          | handling other => exact absurd ⟨0, worker, other, phase⟩ busy
          | stopped =>
              rw [(sound.drained 0 phase).2] at buffer
              cases buffer
        refine ⟨.take 0 held rest, _, trivial, if_pos ⟨worker, free, buffer⟩, ?_, rfl⟩
        have sum := moves worker (.handling held)
        rw [free] at sum
        simp only [EventQueue.distance, EventQueue.setWorker, PoolWorker.distance, buffer,
          List.length_cons] at sum ⊢
        omega
    | nil =>
        have left : ∃ w < limits.workerCount, s.workers w = .receiving := by
          by_contra none
          apply unfinished
          have idle : ∀ w ∈ Finset.range limits.workerCount, (s.workers w).distance = 0 := by
            intro w member
            have worker := Finset.mem_range.mp member
            cases phase : s.workers w with
            | receiving => exact absurd ⟨w, worker, phase⟩ none
            | handling other => exact absurd ⟨w, worker, other, phase⟩ busy
            | stopped => rfl
          rw [EventQueue.distance, Finset.sum_eq_zero idle, ended, buffer]
          rfl
        obtain ⟨w, worker, free⟩ := left
        refine ⟨.stopWorker w, _, trivial, if_pos ⟨worker, free, buffer, closed⟩, ?_, rfl⟩
        have sum := moves worker .stopped
        rw [free] at sum
        simp only [EventQueue.distance, EventQueue.setWorker, PoolWorker.distance] at sum ⊢
        omega

/-- A reachable state after the cancellation with the given deliveries received. -/
structure ShuttingDown (received : List AmqpDelivery) (s : EventQueue Payload) : Prop where
  reached : QueueReachable codec config limits s
  cancelled : s.cancelled = true
  same : s.received = received

variable {codec config limits}

theorem ShuttingDown.descends {received : List AmqpDelivery}
    (down : ShuttingDown codec config limits received s) (unfinished : s.distance limits ≠ 0) :
    ∃ action after, action.Own ∧ queueStep codec config limits s action = some after ∧
      ShuttingDown codec config limits received after ∧
      after.distance limits < s.distance limits := by
  have kept : ∀ {action : QueueAction Payload} {after : EventQueue Payload},
      queueStep codec config limits s action = some after → after.received = s.received →
      ShuttingDown codec config limits received after := by
    intro action after taken same
    exact
      { reached := down.reached.step taken trivial
        cancelled := cancelled_of_step taken down.cancelled
        same := same.trans down.same }
  by_cases ended : s.consumeLoop = .returned
  · obtain ⟨action, after, own, taken, closer, same⟩ :=
      exists_worker_step codec config limits (channelSound down.reached) ended unfinished
    exact ⟨action, after, own, taken, kept taken same, closer⟩
  · obtain ⟨action, after, own, taken, closer, events, workers, same⟩ :=
      exists_loop_step codec config limits down.cancelled ended
    refine ⟨action, after, own, taken, kept taken same, ?_⟩
    unfold EventQueue.distance
    rw [events, workers]
    omega

omit [DecidableEq Payload] in
theorem allStopped_of_distance (done : s.distance limits = 0) : s.AllStopped limits := by
  intro w worker
  have sum : ∑ v ∈ Finset.range limits.workerCount, (s.workers v).distance = 0 := by
    unfold EventQueue.distance at done
    omega
  have ended := Finset.sum_eq_zero_iff.mp sum w (Finset.mem_range.mpr worker)
  cases phase : s.workers w with
  | stopped => rfl
  | receiving =>
      rw [phase] at ended
      cases ended
  | handling held =>
      rw [phase] at ended
      cases ended

/-- From every reachable state a shutdown can be brought to its end without another delivery. -/
theorem exists_shutdown (reached : QueueReachable codec config limits s) :
    ∃ actions final, run (queueStep codec config limits) s actions = some final ∧
      final.AllStopped limits ∧ final.received = s.received := by
  have stopped : queueStep codec config limits s .stopConsuming = some s.stop := rfl
  have cancelled : s.stop.cancelled = true := by
    unfold EventQueue.stop
    split
    · rfl
    · exact (channelSound reached).cancelled ‹_›
  have down : ShuttingDown codec config limits s.received s.stop :=
    { reached := reached.step stopped trivial
      cancelled := cancelled
      same := congrArg Flow.received (flow_stop s) }
  obtain ⟨actions, final, ran, _, after, done⟩ :=
    Possible.of_descends (EventQueue.distance limits) (fun _ => ShuttingDown.descends) down
  exact ⟨.stopConsuming :: actions, final, (run_cons stopped actions).trans ran,
    allStopped_of_distance done, after.same⟩

/-- Over every schedule of the broker, the consumer loop, the workers, `Publish`, `StopConsuming`
and `Close`: nothing is sent on the closed channel; a received delivery is on its way to a worker
without a settle call, or has exactly one, the right one; when `workers.Wait` returns they all have;
and the shutdown can always be brought to that point. -/
theorem deliveries_settled_once (reached : QueueReachable codec config limits s) :
    s.panicked = false ∧
      (∀ delivery ∈ s.received,
        (s.InProgress limits delivery ∧ s.settlesOf delivery = []) ∨
          (¬ s.InProgress limits delivery ∧
            ∃ entry, s.settlesOf delivery = [entry] ∧ SettledRightly codec s delivery entry)) ∧
      (s.AllStopped limits → ∀ delivery ∈ s.received,
        ∃ entry, s.settlesOf delivery = [entry] ∧ SettledRightly codec s delivery entry) ∧
      ∃ actions final, run (queueStep codec config limits) s actions = some final ∧
        final.AllStopped limits ∧ final.received = s.received := by
  have sound := channelSound reached
  have inv := conserved reached
  have settled : ∀ delivery ∈ s.received, (s.settlesOf delivery).length = 1 →
      ∃ entry, s.settlesOf delivery = [entry] ∧ SettledRightly codec s delivery entry := by
    intro delivery member once
    obtain ⟨entry, only⟩ := List.length_eq_one_iff.mp once
    exact ⟨entry, only, settledRightly_of_entry inv (fitting reached) member only⟩
  refine ⟨sound.unpanicked, ?_, ?_, exists_shutdown reached⟩
  · intro delivery member
    rcases inv.inProgress_or_settled member with ⟨progress, none⟩ | ⟨ended, once⟩
    · exact Or.inl ⟨progress, List.length_eq_zero_iff.mp none⟩
    · exact Or.inr ⟨ended, settled delivery member once⟩
  · intro stopped delivery member
    rcases inv.inProgress_or_settled member with ⟨progress, _⟩ | ⟨_, once⟩
    · exact absurd progress (stopped.not_inProgress sound delivery)
    · exact settled delivery member once

end Steps

/-! ### A shutdown with deliveries on their way -/

/-- Payload texts of which the empty one does not decode. -/
def Codec.nonemptyText : Codec String :=
  { marshal := some
    unmarshal := fun text => if text = "" then none else some text }

/-- The sample event as the delivery with the given number. -/
def Sample.delivered (number : Nat) : EventDelivery String :=
  { event := Sample.event
    delivery :=
      { number := number
        body := Sample.body } }

/-- An undecodable delivery, one that worker 0 takes, and one that the forwarder still holds when
the context is cancelled. -/
def shutdownRun : List (QueueAction String) :=
  openConsumerCallsOn 0 (Sample.channel 0) ++
    [.receive 0 (Sample.channel 0) { Sample.body with payload := "" },
      .receive 0 (Sample.channel 0) Sample.body,
      .handOff 0 (Sample.channel 0) (Sample.delivered 1),
      .take 0 (Sample.delivered 1) [],
      .receive 0 (Sample.channel 0) Sample.body,
      .stopConsuming,
      .handOffCancelled 0 (Sample.channel 0) (Sample.delivered 2),
      .afterForward 0 (Sample.channel 0),
      .closeEvents,
      .stopReturns,
      .handle 0 (Sample.delivered 1) (Answers.quiet 0 fun _ => none) Database.empty Metrics.new,
      .stopWorker 0]

set_option maxRecDepth 4000 in
theorem deliveries_settled_once_of_shutdownRun :
    ∃ s, run (queueStep Codec.nonemptyText (readConfig fun _ => none) Sample.limits)
        EventQueue.initial shutdownRun = some s ∧
      s.settled.map (fun entry => (entry.delivery.number, entry.settler, entry.call)) =
        [(0, .forwarder, .nack false), (2, .forwarder, .nack true), (1, .worker 0, .nack false)] ∧
      ∀ delivery ∈ s.received, ∃ entry, s.settlesOf delivery = [entry] ∧
        SettledRightly Codec.nonemptyText s delivery entry := by
  have ran : (run (queueStep Codec.nonemptyText (readConfig fun _ => none) Sample.limits)
      EventQueue.initial shutdownRun).map (fun s => (s.workers 0, s.settled.map fun entry =>
        (entry.delivery.number, entry.settler, entry.call))) =
      some (.stopped,
        [(0, .forwarder, .nack false), (2, .forwarder, .nack true),
          (1, .worker 0, .nack false)]) := by
    decide +kernel
  obtain ⟨s, reaches, both⟩ := Option.map_eq_some_iff.mp ran
  obtain ⟨first, settled⟩ := Prod.mk.inj both
  have stopped : s.AllStopped Sample.limits := by
    intro w worker
    rw [Nat.lt_one_iff.mp worker]
    exact first
  exact ⟨s, reaches, settled,
    (deliveries_settled_once (Reachable.of_run reaches)).2.2.1 stopped⟩

end WebhookProcessor
