/-
Module: WebhookProcessor.Proofs.Backpressure
Layer: Proofs
Purpose: What the buffered `events` channel guarantees between `forwardDeliveries` and the workers.
  The deliveries that were not turned away go through it in the order in which the broker sent them,
  and since the forwarder waits while the buffer is full, the process never owes the broker more
  settle calls than the buffer, the workers and the forwarder's one hand can hold.
Trusted boundary: Go channels
Main exports: EventQueue.passed, EventQueue.unsettled, taken_in_order, unsettled_bounded
-/
import WebhookProcessor.Proofs.Settlement

namespace WebhookProcessor

open Transition

variable {Payload : Type}

/-! ### Order -/

/-- The deliveries meant for the workers in the order of the channel: taken from it, in its buffer,
and in the forwarder's hand. -/
def Flow.passed (flow : Flow Payload) : List AmqpDelivery :=
  flow.taken.map Prod.fst ++ (flow.events ++ flow.hand).map EventDelivery.delivery

namespace EventQueue

def passed (s : EventQueue Payload) : List AmqpDelivery := s.flow.passed

/-- The forwarder itself settled the delivery. -/
def TurnedAway (s : EventQueue Payload) (delivery : AmqpDelivery) : Prop :=
  ∃ entry ∈ s.settled, entry.delivery = delivery ∧ entry.settler = .forwarder

instance (s : EventQueue Payload) (delivery : AmqpDelivery) : Decidable (s.TurnedAway delivery) :=
  inferInstanceAs (Decidable (∃ entry ∈ s.settled, _ ∧ _))

/-- The deliveries for which the broker still waits for a settle call. -/
def unsettled (s : EventQueue Payload) : List AmqpDelivery :=
  s.received.filter fun delivery => s.settlesOf delivery = []

end EventQueue

/-- Nothing overtakes on the way. -/
def Flow.InOrder (flow : Flow Payload) : Prop := flow.passed.Sublist flow.received

section Steps

variable {codec : Codec Payload} {config : LoadedConfig} {limits : QueueLimits}
  {s s' : EventQueue Payload} {action : QueueAction Payload}

theorem FlowEffect.inOrder {after : Flow Payload}
    (effect : FlowEffect codec limits s action after) (inv : s.flow.InOrder) : after.InOrder := by
  unfold Flow.InOrder Flow.passed at inv ⊢
  simp only [EventQueue.flow, List.map_append] at inv
  cases effect with
  | unchanged | sentOnClosed | closed | handled | stopped =>
      simpa only [EventQueue.flow, List.map_append] using inv
  | rejected =>
      simp only [EventQueue.flow, List.map_append]
      exact inv.trans (List.sublist_append_left _ _)
  | @accepted _ _ body _ free _ =>
      rw [free] at inv
      simpa [EventQueue.flow] using inv.append (List.Sublist.refl [s.incoming body])
  | handedOff held =>
      rw [held] at inv
      simpa [EventQueue.flow] using inv
  | requeued held =>
      -- the delivery given back is the last one
      rw [held] at inv
      simp only [EventQueue.flow, List.map_cons, List.map_nil, List.append_nil,
        ← List.append_assoc] at inv ⊢
      exact (List.sublist_append_left _ _).trans inv
  | taken _ _ first =>
      rw [first] at inv
      simpa [EventQueue.flow] using inv

/-- The deliveries pass in order in every reachable state. -/
def InOrder (s : EventQueue Payload) : Prop := s.flow.InOrder

variable [DecidableEq Payload]

theorem inOrder (reached : QueueReachable codec config limits s) : InOrder s := by
  refine reached.invariant ?_ ?_
  · exact List.Sublist.refl _
  · intro before action after _ inv taken _
    exact (step_flow taken).inOrder inv

omit [DecidableEq Payload] in
theorem count_passed (s : EventQueue Payload) (delivery : AmqpDelivery) :
    s.passed.count delivery =
      s.consumeLoop.hand.countP (fun held => held.delivery = delivery) +
        s.events.countP (fun held => held.delivery = delivery) +
        s.taken.countP fun pair => pair.1 = delivery := by
  simp only [EventQueue.passed, Flow.passed, EventQueue.flow, List.map_append,
    List.count_eq_countP, List.countP_append, List.countP_map, Function.comp_def, beq_eq_decide]
  omega

omit [DecidableEq Payload] in
/-- What was received and not turned away has passed or is passing. -/
theorem Conserved.passed_perm (inv : Conserved limits s) :
    s.passed.Perm (s.received.filter fun delivery => ¬ s.TurnedAway delivery) := by
  rw [List.perm_iff_count]
  intro delivery
  have forwarded := inv.forwarded delivery
  have once : s.received.count delivery ≤ 1 := by
    by_cases member : delivery ∈ s.received
    · exact Nat.le_of_eq (inv.count_received member)
    · rw [List.count_eq_zero_of_not_mem member]
      exact Nat.zero_le 1
  dsimp only [EventQueue.flow] at forwarded
  rw [count_passed]
  by_cases away : s.TurnedAway delivery
  · have none : (s.received.filter fun other => ¬ s.TurnedAway other).count delivery = 0 := by
      apply List.count_eq_zero_of_not_mem
      simp [away]
    have some : 0 < s.settled.countP fun entry =>
        entry.delivery = delivery ∧ entry.settler = .forwarder := by
      obtain ⟨entry, member, both⟩ := away
      exact List.countP_pos_iff.mpr ⟨entry, member, by simpa using both⟩
    omega
  · have all : (s.received.filter fun other => ¬ s.TurnedAway other).count delivery =
        s.received.count delivery := List.count_filter (by simpa using away)
    have none : (s.settled.countP fun entry =>
        entry.delivery = delivery ∧ entry.settler = .forwarder) = 0 := by
      apply List.countP_eq_zero.mpr
      intro entry member both
      exact away ⟨entry, member, by simpa using both⟩
    omega

omit [DecidableEq Payload] in
theorem Conserved.received_increasing (inv : Conserved limits s) :
    s.received.Pairwise fun first second => first.number < second.number := by
  rw [← List.pairwise_map (f := AmqpDelivery.number)]
  have numbered : s.received.map AmqpDelivery.number = _ := inv.numbered
  rw [numbered]
  exact List.pairwise_lt_range

/-- The deliveries that workers took, followed by those in the buffer and the one in the forwarder's
hand, are the received deliveries that the forwarder did not turn away, in the order in which they
were received. -/
theorem taken_in_order (reached : QueueReachable codec config limits s) :
    s.taken.map Prod.fst ++ (s.events ++ s.consumeLoop.hand).map EventDelivery.delivery =
      s.received.filter fun delivery => ¬ s.TurnedAway delivery := by
  have inv := conserved reached
  have ordered := inv.received_increasing
  have apart : ∀ first second : AmqpDelivery, first ∈ s.passed →
      second ∈ s.received.filter (fun delivery => ¬ s.TurnedAway delivery) →
      first.number < second.number → second.number < first.number → first = second := by
    intro first second _ _ below above
    exact absurd above (Nat.not_lt.mpr (Nat.le_of_lt below))
  exact inv.passed_perm.eq_of_pairwise apart (ordered.sublist (inOrder reached))
    (ordered.sublist List.filter_sublist)

/-! ### Backpressure -/

/-- The buffer never holds more than `QueueSize` deliveries. -/
def WithinCapacity (limits : QueueLimits) (s : EventQueue Payload) : Prop :=
  s.events.length ≤ limits.capacity

theorem WithinCapacity.of_step (within : WithinCapacity limits s)
    (taken : queueStep codec config limits s action = some s') : WithinCapacity limits s' := by
  unfold WithinCapacity at within ⊢
  have moved := step_flow taken
  generalize after : s'.flow = flow at moved
  have events : s'.events = flow.events := congrArg Flow.events after
  rw [events]
  cases moved with
  | handedOff held isOpen =>
      -- the send waits while the buffer is full
      simp only [queueStep, isOpen, Bool.false_eq_true, if_false] at taken
      split at taken
      · split at taken
        · rename_i room
          simp only [List.length_append, List.length_singleton]
          exact room
        · cases taken
      · cases taken
  | taken _ _ first =>
      rw [first] at within
      exact Nat.le_of_succ_le within
  | _ => exact within

theorem withinCapacity (reached : QueueReachable codec config limits s) :
    WithinCapacity limits s := by
  refine reached.invariant ?_ ?_
  · exact Nat.zero_le _
  · intro before action after _ inv taken _
    exact inv.of_step taken

omit [DecidableEq Payload] in
theorem length_hand_le (loop : ConsumeLoop Payload) : loop.hand.length ≤ 1 := by
  cases loop <;> simp [ConsumeLoop.hand]

omit [DecidableEq Payload] in
/-- A received delivery without a settle call is in the forwarder's hand, in the buffer or with a
worker. -/
theorem Conserved.unsettled_subset (inv : Conserved limits s) :
    s.unsettled ⊆ s.consumeLoop.hand.map EventDelivery.delivery ++
      (s.events.map EventDelivery.delivery ++
        (List.range limits.workerCount).filterMap fun w => (s.workers w).delivery?) := by
  intro delivery waiting
  obtain ⟨member, none⟩ := List.mem_filter.mp waiting
  have zero : (s.settlesOf delivery).length = 0 := by
    rw [of_decide_eq_true none]
    rfl
  rcases inv.inProgress_or_settled member with ⟨inProgress, _⟩ | ⟨_, one⟩
  · simpa [EventQueue.InProgress] using inProgress
  · omega

/-- At every moment the buffer holds at most `QueueSize` deliveries, and at most
`QueueSize + WorkerCount + 1` received deliveries wait for their settle call. -/
theorem unsettled_bounded (reached : QueueReachable codec config limits s) :
    s.events.length ≤ limits.capacity ∧
      s.unsettled.length ≤ limits.capacity + limits.workerCount + 1 := by
  have inv := conserved reached
  have within := withinCapacity reached
  have once : s.unsettled.Nodup := by
    have received : s.received.Nodup := inv.received_increasing.imp fun below same => by
      rw [same] at below
      exact Nat.lt_irrefl _ below
    exact received.filter _
  have held := (once.subperm inv.unsettled_subset).length_le
  have hand := length_hand_le s.consumeLoop
  have workers := List.length_filterMap_le (fun w => (s.workers w).delivery?)
    (List.range limits.workerCount)
  simp only [List.length_append, List.length_map, List.length_range] at held workers
  unfold WithinCapacity at within
  exact ⟨within, by omega⟩

end Steps

/-- Four deliveries arrive: the first does not decode, the others fill the worker, the buffer and
the forwarder's hand. -/
def fullRun : List (QueueAction String) :=
  openConsumerCallsOn 0 (Sample.channel 0) ++
    [.receive 0 (Sample.channel 0) { Sample.body with payload := "" },
      .receive 0 (Sample.channel 0) Sample.body,
      .handOff 0 (Sample.channel 0) (Sample.delivered 1),
      .take 0 (Sample.delivered 1) [],
      .receive 0 (Sample.channel 0) Sample.body,
      .handOff 0 (Sample.channel 0) (Sample.delivered 2),
      .receive 0 (Sample.channel 0) Sample.body]

set_option maxRecDepth 4000 in
theorem taken_in_order_of_fullRun :
    ∃ s, run (queueStep Codec.nonemptyText (readConfig fun _ => none) Sample.limits)
        EventQueue.initial fullRun = some s ∧
      (s.taken.length, s.events.length, s.consumeLoop.hand.length, s.received.length) =
        (1, 1, 1, 4) ∧
      s.taken.map Prod.fst ++ (s.events ++ s.consumeLoop.hand).map EventDelivery.delivery =
        s.received.filter fun delivery => ¬ s.TurnedAway delivery := by
  have ran : (run (queueStep Codec.nonemptyText (readConfig fun _ => none) Sample.limits)
      EventQueue.initial fullRun).map (fun s => (s.taken.length, s.events.length,
        s.consumeLoop.hand.length, s.received.length)) = some (1, 1, 1, 4) := by
    decide +kernel
  obtain ⟨s, reaches, lengths⟩ := Option.map_eq_some_iff.mp ran
  exact ⟨s, reaches, lengths, taken_in_order (Reachable.of_run reaches)⟩

set_option maxRecDepth 4000 in
/-- The bound is attained. -/
theorem unsettled_bounded_of_fullRun :
    ∃ s, run (queueStep Codec.nonemptyText (readConfig fun _ => none) Sample.limits)
        EventQueue.initial fullRun = some s ∧
      s.unsettled.length = Sample.limits.capacity + Sample.limits.workerCount + 1 ∧
      s.events.length ≤ Sample.limits.capacity := by
  have ran : (run (queueStep Codec.nonemptyText (readConfig fun _ => none) Sample.limits)
      EventQueue.initial fullRun).map (fun s => s.unsettled.length) = some 3 := by
    decide +kernel
  obtain ⟨s, reaches, length⟩ := Option.map_eq_some_iff.mp ran
  exact ⟨s, reaches, length, (unsettled_bounded (Reachable.of_run reaches)).1⟩

end WebhookProcessor
