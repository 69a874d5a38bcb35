/-
Module: WebhookProcessor.Proofs.PartyProgress
Layer: Proofs
Purpose: What the workers and dispatchers of a service of fixed size can bring to an end by steps in
  which nothing fails.  When no transaction is open, a worker finishes the delivery it has and a
  dispatcher the batch it has.  An idle worker takes the oldest message out of the queue for good, and
  an idle dispatcher sends the unpublished rows, batch by batch, until the row in question is sent.
Trusted boundary: `Codec.Lawful`
Main exports: Fleet, Action.FaultFree, Action.Regular, Governed, Calm, Rests, rests_of_phase,
  rests_of_head, idles_of_phase, sends_row
-/
import WebhookProcessor.Proofs.DeliveryRuns
import WebhookProcessor.Proofs.LockOrder
import WebhookProcessor.Proofs.NoStranding
import WebhookProcessor.Proofs.OutboxProgress
import WebhookProcessor.Proofs.Representation

namespace WebhookProcessor

open Transition

variable {Payload : Type}

/-! ### Steps in which nothing fails -/

/-- How many workers and dispatchers the service runs. -/
structure Fleet where
  workers : Nat
  dispatchers : Nat

/-- Whoever acts belongs to the fleet. -/
structure Action.Of (fleet : Fleet) (action : Action Payload) : Prop where
  worker : ∀ w ∈ action.worker?, w < fleet.workers
  dispatcher : ∀ d ∈ action.dispatcher?, d < fleet.dispatchers

/-- No crash, no rollback on an error and no lost connection; every statement is executed and
answered, dispatchers ask for batches of the configured size, the broker confirms and delivers the
oldest message, and the processor returns no error. -/
def Action.FaultFree (config : Config) : Action Payload → Prop
  | .tick _ => True
  | .insertEvent _ _ _ _ => True
  | .rejectDuplicate _ _ _ => True
  | .insertOutbox _ _ _ _ => True
  | .commitSave _ _ _ _ _ outcome => outcome = .ok
  | .replay _ _ => True
  | .replaySelect _ _ => True
  | .replayResetEvent _ _ _ _ _ _ => True
  | .replayReopenOutbox _ _ => True
  | .replayMarkDeadLetter _ _ => True
  | .replayCommit _ _ error => error = none
  | .claimPendingOutbox _ limit _ _ _ outcome => limit = config.outboxBatchSize ∧ outcome = .ok
  | .publishConfirmed _ _ _ _ _ => True
  | .markOutboxPublished _ _ _ _ _ _ outcome => outcome = .ok
  | .markOutboxFailed _ _ _ _ outcome => outcome = .ok
  | .deliver _ index _ _ => index = 0
  | .claimForProcessing _ _ _ outcome => outcome = .ok
  | .readClaimStatus _ _ outcome => outcome = .ok
  | .processorReturns _ _ _ error => error = none
  | .markProcessed _ _ _ _ outcome => outcome = .ok
  | .saveDeadLetter _ _ _ _ _ _ outcome => outcome = .ok
  | .markFailed _ _ _ _ _ outcome => outcome = .ok
  | .returns _ _ _ _ => True
  | .settle _ _ _ => True
  | _ => False

/-- A step of the fleet in which nothing fails. -/
structure Action.Regular (config : Config) (fleet : Fleet) (action : Action Payload) : Prop where
  faultFree : action.FaultFree config
  own : action.Of fleet

instance (fleet : Fleet) (action : Action Payload) : Decidable (action.Of fleet) :=
  decidable_of_iff ((∀ w ∈ action.worker?, w < fleet.workers) ∧
    ∀ d ∈ action.dispatcher?, d < fleet.dispatchers)
    ⟨fun both => ⟨both.1, both.2⟩, fun own => ⟨own.worker, own.dispatcher⟩⟩

/-- Any step of the fleet, except that no dispatcher marks a row that was reopened since. -/
structure Governed (fleet : Fleet) (before : System Payload) (action : Action Payload)
    (after : System Payload) : Prop where
  own : action.Of fleet
  marks : MarksCurrentOpening before action after

instance (fleet : Fleet) (before : System Payload) (action : Action Payload)
    (after : System Payload) : Decidable (Governed fleet before action after) :=
  decidable_of_iff (action.Of fleet ∧ MarksCurrentOpening before action after)
    ⟨fun both => ⟨both.1, both.2⟩, fun governed => ⟨governed.own, governed.marks⟩⟩

namespace Action

variable {config : Config} {fleet : Fleet} {action : Action Payload}

/-- A worker is neither a dispatcher nor the owner of a transaction. -/
theorem silent_of_worker {w : Nat} (acts : action.worker? = some w) :
    action.dispatcher? = none ∧ action.owner? = none := by
  cases action <;> first | exact ⟨rfl, rfl⟩ | cases acts

theorem silent_of_dispatcher {d : Nat} (acts : action.dispatcher? = some d) :
    action.worker? = none ∧ action.owner? = none := by
  cases action <;> first | exact ⟨rfl, rfl⟩ | cases acts

theorem Regular.of_worker {w : Nat} (own : w < fleet.workers) (acts : action.worker? = some w)
    (faultFree : action.FaultFree config) : action.Regular config fleet := by
  refine ⟨faultFree, ?_, ?_⟩
  · intro other same
    cases acts.symm.trans same
    exact own
  · intro d same
    cases (silent_of_worker acts).1.symm.trans same

theorem Regular.of_dispatcher {d : Nat} (own : d < fleet.dispatchers)
    (acts : action.dispatcher? = some d) (faultFree : action.FaultFree config) :
    action.Regular config fleet := by
  refine ⟨faultFree, ?_, ?_⟩
  · intro w same
    cases (silent_of_dispatcher acts).1.symm.trans same
  · intro other same
    cases acts.symm.trans same
    exact own

theorem Of.of_silent (noWorker : action.worker? = none) (noDispatcher : action.dispatcher? = none) :
    action.Of fleet := by
  constructor
  · intro w same
    cases noWorker.symm.trans same
  · intro d same
    cases noDispatcher.symm.trans same

theorem Regular.of_silent (noWorker : action.worker? = none)
    (noDispatcher : action.dispatcher? = none) (faultFree : action.FaultFree config) :
    action.Regular config fleet :=
  ⟨faultFree, .of_silent noWorker noDispatcher⟩

/-- The transactions are not run by the fleet. -/
theorem Proceeds.silent (proceeds : action.Proceeds) :
    action.worker? = none ∧ action.dispatcher? = none := by
  cases action <;> first | exact ⟨rfl, rfl⟩ | exact proceeds.elim

theorem Proceeds.regular (proceeds : action.Proceeds) : action.Regular config fleet := by
  refine .of_silent proceeds.silent.1 proceeds.silent.2 ?_
  cases action <;> first | exact proceeds | exact proceeds.elim

end Action

/-- Only a dispatcher marks an outbox row published. -/
theorem marks_of_silent {action : Action Payload} (silent : action.dispatcher? = none)
    (before after : System Payload) : MarksCurrentOpening before action after := by
  cases action with
  | markOutboxPublished => cases silent
  | _ => trivial

theorem Governed.of_silent {fleet : Fleet} {action : Action Payload}
    (noWorker : action.worker? = none) (noDispatcher : action.dispatcher? = none)
    (before after : System Payload) : Governed fleet before action after :=
  ⟨.of_silent noWorker noDispatcher, marks_of_silent noDispatcher before after⟩

variable [DecidableEq Payload] {codec : Codec Payload} {config : Config} {fleet : Fleet}
  {s s' : System Payload} {action : Action Payload}

variable (codec config fleet) in
/-- No transaction is open. -/
structure Calm (s : System Payload) : Prop where
  reached : ReachableVia codec config (Governed fleet) s
  ended : ∀ owner, s.left owner = 0

namespace Calm

theorem unlocked (calm : Calm codec config fleet s) (row : RowRef) : s.db.locks row = none :=
  unlocked_of_left calm.reached.reachable calm.ended row

theorem step (calm : Calm codec config fleet s) (taken : step codec config s action = some s')
    (regular : action.Regular config fleet) (marks : MarksCurrentOpening s action s')
    (apart : action.owner? = none) : Calm codec config fleet s' :=
  { reached := calm.reached.step taken ⟨regular.own, marks⟩
    ended := by
      intro owner
      rw [left_of_other taken (by simp [apart])]
      exact calm.ended owner }

/-- The clock goes on by a lease. -/
theorem tick (calm : Calm codec config fleet s) (lease : Time) :
    ∃ later, WebhookProcessor.step codec config s (.tick lease.toNat) = some later ∧
      Calm codec config fleet later ∧ s.clock + lease ≤ later.clock ∧ later.db = s.db ∧
      later.ready = s.ready ∧ later.workers = s.workers ∧ later.dispatchers = s.dispatchers := by
  have ticked : WebhookProcessor.step codec config s (.tick lease.toNat) = some _ := rfl
  exact ⟨_, ticked, calm.step ticked (.of_silent rfl rfl trivial) trivial rfl,
    Int.add_le_add_left (Int.self_le_toNat _) _, rfl, rfl, rfl, rfl⟩

end Calm

theorem step_worker_other (taken : step codec config s action = some s') {w : Nat}
    (other : action.worker? ≠ some w) : s'.workers w = s.workers w := by
  have effect := step_worker taken w
  generalize s'.workers w = worker at effect
  cases effect with
  | unchanged => rfl
  | _ => exact absurd rfl other

/-- Only workers of the fleet are busy. -/
def BusyInFleet (fleet : Fleet) (s : System Payload) : Prop :=
  ∀ w, s.workers w ≠ Worker.idle → w < fleet.workers

theorem busyInFleet (reached : ReachableVia codec config (Governed fleet) s) :
    BusyInFleet fleet s := by
  refine reached.invariant ?_ ?_
  · intro w busy
    exact absurd rfl busy
  · intro before action after _ inFleet taken governed w busy
    by_cases acts : action.worker? = some w
    · exact governed.own.worker w acts
    · rw [step_worker_other taken acts] at busy
      exact inFleet w busy

/-! ### A worker finishes its delivery -/

/-- What the steps of worker `w` leave as it was; `id` is the event it writes, if any. -/
structure Aside (w : Nat) (id : Option EventId) (s s' : System Payload) : Prop where
  workers : ∀ v, v ≠ w → s'.workers v = s.workers v
  dispatchers : s'.dispatchers = s.dispatchers
  events : ∀ other, id ≠ some other → s'.db.event? other = s.db.event? other

omit [DecidableEq Payload] in
theorem Aside.trans {w : Nat} {id : Option EventId} {s'' : System Payload}
    (first : Aside w id s s') (second : Aside w id s' s'') : Aside w id s s'' :=
  { workers := fun v apart => (second.workers v apart).trans (first.workers v apart)
    dispatchers := second.dispatchers.trans first.dispatchers
    events := fun other apart => (second.events other apart).trans (first.events other apart) }

theorem Aside.of_step {w : Nat} {id : Option EventId} (taken : step codec config s action = some s')
    (acts : action.worker? = some w)
    (events : ∀ other, id ≠ some other → s'.db.event? other = s.db.event? other) :
    Aside w id s s' := by
  refine ⟨?_, ?_, events⟩
  · intro v apart
    refine step_worker_other taken fun same => apart ?_
    exact Option.some.inj (same.symm.trans acts)
  · funext d
    refine step_dispatcher_other taken ?_
    simp [(Action.silent_of_worker acts).1]

/-- Worker `w` has finished with a delivery, and the queue holds the messages `ready`. -/
structure Rested (codec : Codec Payload) (config : Config) (fleet : Fleet) (w : Nat)
    (id : Option EventId) (ready : List Message) (s s' : System Payload) : Prop where
  calm : Calm codec config fleet s'
  idle : s'.workers w = Worker.idle
  ready : s'.ready = ready
  aside : Aside w id s s'

variable (codec config fleet) in
def Rests (w : Nat) (id : Option EventId) (ready : List Message) (s : System Payload) : Prop :=
  Possible (step codec config) (Action.Regular config fleet)
    (Rested codec config fleet w id ready s) s

section Workers

variable {w : Nat} {id : Option EventId} {ready : List Message} {claim : Claim Payload}
  {attempt : Nat} {error : String} {event : Event Payload} {settlement : Settlement}

theorem Rests.of_aside (aside : Aside w id s s') (taken : step codec config s action = some s')
    (regular : action.Regular config fleet) (rests : Rests codec config fleet w id ready s') :
    Rests codec config fleet w id ready s := by
  obtain ⟨actions, final, ran, allowed, rested⟩ := rests
  refine .step taken regular ⟨actions, final, ran, allowed, ?_⟩
  exact
    { calm := rested.calm
      idle := rested.idle
      ready := rested.ready
      aside := aside.trans rested.aside }

/-- The worker takes one step and finishes from there. -/
theorem Rests.of_step (calm : Calm codec config fleet s) (own : w < fleet.workers)
    (taken : step codec config s action = some s') (acts : action.worker? = some w)
    (faultFree : action.FaultFree config)
    (events : ∀ other, id ≠ some other → s'.db.event? other = s.db.event? other)
    (rests : Calm codec config fleet s' → Rests codec config fleet w id ready s') :
    Rests codec config fleet w id ready s := by
  have regular : action.Regular config fleet := .of_worker own acts faultFree
  obtain ⟨silent, apart⟩ := Action.silent_of_worker acts
  exact .of_aside (.of_step taken acts events) taken regular
    (rests (calm.step taken regular (marks_of_silent silent s s') apart))

omit [DecidableEq Payload] in
theorem System.phase_setPhase (s : System Payload) (w : Nat) (phase : WorkerPhase Payload) :
    ((s.setPhase w phase).workers w).phase = phase := by
  simp [System.setPhase, System.setWorker]

/-- What a settled delivery adds to the queue. -/
def Settlement.returned (settlement : Settlement) (delivery : Option Message) : List Message :=
  if settlement = .requeue then delivery.toList else []

theorem rests_of_settling (calm : Calm codec config fleet s) (own : w < fleet.workers)
    (phase : (s.workers w).phase = .settling event settlement) (id : Option EventId) :
    Rests codec config fleet w id (s.ready ++ settlement.returned (s.workers w).delivery) s := by
  have taken : step codec config s (.settle w event settlement) = some _ := if_pos phase
  refine .of_step calm own taken rfl trivial (fun _ _ => rfl) fun calmAfter => .done ?_
  refine ⟨calmAfter, Function.update_self .., ?_, ⟨fun _ _ => rfl, rfl, fun _ _ => rfl⟩⟩
  by_cases requeued : settlement = .requeue
  · simp [System.setWorker, Settlement.returned, requeued]
  · simp [System.setWorker, Settlement.returned, requeued]

theorem rests_of_returning (calm : Calm codec config fleet s) (own : w < fleet.workers)
    {written : Bool} (phase : (s.workers w).phase = .returning claim written settlement)
    (id : Option EventId) :
    Rests codec config fleet w id (s.ready ++ settlement.returned (s.workers w).delivery) s := by
  have taken : step codec config s (.returns w claim written settlement) = some _ := if_pos phase
  refine .of_step calm own taken rfl trivial (fun _ _ => rfl) fun calmAfter => ?_
  have settles := rests_of_settling calmAfter own (System.phase_setPhase ..) id
  rwa [System.delivery_setPhase] at settles

/-- After its terminal write a worker acknowledges. -/
theorem rests_of_written (calm : Calm codec config fleet s) (own : w < fleet.workers)
    {opening : Nat} {written : Bool}
    (phase : (s.workers w).phase = .returning claim written (.ack opening)) (id : Option EventId) :
    Rests codec config fleet w id s.ready s := by
  have returns := rests_of_returning calm own phase id
  rwa [Settlement.returned, if_neg (by simp), List.append_nil] at returns

theorem rests_of_succeeded (calm : Calm codec config fleet s) (own : w < fleet.workers)
    (phase : (s.workers w).phase = .succeeded claim attempt) :
    Rests codec config fleet w (some claim.event.id) s.ready s := by
  have taken : step codec config s (.markProcessed w claim attempt s.clock .ok) = some _ :=
    if_pos ⟨phase, le_refl _, fun _ => calm.unlocked _⟩
  refine .of_step calm own taken rfl rfl ?_ fun calmAfter =>
    rests_of_written calmAfter own (System.phase_setPhase ..) _
  intro other apart
  exact (Database.event?_markProcessed ..).trans (if_neg fun same => apart (congrArg some same.symm))

theorem rests_of_attempting (calm : Calm codec config fleet s) (own : w < fleet.workers)
    (phase : (s.workers w).phase = .attempting claim attempt) :
    Rests codec config fleet w (some claim.event.id) s.ready s := by
  have taken : step codec config s (.processorReturns w claim attempt none) = some _ :=
    if_pos phase
  exact .of_step calm own taken rfl rfl (fun _ _ => rfl) fun calmAfter =>
    rests_of_succeeded calmAfter own (System.phase_setPhase ..)

theorem rests_of_deadLettered (calm : Calm codec config fleet s) (own : w < fleet.workers)
    (phase : (s.workers w).phase = .deadLettered claim attempt error) :
    Rests codec config fleet w (some claim.event.id) s.ready s := by
  have taken : step codec config s (.markFailed w claim attempt error s.clock .ok) = some _ :=
    if_pos ⟨phase, le_refl _, fun _ => calm.unlocked _⟩
  refine .of_step calm own taken rfl rfl ?_ fun calmAfter =>
    rests_of_written calmAfter own (System.phase_setPhase ..) _
  intro other apart
  exact (Database.event?_markFailed ..).trans (if_neg fun same => apart (congrArg some same.symm))

/-- The dead letter of an exhausted claim can be saved. -/
theorem saveDeadLetter_taken (lawful : codec.Lawful) (calm : Calm codec config fleet s)
    (phase : (s.workers w).phase = .exhausted claim attempt error) :
    ∃ payload after,
      step codec config s (.saveDeadLetter w claim attempt error payload s.clock .ok) =
        some after ∧
      (after.workers w).phase = .deadLettered claim attempt error ∧
      after.db.events = s.db.events ∧ after.ready = s.ready := by
  have sound := contentSound lawful calm.reached.reachable
  have accepted := sound.workers w claim.event (by rw [phase]; rfl)
  obtain ⟨payload, marshalled, _⟩ := lawful.roundTrip _ (sound.produced claim.event accepted)
  exact ⟨payload, _, if_pos ⟨phase, le_refl _, fun _ => ⟨marshalled, calm.unlocked _⟩⟩,
    System.phase_setPhase .., rfl, rfl⟩

theorem rests_of_exhausted (lawful : codec.Lawful) (calm : Calm codec config fleet s)
    (own : w < fleet.workers) (phase : (s.workers w).phase = .exhausted claim attempt error) :
    Rests codec config fleet w (some claim.event.id) s.ready s := by
  obtain ⟨payload, after, taken, deadLettered, events, ready⟩ :=
    saveDeadLetter_taken lawful calm phase
  rw [← ready]
  refine .of_step calm own taken rfl rfl ?_ fun calmAfter =>
    rests_of_deadLettered calmAfter own deadLettered
  intro other _
  rw [Database.event?, events, Database.event?]

theorem rests_of_unclaimed (calm : Calm codec config fleet s) (own : w < fleet.workers)
    (phase : (s.workers w).phase = .unclaimed event) (id : Option EventId) :
    Rests codec config fleet w id
      (s.ready ++ (settlementOf (s.history.openings event.id)
        (Database.claimResultOf (s.db.status? event.id))).returned (s.workers w).delivery) s := by
  have taken : step codec config s (.readClaimStatus w event .ok) = some _ := if_pos phase
  refine .of_step calm own taken rfl rfl (fun _ _ => rfl) fun calmAfter => ?_
  have settles := rests_of_settling calmAfter own (System.phase_setPhase ..) id
  rwa [System.delivery_setPhase] at settles

/-- The event is queued or processing. -/
def Database.Unfinished (db : Database) (id : EventId) : Prop :=
  db.status? id = some .queued ∨ db.status? id = some .processing

theorem Database.Unfinished.stored {db : Database} {id : EventId} (unfinished : db.Unfinished id) :
    db.event? id ≠ none := by
  intro absent
  simp [Database.Unfinished, Database.status?, absent] at unfinished

theorem Database.Unfinished.of_event? {db db' : Database} {id : EventId}
    (unfinished : db.Unfinished id) (same : db'.event? id = db.event? id) : db'.Unfinished id := by
  rwa [Database.Unfinished, Database.status?, same]

/-- A stored event that is not unfinished has its final status. -/
theorem Database.final_of_not_unfinished {db : Database} {id : EventId}
    (stored : db.event? id ≠ none) (finished : ¬ db.Unfinished id) :
    Database.claimResultOf (db.status? id) = .final := by
  obtain ⟨row, found⟩ := Option.ne_none_iff_exists'.mp stored
  have status : db.status? id = some row.status := by rw [Database.status?, found]; rfl
  rw [Database.Unfinished, status] at finished
  rw [status]
  cases current : row.status with
  | queued => simp [current] at finished
  | processing => simp [current] at finished
  | processed => rfl
  | failed => rfl

/-- Past the lease of whoever works on the event, it can be claimed. -/
theorem claimMatches_after_lease (reached : Reachable codec config s) {id : EventId}
    (unfinished : s.db.Unfinished id) {now : Time}
    (past : s.clock + config.processingLease ≤ now) :
    s.db.ClaimMatches id config.processingLease now := by
  by_contra unmatched
  have claimed := claimed_after_lease reached past unfinished
  have unclaimed : ¬ s.db.quiesced.ClaimMatches id config.processingLease now := unmatched
  rw [Database.claimForProcessing, if_neg unclaimed] at claimed
  exact claimResultOf_ne_claimed _ claimed

theorem claim_of_matched (calm : Calm codec config fleet s)
    (phase : (s.workers w).phase = .received event)
    (matched : s.db.ClaimMatches event.id config.processingLease s.clock) :
    ∃ after claim, step codec config s (.claimForProcessing w event s.clock .ok) = some after ∧
      (after.workers w).phase = .attempting claim 1 ∧ claim.event = event ∧
      after.ready = s.ready ∧
      ∀ other, some event.id ≠ some other → after.db.event? other = s.db.event? other := by
  refine ⟨_, _, if_pos ⟨phase, le_refl _, fun _ => calm.unlocked _⟩,
    (System.phase_setPhase ..).trans (if_pos matched), rfl, rfl, ?_⟩
  intro other apart
  change (ite _ _ s.db).event? other = _
  rw [if_pos ⟨by decide, matched⟩, Database.event?_claimEvent,
    if_neg fun same => apart (by rw [same])]

theorem claim_of_unmatched (calm : Calm codec config fleet s)
    (phase : (s.workers w).phase = .received event)
    (unmatched : ¬ s.db.ClaimMatches event.id config.processingLease s.clock) :
    ∃ after, step codec config s (.claimForProcessing w event s.clock .ok) = some after ∧
      (after.workers w).phase = .unclaimed event ∧ after.ready = s.ready ∧ after.db = s.db :=
  ⟨_, if_pos ⟨phase, le_refl _, fun _ => calm.unlocked _⟩,
    (System.phase_setPhase ..).trans (if_neg unmatched), rfl,
    if_neg fun both => unmatched both.2⟩

/-- A worker that has waited for the lease of the others claims the event and processes it, or finds
that it is final. -/
theorem rests_of_received (calm : Calm codec config fleet s) (own : w < fleet.workers)
    (phase : (s.workers w).phase = .received event) (stored : s.db.event? event.id ≠ none) :
    Rests codec config fleet w (some event.id) s.ready s := by
  obtain ⟨later, ticked, calmLater, past, sameDb, sameReady, sameWorkers, sameDispatchers⟩ :=
    calm.tick config.processingLease
  have waits : Aside w (some event.id) s later :=
    ⟨fun v _ => congrFun sameWorkers v, sameDispatchers, fun _ _ => by rw [sameDb]⟩
  refine .of_aside waits ticked (.of_silent rfl rfl trivial) ?_
  rw [← sameWorkers] at phase
  rw [← sameReady]
  by_cases matched : later.db.ClaimMatches event.id config.processingLease later.clock
  · obtain ⟨after, claim, taken, attempting, rfl, ready, elsewhere⟩ :=
      claim_of_matched calmLater phase matched
    refine .of_step calmLater own taken rfl rfl elsewhere fun calmAfter => ?_
    rw [← ready]
    exact rests_of_attempting calmAfter own attempting
  · have finished : ¬ later.db.Unfinished event.id := by
      intro unfinished
      rw [sameDb] at unfinished matched
      exact matched (claimMatches_after_lease calm.reached.reachable unfinished past)
    obtain ⟨after, taken, unclaimed, ready, afterDb⟩ := claim_of_unmatched calmLater phase matched
    refine .of_step calmLater own taken rfl rfl (fun _ _ => by rw [afterDb]) fun calmAfter => ?_
    rw [← sameDb] at stored
    have settles := rests_of_unclaimed calmAfter own unclaimed (some event.id)
    rw [afterDb, Database.final_of_not_unfinished stored finished, ready] at settles
    simpa [settlementOf, Settlement.returned] using settles

/-- An idle worker gets the oldest message. -/
theorem deliver_head (lawful : codec.Lawful) (calm : Calm codec config fleet s)
    (idle : s.workers w = Worker.idle) {message : Message} {rest : List Message}
    (queue : s.ready = message :: rest) :
    ∃ event after, step codec config s (.deliver w 0 message event) = some after ∧
      event.id = message.messageId ∧ (after.workers w).phase = .received event ∧
      after.ready = rest ∧ after.db = s.db ∧ after.db.event? event.id ≠ none := by
  have sound := contentSound lawful calm.reached.reachable
  have inQueue : message ∈ s.ready := by
    rw [queue]
    exact List.mem_cons_self
  obtain ⟨event, accepted, sameId, marshalled⟩ :=
    sound.messages message (sound.broker message (Or.inl inQueue))
  obtain ⟨json, again, _, decoded⟩ := lawful.event_roundTrip (sound.produced event accepted)
  cases marshalled.symm.trans again
  have first : s.ready[0]? = some message := by
    rw [queue]
    rfl
  refine ⟨event, _, if_pos ⟨idle, first, decoded⟩, sameId.symm, ?_, ?_, rfl,
    sound.stored event accepted⟩
  · simp [System.setWorker]
  · simp [System.setWorker, queue]

theorem rests_of_head (lawful : codec.Lawful) (calm : Calm codec config fleet s)
    (own : w < fleet.workers) (idle : s.workers w = Worker.idle) {message : Message}
    {rest : List Message} (queue : s.ready = message :: rest) :
    Rests codec config fleet w (some message.messageId) rest s := by
  obtain ⟨event, after, taken, sameId, received, ready, sameDb, stored⟩ :=
    deliver_head lawful calm idle queue
  refine .of_step calm own taken rfl rfl (fun _ _ => by rw [sameDb]) fun calmAfter => ?_
  rw [← sameId, ← ready]
  exact rests_of_received calmAfter own received stored

/-- A worker that does nothing holds no delivery. -/
def IdleHandsEmpty (s : System Payload) : Prop :=
  ∀ w, (s.workers w).phase = .idle → (s.workers w).delivery = none

theorem idleHandsEmpty (reached : Reachable codec config s) : IdleHandsEmpty s := by
  refine reached.invariant (fun _ _ => rfl) ?_
  intro before action after _ empty taken _ w idle
  have effect := step_worker taken w
  generalize after.workers w = worker at effect idle
  cases effect with
  | unchanged => exact empty w idle
  | disconnected => rfl
  | settled => rfl
  | crashed => rfl
  | @attempted claim attempt error =>
      have unhandled : (afterAttempt config claim attempt error).event? = none :=
        congrArg WorkerPhase.event? idle
      rw [afterAttempt_event?] at unhandled
      cases unhandled
  | _ => cases idle

/-- Whatever a worker is doing, it can bring it to an end. -/
theorem rests_of_phase (lawful : codec.Lawful) (calm : Calm codec config fleet s)
    (own : w < fleet.workers) : ∃ id ready, Rests codec config fleet w id ready s := by
  have sound := contentSound lawful calm.reached.reachable
  cases phase : (s.workers w).phase with
  | idle =>
      have empty := idleHandsEmpty calm.reached.reachable w phase
      have idle : s.workers w = Worker.idle := by
        rw [Worker.idle, ← phase, ← empty]
      exact ⟨none, s.ready, .done ⟨calm, idle, rfl, ⟨fun _ _ => rfl, rfl, fun _ _ => rfl⟩⟩⟩
  | received event =>
      have accepted := sound.workers w event (by rw [phase]; rfl)
      exact ⟨_, _, rests_of_received calm own phase (sound.stored event accepted)⟩
  | unclaimed event => exact ⟨_, _, rests_of_unclaimed calm own phase none⟩
  | attempting claim attempt => exact ⟨_, _, rests_of_attempting calm own phase⟩
  | succeeded claim attempt => exact ⟨_, _, rests_of_succeeded calm own phase⟩
  | exhausted claim attempt error => exact ⟨_, _, rests_of_exhausted lawful calm own phase⟩
  | deadLettered claim attempt error => exact ⟨_, _, rests_of_deadLettered calm own phase⟩
  | returning claim written settlement => exact ⟨_, _, rests_of_returning calm own phase none⟩
  | settling event settlement => exact ⟨_, _, rests_of_settling calm own phase none⟩

end Workers

/-! ### A dispatcher finishes its batch -/

/-- What the steps of a dispatcher leave as it was; it takes no message out of the queue. -/
structure Kept (s s' : System Payload) : Prop where
  workers : s'.workers = s.workers
  events : s'.db.events = s.db.events
  ready : s.ready ⊆ s'.ready

omit [DecidableEq Payload] in
theorem Kept.trans {s'' : System Payload} (first : Kept s s') (second : Kept s' s'') :
    Kept s s'' :=
  { workers := second.workers.trans first.workers
    events := second.events.trans first.events
    ready := List.Subset.trans first.ready second.ready }

/-- Dispatcher `d` has finished a batch. -/
structure Idled (codec : Codec Payload) (config : Config) (fleet : Fleet) (d : Nat)
    (s s' : System Payload) : Prop where
  calm : Calm codec config fleet s'
  idle : s'.dispatchers d = .idle
  kept : Kept s s'

/-- A message for the event waits in the queue. -/
def System.Queued (s : System Payload) (id : EventId) : Prop :=
  ∃ message ∈ s.ready, message.messageId = id

omit [DecidableEq Payload] in
theorem System.Queued.of_subset {id : EventId} (queued : s.Queued id)
    (subset : s.ready ⊆ s'.ready) : s'.Queued id := by
  obtain ⟨message, member, same⟩ := queued
  exact ⟨message, subset member, same⟩

section Dispatchers

variable {d : Nat} {claimedAt : Time} {message : OutboxMessage Payload}
  {rest messages : List (OutboxMessage Payload)}

/-- Dispatcher `d` has marked the row of `message` and goes on with `rest`, if it had the
reservation. -/
structure Marked (d : Nat) (claimedAt : Time) (message : OutboxMessage Payload)
    (rest : List (OutboxMessage Payload)) (s s' : System Payload) : Prop where
  kept : Kept s s'
  db : s'.db = s.db.markOutboxPublished message.id message.dispatchToken s.clock
  dispatcher : s'.dispatchers d =
    if s.db.Reserved message.id message.dispatchToken then Dispatcher.loop claimedAt rest else .idle

variable (codec config) in
theorem mark_taken {opening : Nat}
    (phase : s.dispatchers d = .published claimedAt message opening rest)
    (free : s.db.MarkFree message.id message.dispatchToken) :
    ∃ after, step codec config s
        (.markOutboxPublished d claimedAt message opening rest s.clock .ok) = some after ∧
      Marked d claimedAt message rest s after := by
  refine ⟨_, if_pos ⟨phase, le_refl _, fun _ => free⟩, ?_⟩
  exact
    { kept := ⟨rfl, rfl, List.Subset.refl _⟩
      db := rfl
      dispatcher := by simp [System.setDispatcher] }

/-- The broker confirms the next message and the dispatcher marks its row. -/
theorem marks_next (lawful : codec.Lawful) (calm : Calm codec config fleet s)
    (own : d < fleet.dispatchers) (phase : s.dispatchers d = .publishing claimedAt message rest) :
    Possible (step codec config) (Action.Regular config fleet)
      (fun s' => Calm codec config fleet s' ∧ Marked d claimedAt message rest s s' ∧
        s'.Queued message.event.id) s := by
  have sound := contentSound lawful calm.reached.reachable
  have accepted := sound.hands d message (by rw [phase]; exact List.mem_cons_self)
  obtain ⟨body, marshalled, _⟩ := lawful.event_roundTrip (sound.produced message.event accepted)
  obtain ⟨between, confirmed, published, current, keptBetween, sameDb, sameClock, sent⟩ :
      ∃ between, step codec config s (.publishConfirmed d claimedAt message rest body) =
          some between ∧
        between.dispatchers d =
          .published claimedAt message (s.history.openings message.event.id) rest ∧
        between.history.openings = s.history.openings ∧ Kept s between ∧ between.db = s.db ∧
        between.clock = s.clock ∧ between.Queued message.event.id :=
    ⟨_, if_pos ⟨phase, marshalled⟩, Function.update_self .., rfl,
      ⟨rfl, rfl, List.subset_append_left ..⟩, rfl, rfl,
      ⟨_, List.mem_append_right _ List.mem_cons_self, rfl⟩⟩
  have regular : Action.Regular config fleet
      (.publishConfirmed d claimedAt message rest body) := .of_dispatcher own rfl trivial
  have calmBetween := calm.step confirmed regular trivial rfl
  obtain ⟨after, taken, marked⟩ := mark_taken codec config published
    fun _ _ _ => calmBetween.unlocked _
  have marks : Action.Regular config fleet (.markOutboxPublished d claimedAt message
      (s.history.openings message.event.id) rest between.clock .ok) := .of_dispatcher own rfl rfl
  refine .step confirmed regular (.step taken marks (.done ⟨?_, ?_, ?_⟩))
  · exact calmBetween.step taken marks (fun _ _ => by rw [current]) rfl
  · have written := marked.db
    have goesOn := marked.dispatcher
    rw [sameDb, sameClock] at written
    rw [sameDb] at goesOn
    exact ⟨keptBetween.trans marked.kept, written, goesOn⟩
  · exact sent.of_subset marked.kept.ready

/-- Whatever is left of its batch, a dispatcher can bring its loop to an end. -/
theorem idle_of_loop (lawful : codec.Lawful) (own : d < fleet.dispatchers)
    (calm : Calm codec config fleet s)
    (phase : s.dispatchers d = Dispatcher.loop claimedAt messages) :
    Possible (step codec config) (Action.Regular config fleet)
      (Idled codec config fleet d s) s := by
  induction messages generalizing s with
  | nil => exact .done ⟨calm, phase, ⟨rfl, rfl, List.Subset.refl _⟩⟩
  | cons message rest inductionHypothesis =>
      refine (marks_next lawful calm own phase).trans ?_
      rintro between ⟨calmBetween, marked, _⟩
      have goesOn := marked.dispatcher
      split at goesOn
      · refine (inductionHypothesis calmBetween goesOn).trans fun final idled => .done ?_
        exact ⟨idled.calm, idled.idle, marked.kept.trans idled.kept⟩
      · exact .done ⟨calmBetween, goesOn, marked.kept⟩

/-- A batch whose rows are all reserved is sent as a whole. -/
theorem sends_batch (lawful : codec.Lawful) (own : d < fleet.dispatchers) (now : Time)
    (calm : Calm codec config fleet s)
    (phase : s.dispatchers d = Dispatcher.loop claimedAt messages)
    (reserved : ∀ message ∈ messages, s.db.Reserved message.id message.dispatchToken)
    (distinct : (messages.map OutboxMessage.id).Nodup) :
    Possible (step codec config) (Action.Regular config fleet)
      (fun s' => Idled codec config fleet d s s' ∧
        Dispatched now (messages.map OutboxMessage.id) s.db s'.db ∧
        ∀ message ∈ messages, s'.Queued message.event.id) s := by
  induction messages generalizing s with
  | nil =>
      refine .done ⟨⟨calm, phase, ⟨rfl, rfl, List.Subset.refl _⟩⟩, .refl s.db, ?_⟩
      exact fun _ listed => absurd listed List.not_mem_nil
  | cons message rest inductionHypothesis =>
      have first := reserved message List.mem_cons_self
      obtain ⟨apart, distinctRest⟩ := List.nodup_cons.mp distinct
      refine (marks_next lawful calm own phase).trans ?_
      rintro between ⟨calmBetween, marked, sent⟩
      have goesOn := marked.dispatcher
      rw [if_pos first] at goesOn
      have stillReserved : ∀ later ∈ rest, between.db.Reserved later.id later.dispatchToken := by
        intro later member
        rw [marked.db]
        refine reserved_of_mark (reserved later (List.mem_cons_of_mem _ member)) ?_ _ _
        exact fun same => apart (List.mem_map.mpr ⟨later, member, same⟩)
      have served : Dispatched now [message.id] s.db between.db := by
        rw [marked.db]
        exact .markOutboxPublished first _
      refine (inductionHypothesis calmBetween goesOn stillReserved distinctRest).trans ?_
      rintro final ⟨idled, servedRest, sentRest⟩
      refine .done ⟨⟨idled.calm, idled.idle, marked.kept.trans idled.kept⟩, ?_, ?_⟩
      · exact served.trans servedRest
      · intro one member
        rcases List.mem_cons.mp member with rfl | inRest
        · exact sent.of_subset idled.kept.ready
        · exact sentRest one inRest

/-- An idle dispatcher that has waited for the reservations of the others claims the head of the
queue of unpublished rows. -/
theorem claims_batch (lawful : codec.Lawful) (own : d < fleet.dispatchers)
    (calm : Calm codec config fleet s) (idle : s.dispatchers d = .idle) :
    Possible (step codec config) (Action.Regular config fleet)
      (fun s' => Calm codec config fleet s' ∧ Kept s s' ∧
        ∃ now messages, s'.dispatchers d = Dispatcher.loop now messages ∧
          Dispatched now [] s.db s'.db ∧
          messages.map OutboxMessage.id = s.db.pendingIds.take config.outboxBatchSize ∧
          (∀ message ∈ messages, ∃ row ∈ s.db.outbox.rows, message.id = row.id ∧
            message.event.id = row.eventId) ∧
          ∀ message ∈ messages, s'.db.Reserved message.id message.dispatchToken) s := by
  obtain ⟨later, ticked, calmLater, past, sameDb, sameReady, sameWorkers, sameDispatchers⟩ :=
    calm.tick config.outboxDispatchLease
  have reached := calm.reached.reachable
  have ready : Dispatchable codec config.outboxDispatchLease later.clock s.db :=
    { free := fun _ => calm.unlocked _
      expired := fun _ member => claimable_after_lease reached past member
      decodes := fun _ member =>
        decodes_of_stored lawful reached (s.db.mem_unpublished.mp member).1 }
  obtain ⟨messages, scanned, ids, origin, reserved⟩ := ready.claimed config.outboxBatchSize ""
  rw [← sameDb] at scanned
  rw [← sameDispatchers] at idle
  obtain ⟨after, taken, goesOn, kept, claimed⟩ : ∃ after, step codec config later
        (.claimPendingOutbox d config.outboxBatchSize later.clock ""
          ((later.db.claimPendingOutbox config.outboxBatchSize config.outboxDispatchLease
            later.clock "").1.map OutboxRow.id) .ok) = some after ∧
      after.dispatchers d = Dispatcher.loop later.clock messages ∧ Kept later after ∧
      after.db = (later.db.claimPendingOutbox config.outboxBatchSize config.outboxDispatchLease
        later.clock "").2 := by
    refine ⟨_, if_pos ⟨idle, le_refl _, by decide, .refl _⟩, ?_, ⟨rfl, rfl, List.Subset.refl _⟩,
      rfl⟩
    refine (Function.update_self ..).trans ?_
    rw [if_pos rfl, scanned]
    rfl
  have waits : Kept s later := ⟨sameWorkers, by rw [sameDb], by rw [sameReady]; exact .refl _⟩
  refine .step ticked (.of_silent rfl rfl trivial)
    (.step taken (.of_dispatcher own rfl ⟨rfl, rfl⟩) (.done ⟨?_, waits.trans kept, ?_⟩))
  · exact calmLater.step taken (.of_dispatcher own rfl ⟨rfl, rfl⟩) trivial rfl
  · rw [claimed, sameDb]
    exact ⟨later.clock, messages, goesOn, .claimPendingOutbox .., ids, origin, reserved⟩

/-- A dispatcher that has no row to mark can be brought to the end of its batch. -/
theorem idles_of_phase (lawful : codec.Lawful) (own : d < fleet.dispatchers)
    (calm : Calm codec config fleet s)
    (unmarked : ∀ claimedAt message opening rest,
      s.dispatchers d ≠ .published claimedAt message opening rest) :
    Possible (step codec config) (Action.Regular config fleet)
      (Idled codec config fleet d s) s := by
  cases phase : s.dispatchers d with
  | idle => exact .done ⟨calm, phase, ⟨rfl, rfl, List.Subset.refl _⟩⟩
  | publishing claimedAt message rest =>
      have loops : s.dispatchers d = Dispatcher.loop claimedAt (message :: rest) := phase
      exact idle_of_loop lawful own calm loops
  | published claimedAt message opening rest =>
      exact absurd phase (unmarked claimedAt message opening rest)
  | rejected claimedAt message error =>
      have taken : step codec config s (.markOutboxFailed d claimedAt message error .ok) =
          some _ := if_pos ⟨phase, fun _ _ _ _ => calm.unlocked _⟩
      have regular : Action.Regular config fleet
          (.markOutboxFailed d claimedAt message error .ok) := .of_dispatcher own rfl rfl
      refine .step taken regular (.done ⟨calm.step taken regular trivial rfl, ?_, ?_⟩)
      · exact Function.update_self ..
      · exact ⟨rfl, rfl, List.Subset.refl _⟩

/-- The outbox row of the event is not published. -/
def Database.Pending (db : Database) (id : EventId) : Prop :=
  ∃ row, db.outboxFor? id = some row ∧ row.publishedAt = none

/-- An idle dispatcher sends the unpublished rows batch by batch, so that every row is sent after
those before it. -/
theorem sends_row (lawful : codec.Lawful) (own : d < fleet.dispatchers)
    (positive : 0 < config.outboxBatchSize) (calm : Calm codec config fleet s)
    (idle : s.dispatchers d = .idle) {id : EventId} (pending : s.db.Pending id) :
    Possible (step codec config) (Action.Regular config fleet)
      (fun s' => Idled codec config fleet d s s' ∧ s'.Queued id) s := by
  induction size : s.db.pendingIds.length using Nat.strongRecOn generalizing s with
  | _ size inductionHypothesis =>
      subst size
      refine (claims_batch lawful own calm idle).trans ?_
      rintro claimed
        ⟨calmClaimed, keptClaimed, now, messages, phase, reserves, ids, origin, reserved⟩
      refine (sends_batch lawful own now calmClaimed phase reserved
        (Dispatchable.nodup_of_ids ids)).trans ?_
      rintro after ⟨idled, serves, sent⟩
      have served := reserves.trans serves
      rw [List.nil_append, ids] at served
      have keptAfter := keptClaimed.trans idled.kept
      obtain ⟨row, found, unpublished⟩ := pending
      obtain ⟨stored, sameEvent⟩ := s.db.outboxFor?_eq_some_iff.mp found
      have listed : row.id ∈ s.db.pendingIds :=
        s.db.mem_pendingIds_iff_view.mpr ⟨id, row, found, rfl, unpublished⟩
      by_cases first : row.id ∈ s.db.pendingIds.take config.outboxBatchSize
      · rw [← ids] at first
        obtain ⟨message, member, sameId⟩ := List.mem_map.mp first
        obtain ⟨own, ownStored, ownId, ownEvent⟩ := origin message member
        have same : own = row := s.db.outbox_eq_of_id ownStored stored (ownId.symm.trans sameId)
        have inQueue := sent message member
        rw [ownEvent, same, sameEvent] at inQueue
        exact .done ⟨⟨idled.calm, idled.idle, keptAfter⟩, inQueue⟩
      · have smaller : after.db.pendingIds.length < s.db.pendingIds.length := by
          obtain ⟨head, tail, nonempty⟩ := List.exists_cons_of_ne_nil (List.ne_nil_of_mem listed)
          refine served.length_pendingIds_lt (n := head) ?_ ?_
          · rw [nonempty]
            exact List.mem_cons_self
          · obtain ⟨size, isSuccessor⟩ := Nat.exists_eq_succ_of_ne_zero positive.ne'
            rw [nonempty, isSuccessor, List.take_succ_cons]
            exact List.mem_cons_self
        have stillPending : after.db.Pending id := by
          have change := served.rows id
          rw [found] at change
          generalize view : after.db.outboxFor? id = later at change
          cases change with
          | some changed =>
              exact ⟨_, view, changed.published_iff.mpr ⟨unpublished, first⟩⟩
        refine (inductionHypothesis _ smaller idled.calm idled.idle stillPending rfl).trans ?_
        rintro final ⟨idledFinal, inQueue⟩
        exact .done ⟨⟨idledFinal.calm, idledFinal.idle, keptAfter.trans idledFinal.kept⟩, inQueue⟩

end Dispatchers

end WebhookProcessor
