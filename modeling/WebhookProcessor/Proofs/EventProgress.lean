/-
Module: WebhookProcessor.Proofs.EventProgress
Layer: Proofs
Purpose: No stored event is ever beyond recovery: whatever has happened so far, the workers and
  dispatchers the service has can still take the event to `processed` by steps in which nothing
  fails.  The open transactions are completed first and one worker and one dispatcher finish what
  they are doing.  A failed event is then replayed, the outbox rows are dispatched batch by batch
  until that of the event is sent, and the messages ahead of it are taken out of the queue.
Trusted boundary: `Codec.Lawful`
Main exports: System.Unhindered, Poised, Processable, event_processable
-/
import WebhookProcessor.Proofs.ManualReplay
import WebhookProcessor.Proofs.PartyProgress

namespace WebhookProcessor

open Transition

variable {Payload : Type} [DecidableEq Payload] {codec : Codec Payload} {config : Config}
  {fleet : Fleet} {s s' : System Payload} {action : Action Payload} {w v d : Nat} {id : EventId}

/-! ### A worker and a dispatcher that are free -/

variable (codec config fleet) in
/-- No transaction is open, and worker `w` and dispatcher `d` have nothing to do. -/
structure Poised (w d : Nat) (s : System Payload) : Prop where
  calm : Calm codec config fleet s
  worker : w < fleet.workers
  dispatcher : d < fleet.dispatchers
  resting : s.workers w = Worker.idle
  waiting : s.dispatchers d = .idle

namespace Poised

theorem of_rested {written : Option EventId} {ready : List Message}
    (poised : Poised codec config fleet w d s)
    (rested : Rested codec config fleet v written ready s s') :
    Poised codec config fleet w d s' := by
  refine ⟨rested.calm, poised.worker, poised.dispatcher, ?_, ?_⟩
  · by_cases same : w = v
    · rw [same]
      exact rested.idle
    · exact (rested.aside.workers w same).trans poised.resting
  · rw [rested.aside.dispatchers]
    exact poised.waiting

theorem of_idled (poised : Poised codec config fleet w d s)
    (idled : Idled codec config fleet d s s') : Poised codec config fleet w d s' :=
  { calm := idled.calm
    worker := poised.worker
    dispatcher := poised.dispatcher
    resting := by rw [idled.kept.workers]; exact poised.resting
    waiting := idled.idle }

/-- Another worker takes a step. -/
theorem step (poised : Poised codec config fleet w d s)
    (taken : step codec config s action = some s') (regular : action.Regular config fleet)
    (acts : action.worker? = some v) (apart : v ≠ w) : Poised codec config fleet w d s' := by
  obtain ⟨silent, unowned⟩ := Action.silent_of_worker acts
  refine ⟨poised.calm.step taken regular (marks_of_silent silent s s') unowned, poised.worker,
    poised.dispatcher, ?_, ?_⟩
  · rw [step_worker_other taken (by simpa [acts] using apart)]
    exact poised.resting
  · rw [step_dispatcher_other taken (by simp [silent])]
    exact poised.waiting

/-- Neither workers nor dispatchers take part in the run, and its transactions have ended. -/
theorem of_silentRun (poised : Poised codec config fleet w d s) {actions : List (Action Payload)}
    (silent : ∀ action ∈ actions, action.worker? = none ∧ action.dispatcher? = none)
    (ran : run (WebhookProcessor.step codec config) s actions = some s')
    (ended : ∀ owner, s'.left owner = 0) : Poised codec config fleet w d s' := by
  obtain ⟨reached, resting, waiting⟩ :
      ReachableVia codec config (Governed fleet) s' ∧ s'.workers w = Worker.idle ∧
        s'.dispatchers d = .idle := by
    refine run_invariant (fun state => ReachableVia codec config (Governed fleet) state ∧
      state.workers w = Worker.idle ∧ state.dispatchers d = .idle) ?_
      ⟨poised.calm.reached, poised.resting, poised.waiting⟩ ran
    rintro before action after member taken ⟨earlier, resting, waiting⟩
    obtain ⟨noWorker, noDispatcher⟩ := silent action member
    refine ⟨earlier.step taken (.of_silent noWorker noDispatcher before after), ?_, ?_⟩
    · rw [step_worker_other taken (by simp [noWorker])]
      exact resting
    · rw [step_dispatcher_other taken (by simp [noDispatcher])]
      exact waiting
  exact ⟨⟨reached, ended⟩, poised.worker, poised.dispatcher, resting, waiting⟩

end Poised

/-- The mark of a row that dispatcher `d` is about to make, if any, is not late: neither has a replay
reopened the row since, nor is one about to. -/
def System.Unhindered (s : System Payload) (d : Nat) : Prop :=
  ∀ claimedAt message opening rest,
    s.dispatchers d = .published claimedAt message opening rest →
    s.db.Reserved message.id message.dispatchToken →
      opening = s.history.openings message.event.id ∧
        s.db.MarkFree message.id message.dispatchToken

omit [DecidableEq Payload] in
theorem System.Unhindered.markFree {claimedAt : Time} {message : OutboxMessage Payload}
    {opening : Nat} {rest : List (OutboxMessage Payload)} (unhindered : s.Unhindered d)
    (phase : s.dispatchers d = .published claimedAt message opening rest) :
    s.db.MarkFree message.id message.dispatchToken := by
  by_cases reserved : s.db.Reserved message.id message.dispatchToken
  · exact (unhindered _ _ _ _ phase reserved).2
  · intro row member holds
    exact absurd ⟨row, member, holds⟩ reserved

/-- Dispatcher `d` makes the mark it is about to make. -/
theorem possible_unmarked (reached : ReachableVia codec config (Governed fleet) s)
    (own : d < fleet.dispatchers) (unhindered : s.Unhindered d) :
    Possible (step codec config) (Action.Regular config fleet)
      (fun s' => ReachableVia codec config (Governed fleet) s' ∧
        ∀ claimedAt message opening rest,
          s'.dispatchers d ≠ .published claimedAt message opening rest) s := by
  cases phase : s.dispatchers d with
  | published claimedAt message opening rest =>
      obtain ⟨after, taken, marked⟩ := mark_taken codec config phase (unhindered.markFree phase)
      have regular : Action.Regular config fleet
          (.markOutboxPublished d claimedAt message opening rest s.clock .ok) :=
        .of_dispatcher own rfl rfl
      have current : MarksCurrentOpening s
          (.markOutboxPublished d claimedAt message opening rest s.clock .ok) after :=
        fun _ reserved => (unhindered _ _ _ _ phase reserved).1
      refine .step taken regular (.done ⟨reached.step taken ⟨regular.own, current⟩, ?_⟩)
      intro _ _ _ _ again
      rw [marked.dispatcher] at again
      cases rest with
      | nil => split at again <;> cases again
      | cons => split at again <;> cases again
  | _ => exact .done ⟨reached, fun _ _ _ _ again => by cases phase.symm.trans again⟩

/-- Any worker and any unhindered dispatcher can be made free. -/
theorem possible_poised (lawful : codec.Lawful)
    (reached : ReachableVia codec config (Governed fleet) s) (worker : w < fleet.workers)
    (dispatcher : d < fleet.dispatchers) (unhindered : s.Unhindered d) :
    Possible (step codec config) (Action.Regular config fleet)
      (Poised codec config fleet w d) s := by
  refine (possible_unmarked reached dispatcher unhindered).trans ?_
  rintro marked ⟨reachedMarked, unmarked⟩
  have completes := possible_completion reachedMarked.reachable
  -- the transactions leave the fleet alone
  have apart : ∀ (before : System Payload) (action : Action Payload) (after : System Payload),
      action.Proceeds → step codec config before action = some after →
      (ReachableVia codec config (Governed fleet) before ∧
        before.dispatchers d = marked.dispatchers d) →
      ReachableVia codec config (Governed fleet) after ∧
        after.dispatchers d = marked.dispatchers d := by
    rintro before action after proceeds taken ⟨earlier, same⟩
    obtain ⟨noWorker, noDispatcher⟩ := proceeds.silent
    refine ⟨earlier.step taken (.of_silent noWorker noDispatcher before after), ?_⟩
    rw [step_dispatcher_other taken (by simp [noDispatcher])]
    exact same
  refine ((completes.keeping _ ⟨reachedMarked, rfl⟩ apart).mono
    fun _ proceeds => proceeds.regular).trans ?_
  rintro ended ⟨⟨_, noneLeft⟩, reachedEnded, same⟩
  rw [← same] at unmarked
  refine (idles_of_phase lawful dispatcher ⟨reachedEnded, noneLeft⟩ unmarked).trans ?_
  intro idle idled
  obtain ⟨_, _, rests⟩ := rests_of_phase lawful idled.calm worker
  refine rests.trans fun final rested => .done ?_
  refine ⟨rested.calm, worker, dispatcher, rested.idle, ?_⟩
  rw [rested.aside.dispatchers]
  exact idled.idle

/-! ### A worker that has the message -/

variable (codec config fleet) in
/-- Steps of the fleet in which nothing fails can take the event to `processed`. -/
def Processable (id : EventId) (s : System Payload) : Prop :=
  Possible (step codec config) (Action.Regular config fleet)
    (fun final => final.db.status? id = some .processed) s

section Worker

variable {claim : Claim Payload} {attempt : Nat} {event : Event Payload}

theorem processable_of_succeeded (calm : Calm codec config fleet s) (own : w < fleet.workers)
    (phase : (s.workers w).phase = .succeeded claim attempt)
    (stored : s.db.event? claim.event.id ≠ none) :
    Processable codec config fleet claim.event.id s := by
  have taken : step codec config s (.markProcessed w claim attempt s.clock .ok) = some _ :=
    if_pos ⟨phase, le_refl _, fun _ => calm.unlocked _⟩
  exact .step taken (.of_worker own rfl rfl)
    (.done (Database.status?_markProcessed stored attempt s.clock))

theorem processable_of_attempting (calm : Calm codec config fleet s) (own : w < fleet.workers)
    (phase : (s.workers w).phase = .attempting claim attempt)
    (stored : s.db.event? claim.event.id ≠ none) :
    Processable codec config fleet claim.event.id s := by
  obtain ⟨after, taken, succeeded, sameDb⟩ : ∃ after,
      step codec config s (.processorReturns w claim attempt none) = some after ∧
        (after.workers w).phase = .succeeded claim attempt ∧ after.db = s.db :=
    ⟨_, if_pos phase, System.phase_setPhase .., rfl⟩
  have regular : Action.Regular config fleet (.processorReturns w claim attempt none) :=
    .of_worker own rfl rfl
  rw [← sameDb] at stored
  exact .step taken regular
    (processable_of_succeeded (calm.step taken regular trivial rfl) own succeeded stored)

theorem processable_of_received (calm : Calm codec config fleet s) (own : w < fleet.workers)
    (phase : (s.workers w).phase = .received event) (unfinished : s.db.Unfinished event.id) :
    Processable codec config fleet event.id s := by
  obtain ⟨later, ticked, calmLater, past, sameDb, _, sameWorkers, _⟩ :=
    calm.tick config.processingLease
  have matched := claimMatches_after_lease calm.reached.reachable unfinished past
  rw [← sameDb] at matched unfinished
  rw [← sameWorkers] at phase
  obtain ⟨after, claim, taken, attempting, rfl, _⟩ := claim_of_matched calmLater phase matched
  have regular : Action.Regular config fleet
      (.claimForProcessing w claim.event later.clock .ok) := .of_worker own rfl rfl
  refine .step ticked (.of_silent rfl rfl trivial) (.step taken regular ?_)
  exact processable_of_attempting (calmLater.step taken regular trivial rfl) own attempting
    (event?_persists taken unfinished.stored)

end Worker

/-! ### A message in the queue -/

/-- The messages ahead of the event's are taken out of the queue one by one. -/
theorem processable_of_queued (lawful : codec.Lawful) (poised : Poised codec config fleet w d s)
    (queued : s.Queued id) (unfinished : s.db.Unfinished id) :
    Processable codec config fleet id s := by
  induction queue : s.ready generalizing s with
  | nil =>
      obtain ⟨message, member, _⟩ := queued
      rw [queue] at member
      cases member
  | cons head rest inductionHypothesis =>
      by_cases first : head.messageId = id
      · obtain ⟨event, after, taken, sameId, received, _, sameDb, _⟩ :=
          deliver_head lawful poised.calm poised.resting queue
        have regular : Action.Regular config fleet (.deliver w 0 head event) :=
          .of_worker poised.worker rfl rfl
        obtain rfl : event.id = id := sameId.trans first
        rw [← sameDb] at unfinished
        exact .step taken regular (processable_of_received
          (poised.calm.step taken regular trivial rfl) poised.worker received unfinished)
      · refine (rests_of_head lawful poised.calm poised.worker poised.resting queue).trans ?_
        intro after rested
        refine inductionHypothesis (poised.of_rested rested) ?_ ?_ rested.ready
        · obtain ⟨message, member, same⟩ := queued
          rw [queue] at member
          rcases List.mem_cons.mp member with isHead | inRest
          · exact absurd (isHead ▸ same) first
          · exact ⟨message, rested.ready ▸ inRest, same⟩
        · exact unfinished.of_event?
            (rested.aside.events id fun same => first (Option.some.inj same))

theorem processable_of_pending (lawful : codec.Lawful) (positive : 0 < config.outboxBatchSize)
    (poised : Poised codec config fleet w d s) (pending : s.db.Pending id)
    (unfinished : s.db.Unfinished id) : Processable codec config fleet id s := by
  refine (sends_row lawful poised.dispatcher positive poised.calm poised.waiting pending).trans ?_
  rintro after ⟨idled, queued⟩
  refine processable_of_queued lawful (poised.of_idled idled) queued (unfinished.of_event? ?_)
  rw [Database.event?, idled.kept.events, Database.event?]

/-! ### A failed event -/

/-- The command replays a failed event. -/
theorem possible_replay (poised : Poised codec config fleet w d s)
    (failed : s.db.status? id = some .failed) :
    Possible (step codec config) (Action.Regular config fleet)
      (fun s' => Poised codec config fleet w d s' ∧ s'.db.Pending id ∧ s'.db.Unfinished id) s := by
  have calm := poised.calm
  have reached := calm.reached.reachable
  obtain ⟨event, found, isFailed⟩ := s.db.status?_eq_some_iff.mp failed
  have present := (outboxSound reached).present id (by rw [found]; exact Option.some_ne_none _)
  have recorded := (failureRecorded reached).failed id failed
  have free := (ReplayCall.free_of_left (calm.ended (.replay (.cli 0)))).2
  have manual : (Caller.cli 0).Manual := trivial
  have unheld : s.db.Unheld id := ⟨calm.unlocked _, calm.unlocked _, calm.unlocked _⟩
  obtain ⟨final, ran, succeeded, events, outbox, _⟩ :=
    replayDeadLetter_run found isFailed present recorded unheld (le_refl s.clock) manual free
  have silent : ∀ action : Action Payload,
      action ∈ replayStatements (.cli 0) (event.replayTx s.clock) →
        action.worker? = none ∧ action.dispatcher? = none := by
    simp [replayStatements, Action.worker?, Action.dispatcher?]
  have faultFree : ∀ action : Action Payload,
      action ∈ replayStatements (.cli 0) (event.replayTx s.clock) → action.FaultFree config := by
    simp [replayStatements, Action.FaultFree]
  have regular : ∀ action : Action Payload,
      action ∈ replayStatements (.cli 0) (event.replayTx s.clock) → action.Regular config fleet :=
    fun action member => .of_silent (silent action member).1 (silent action member).2
      (faultFree action member)
  have ended : ∀ owner, final.left owner = 0 := by
    intro owner
    by_cases same : owner = .replay (.cli 0)
    · subst same
      change (final.replays (.cli 0)).left = 0
      rw [succeeded]
      rfl
    · rw [left_of_run ran ?_]
      · exact calm.ended owner
      · simpa [replayStatements, Action.owner?, Action.request?, Action.caller?] using same
  have reopened := Database.reopened_of_failed found present recorded s.clock
  obtain ⟨queuedRow, foundQueued, queued, _⟩ := reopened.event
  obtain ⟨_, row, _, foundRow, _, unpublished, _⟩ := reopened.outbox
  refine .of_run ran regular
    (.done ⟨poised.of_silentRun silent ran ended, ⟨row, ?_, unpublished⟩, ?_⟩)
  · rw [Database.outboxFor?, outbox]
    exact foundRow
  · refine Or.inl (final.db.status?_eq_some_iff.mpr ⟨queuedRow, ?_, queued⟩)
    rw [Database.event?, events]
    exact foundQueued

theorem processable_of_failed (lawful : codec.Lawful) (positive : 0 < config.outboxBatchSize)
    (poised : Poised codec config fleet w d s) (failed : s.db.status? id = some .failed) :
    Processable codec config fleet id s := by
  refine (possible_replay poised failed).trans ?_
  rintro after ⟨poisedAfter, pending, unfinished⟩
  exact processable_of_pending lawful positive poisedAfter pending unfinished

/-! ### A delivery in another worker's hands -/

section Held

variable {message : Message} {event : Event Payload} {claim : Claim Payload} {attempt : Nat}
  {error : String}

theorem processable_of_deadLettered (lawful : codec.Lawful) (positive : 0 < config.outboxBatchSize)
    (poised : Poised codec config fleet w d s) (own : v < fleet.workers) (apart : v ≠ w)
    (phase : (s.workers v).phase = .deadLettered claim attempt error)
    (stored : s.db.event? claim.event.id ≠ none) :
    Processable codec config fleet claim.event.id s := by
  obtain ⟨after, taken, failed⟩ : ∃ after,
      step codec config s (.markFailed v claim attempt error s.clock .ok) = some after ∧
        after.db.status? claim.event.id = some .failed :=
    ⟨_, if_pos ⟨phase, le_refl _, fun _ => poised.calm.unlocked _⟩,
      Database.status?_markFailed stored attempt error s.clock⟩
  have regular : Action.Regular config fleet (.markFailed v claim attempt error s.clock .ok) :=
    .of_worker own rfl rfl
  exact .step taken regular
    (processable_of_failed lawful positive (poised.step taken regular rfl apart) failed)

theorem processable_of_exhausted (lawful : codec.Lawful) (positive : 0 < config.outboxBatchSize)
    (poised : Poised codec config fleet w d s) (own : v < fleet.workers) (apart : v ≠ w)
    (phase : (s.workers v).phase = .exhausted claim attempt error)
    (stored : s.db.event? claim.event.id ≠ none) :
    Processable codec config fleet claim.event.id s := by
  obtain ⟨payload, after, taken, deadLettered, sameEvents, _⟩ :=
    saveDeadLetter_taken lawful poised.calm phase
  have regular : Action.Regular config fleet
      (.saveDeadLetter v claim attempt error payload s.clock .ok) := .of_worker own rfl rfl
  have stillStored : after.db.event? claim.event.id ≠ none := by
    rw [Database.event?, sameEvents]
    exact stored
  exact .step taken regular (processable_of_deadLettered lawful positive
    (poised.step taken regular rfl apart) own apart deadLettered stillStored)

/-- The worker puts the message back. -/
theorem processable_of_requeue (lawful : codec.Lawful) (poised : Poised codec config fleet w d s)
    (rests : Rests codec config fleet v none (s.ready ++ [message]) s)
    (unfinished : s.db.Unfinished message.messageId) :
    Processable codec config fleet message.messageId s := by
  refine rests.trans fun after rested => ?_
  have queued : after.Queued message.messageId := by
    refine ⟨message, ?_, rfl⟩
    rw [rested.ready]
    exact List.mem_append_right _ List.mem_cons_self
  exact processable_of_queued lawful (poised.of_rested rested) queued
    (unfinished.of_event? (rested.aside.events _ (Option.some_ne_none _).symm))

/-- A worker that has written or read a final status has no message of the current opening. -/
theorem requeue_of_unfinished (lawful : codec.Lawful) (reached : Reachable codec config s)
    {settlement : Settlement} (held : (s.workers v).delivery = some message)
    (decided : (s.workers v).phase.settlement? = some (event, settlement))
    (sameId : message.messageId = event.id)
    (current : message.opening = s.history.openings message.messageId)
    (unfinished : s.db.Unfinished message.messageId) : settlement = .requeue := by
  have tracked := deliveriesTracked lawful reached
  cases settlement with
  | requeue => rfl
  | discard => exact absurd decided (tracked.kept v event)
  | ack opening =>
      have sound := tracked.acks v event opening decided
      have covered := sound.covers message held
      rw [current, sameId] at covered
      rw [sameId] at unfinished
      rcases sound.final (Nat.le_antisymm sound.bounded covered) with processed | failed
      · simp [Database.Unfinished, processed] at unfinished
      · simp [Database.Unfinished, failed] at unfinished

/-- Whoever has the message of the current opening of an unfinished event can go on with it. -/
theorem processable_of_held (lawful : codec.Lawful) (positive : 0 < config.outboxBatchSize)
    (poised : Poised codec config fleet w d s) (held : (s.workers v).delivery = some message)
    (current : message.opening = s.history.openings message.messageId)
    (unfinished : s.db.Unfinished message.messageId) :
    Processable codec config fleet message.messageId s := by
  have calm := poised.calm
  have reached := calm.reached.reachable
  have busy : s.workers v ≠ Worker.idle := by
    intro idle
    rw [idle] at held
    cases held
  have own := busyInFleet calm.reached v busy
  have apart : v ≠ w := by
    rintro rfl
    exact busy poised.resting
  have stored := unfinished.stored
  have handled := (deliveriesTracked lawful reached).handled v message
  cases phase : (s.workers v).phase with
  | idle => simp [idleHandsEmpty reached v phase] at held
  | received event =>
      have sameId := handled event held (by rw [phase]; rfl)
      rw [sameId] at unfinished ⊢
      exact processable_of_received calm own phase unfinished
  | unclaimed event =>
      have sameId := handled event held (by rw [phase]; rfl)
      have inProgress : Database.claimResultOf (s.db.status? event.id) = .inProgress := by
        rw [← sameId]
        rcases unfinished with queued | processing
        · rw [queued]
          rfl
        · rw [processing]
          rfl
      have rests := rests_of_unclaimed calm own phase none
      rw [inProgress, held] at rests
      exact processable_of_requeue lawful poised rests unfinished
  | attempting claim attempt =>
      have sameId := handled claim.event held (by rw [phase]; rfl)
      rw [sameId] at stored ⊢
      exact processable_of_attempting calm own phase stored
  | succeeded claim attempt =>
      have sameId := handled claim.event held (by rw [phase]; rfl)
      rw [sameId] at stored ⊢
      exact processable_of_succeeded calm own phase stored
  | exhausted claim attempt error =>
      have sameId := handled claim.event held (by rw [phase]; rfl)
      rw [sameId] at stored ⊢
      exact processable_of_exhausted lawful positive poised own apart phase stored
  | deadLettered claim attempt error =>
      have sameId := handled claim.event held (by rw [phase]; rfl)
      rw [sameId] at stored ⊢
      exact processable_of_deadLettered lawful positive poised own apart phase stored
  | returning claim written settlement =>
      have sameId := handled claim.event held (by rw [phase]; rfl)
      obtain rfl := requeue_of_unfinished lawful reached held (by rw [phase]; rfl) sameId current
        unfinished
      have rests := rests_of_returning calm own phase none
      rw [held] at rests
      exact processable_of_requeue lawful poised rests unfinished
  | settling event settlement =>
      have sameId := handled event held (by rw [phase]; rfl)
      obtain rfl := requeue_of_unfinished lawful reached held (by rw [phase]; rfl) sameId current
        unfinished
      have rests := rests_of_settling calm own phase none
      rw [held] at rests
      exact processable_of_requeue lawful poised rests unfinished

end Held

theorem processable_of_unfinished (lawful : codec.Lawful) (positive : 0 < config.outboxBatchSize)
    (poised : Poised codec config fleet w d s) (unfinished : s.db.Unfinished id) :
    Processable codec config fleet id s := by
  have reached := poised.calm.reached.reachable
  obtain ⟨row, found⟩ := Option.ne_none_iff_exists'.mp
    ((outboxSound reached).present id unfinished.stored)
  by_cases unpublished : row.publishedAt = none
  · exact processable_of_pending lawful positive poised ⟨row, found, unpublished⟩ unfinished
  · have marks := poised.calm.reached.mono fun _ _ _ governed => governed.marks
    obtain ⟨sent, enqueued, sameId, current⟩ :=
      publishedCurrent lawful marks id row found unpublished
    subst sameId
    rcases (deliveriesTracked lawful reached).current sent enqueued current with
      (ready | ⟨holder, held⟩) | final
    · exact processable_of_queued lawful poised ⟨sent, ready, rfl⟩ unfinished
    · exact processable_of_held lawful positive poised held current unfinished
    · rcases final with processed | failed
      · simp [Database.Unfinished, processed] at unfinished
      · simp [Database.Unfinished, failed] at unfinished

/-- One worker and one dispatcher. -/
def Fleet.single : Fleet :=
  { workers := 1
    dispatchers := 1 }

end WebhookProcessor
