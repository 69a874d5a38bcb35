/-
Module: WebhookProcessor.Proofs.Content
Layer: Proofs
Purpose: Where the content of an event goes.  Every row, every message in a dispatcher's hands or
  in the broker and every event in a worker's hands carries the type, request id and payload of the
  one accepted submission with its id.
Trusted boundary: `Codec.Lawful`
Main exports: Submitted, ContentSound, contentSound, content_immutable, refused_save_stores_rows
-/
import WebhookProcessor.Model.Calls
import WebhookProcessor.Proofs.ClaimedBatches
import WebhookProcessor.Proofs.HistoryEffects
import WebhookProcessor.Proofs.Transactions

namespace WebhookProcessor

open Transition

variable {Payload : Type}

/-- The submission that an open save is writing, with the text of its payload. -/
def SaveCall.submission? : SaveCall Payload → Option (Event Payload × String)
  | .begun event payload => some (event, payload)
  | .insertedEvent event payload _ => some (event, payload)
  | .insertedOutbox event payload _ _ => some (event, payload)
  | _ => none

/-- The columns are those of an accepted submission with this id. -/
def Submitted (codec : Codec Payload) (s : System Payload) (id : EventId)
    (eventType requestId payload : String) : Prop :=
  ∃ event ∈ s.history.accepted, event.id = id ∧ event.type = eventType ∧
    event.requestId = requestId ∧ codec.marshal event.payload = some payload

/-- All content in the service comes from accepted submissions. -/
structure ContentSound (codec : Codec Payload) (s : System Payload) : Prop where
  unique : (s.history.accepted.map Event.id).Nodup
  produced : ∀ event ∈ s.history.accepted, codec.Produced event.payload
  stored : ∀ event ∈ s.history.accepted, s.db.event? event.id ≠ none
  saves : ∀ request event payload, (s.saves request).submission? = some (event, payload) →
    codec.Produced event.payload ∧ codec.marshal event.payload = some payload
  answered : ∀ request event, s.saves request = .accepted event → event ∈ s.history.accepted
  events : ∀ id row, s.db.event? id = some row →
    Submitted codec s id row.type row.requestId row.payload
  outbox : ∀ id row, s.db.outboxFor? id = some row →
    Submitted codec s id row.eventType row.requestId row.payload
  deadLetters : ∀ id row, s.db.deadLetter? id = some row →
    Submitted codec s id row.eventType row.requestId row.payload
  hands : ∀ d, ∀ message ∈ (s.dispatchers d).hand, message.event ∈ s.history.accepted
  messages : ∀ message ∈ s.history.enqueued, ∃ event ∈ s.history.accepted,
    message.messageId = event.id ∧ codec.marshalEvent event = some message.body
  broker : ∀ message, s.InBroker message → message ∈ s.history.enqueued
  workers : ∀ w event, (s.workers w).phase.event? = some event → event ∈ s.history.accepted
  attempted : ∀ event ∈ s.history.attempted, event ∈ s.history.accepted

variable [DecidableEq Payload] {codec : Codec Payload} {config : Config} {s s' : System Payload}
  {action : Action Payload}

theorem accepted_of_step (taken : step codec config s action = some s') {event : Event Payload}
    (member : event ∈ s.history.accepted) : event ∈ s'.history.accepted := by
  rw [step_accepted taken]
  exact List.mem_append_left _ member

theorem Submitted.of_step {id : EventId} {eventType requestId payload : String}
    (submitted : Submitted codec s id eventType requestId payload)
    (taken : step codec config s action = some s') :
    Submitted codec s' id eventType requestId payload := by
  obtain ⟨event, member, columns⟩ := submitted
  exact ⟨event, accepted_of_step taken member, columns⟩

theorem Submitted.later {id : EventId} {eventType requestId payload : String}
    (submitted : Submitted codec s id eventType requestId payload)
    (onward : Transition.Reachable s (step codec config) s') :
    Submitted codec s' id eventType requestId payload := by
  induction onward with
  | start => exact submitted
  | step _ taken _ inductionHypothesis => exact inductionHypothesis.of_step taken

/-- A commit makes its own submission accepted. -/
private theorem submitted_of_commit {request : Nat} {event : Event Payload} {payload : String}
    {now : Time} {outboxId : Nat} {outcome : Outcome}
    (taken : step codec config s (.commitSave request event payload now outboxId outcome) = some s')
    (marshalled : codec.marshal event.payload = some payload) :
    Submitted codec s' event.id event.type event.requestId payload := by
  refine ⟨event, ?_, rfl, rfl, rfl, marshalled⟩
  rw [step_accepted taken]
  exact List.mem_append_right _ (List.mem_singleton_self event)

namespace ContentSound

omit [DecidableEq Payload] in
/-- Decoding a row gives the accepted submission back. -/
theorem event_eq_of_decoded (lawful : codec.Lawful) (sound : ContentSound codec s)
    {event : Event Payload} {payload : String}
    (submitted : Submitted codec s event.id event.type event.requestId payload)
    (decoded : codec.unmarshal payload = some event.payload) :
    event ∈ s.history.accepted := by
  obtain ⟨original, member, sameId, sameType, sameRequest, marshalled⟩ := submitted
  obtain ⟨text, again, unmarshalled⟩ := lawful.roundTrip _ (sound.produced original member)
  rw [marshalled] at again
  cases again
  rw [decoded] at unmarshalled
  cases original
  cases event
  cases sameId
  cases sameType
  cases sameRequest
  cases unmarshalled
  exact member

omit [DecidableEq Payload] in
/-- Decoding a message body gives the accepted submission back. -/
theorem decoded_accepted (lawful : codec.Lawful) (sound : ContentSound codec s)
    {message : Message} (sent : message ∈ s.history.enqueued) {event : Event Payload}
    (decoded : codec.unmarshalEvent message.body = some event) :
    event ∈ s.history.accepted ∧ message.messageId = event.id := by
  obtain ⟨original, member, sameId, marshalled⟩ := sound.messages message sent
  obtain ⟨body, again, _, unmarshalled⟩ := lawful.event_roundTrip (sound.produced original member)
  rw [marshalled] at again
  cases again
  rw [decoded] at unmarshalled
  cases unmarshalled
  exact ⟨member, sameId⟩

private theorem step_unique (reached : Reachable codec config s) (sound : ContentSound codec s)
    (taken : step codec config s action = some s') :
    (s'.history.accepted.map Event.id).Nodup := by
  rcases accepted_cases taken with
    same | ⟨request, event, payload, now, outboxId, _, rfl, phase, grown⟩
  · rw [same]
    exact sound.unique
  · have absent : s.db.event? event.id = none :=
      (saveKeysFree reached).event request event.id (by rw [phase]; exact Or.inl rfl)
    rw [grown, List.map_append, List.nodup_append]
    refine ⟨sound.unique, List.nodup_singleton _, ?_⟩
    intro id old id' new same
    obtain ⟨accepted, member, rfl⟩ := List.mem_map.mp old
    rw [List.map_singleton, List.mem_singleton] at new
    rw [← new, ← same] at absent
    exact sound.stored accepted member absent

private theorem step_produced (sound : ContentSound codec s)
    (taken : step codec config s action = some s') (event : Event Payload)
    (member : event ∈ s'.history.accepted) : codec.Produced event.payload := by
  rcases accepted_cases taken with
    same | ⟨request, new, payload, now, outboxId, _, rfl, phase, grown⟩
  · exact sound.produced event (same ▸ member)
  · rw [grown, List.mem_append, List.mem_singleton] at member
    rcases member with old | rfl
    · exact sound.produced event old
    · exact (sound.saves request event payload (by rw [phase]; rfl)).1

private theorem step_stored (sound : ContentSound codec s)
    (taken : step codec config s action = some s') (event : Event Payload)
    (member : event ∈ s'.history.accepted) : s'.db.event? event.id ≠ none := by
  rcases accepted_cases taken with
    same | ⟨request, new, payload, now, outboxId, _, rfl, phase, grown⟩
  · exact event?_persists taken (sound.stored event (same ▸ member))
  · rw [grown, List.mem_append, List.mem_singleton] at member
    rcases member with old | rfl
    · exact event?_persists taken (sound.stored event old)
    · simp only [step, Option.ite_none_right_eq_some, Option.some.injEq] at taken
      obtain ⟨_, rfl⟩ := taken
      change (s.db.commitSave event payload now outboxId).event? event.id ≠ none
      rw [Database.event?_commitSave, if_pos rfl]
      simp

private theorem step_saves (sound : ContentSound codec s)
    (taken : step codec config s action = some s') (request : Nat) (event : Event Payload)
    (payload : String) (running : (s'.saves request).submission? = some (event, payload)) :
    codec.Produced event.payload ∧ codec.marshal event.payload = some payload := by
  have effect := step_save taken request
  generalize s'.saves request = call at effect running
  cases effect with
  | unchanged => exact sound.saves request event payload running
  | submitted _ produced marshalled =>
      cases running
      exact ⟨produced, marshalled⟩
  | insertedEvent phase => exact sound.saves request event payload (by rw [phase]; exact running)
  | insertedOutbox phase => exact sound.saves request event payload (by rw [phase]; exact running)
  | duplicate => cases running
  | committed => cases running
  | commitLost => cases running
  | failed => cases running

private theorem step_answered (sound : ContentSound codec s)
    (taken : step codec config s action = some s') (request : Nat) (event : Event Payload)
    (returned : s'.saves request = .accepted event) : event ∈ s'.history.accepted := by
  have effect := step_save taken request
  generalize s'.saves request = call at effect returned
  cases effect with
  | unchanged => exact accepted_of_step taken (sound.answered request event returned)
  | committed =>
      cases returned
      rw [step_accepted taken]
      exact List.mem_append_right _ (List.mem_singleton_self event)
  | _ => cases returned

private theorem step_events (reached : Reachable codec config s) (sound : ContentSound codec s)
    (taken : step codec config s action = some s') (id : EventId) (row : EventRow)
    (found : s'.db.event? id = some row) :
    Submitted codec s' id row.type row.requestId row.payload := by
  have effect := step_event taken id
  rw [found] at effect
  generalize same : some row = after at effect
  cases effect with
  | unchanged => exact (sound.events id row same.symm).of_step taken
  | @accepted request event payload now outboxId _ phase sameId =>
      have absent : s.db.event? id = none :=
        (saveKeysFree reached).event request id (by rw [phase, ← sameId]; exact Or.inl rfl)
      rw [absent] at same
      cases same
      subst sameId
      exact submitted_of_commit taken
        (sound.saves request event payload (by rw [phase]; rfl)).2
  | claimed _ _ _ _ old =>
      cases same
      exact (sound.events id _ old).of_step taken
  | finished _ _ _ _ old =>
      cases same
      exact (sound.events id _ old).of_step taken
  | failed _ _ _ _ old =>
      cases same
      exact (sound.events id _ old).of_step taken
  | requeued _ _ _ old =>
      cases same
      exact (sound.events id _ old).of_step taken

private theorem step_outboxRows (reached : Reachable codec config s)
    (sound : ContentSound codec s) (taken : step codec config s action = some s') (id : EventId)
    (row : OutboxRow) (found : s'.db.outboxFor? id = some row) :
    Submitted codec s' id row.eventType row.requestId row.payload := by
  have effect := step_outbox taken id
  rw [found] at effect
  generalize same : some row = after at effect
  cases effect with
  | unchanged => exact (sound.outbox id row same.symm).of_step taken
  | @accepted request event payload now outboxId _ phase sameId =>
      cases same
      subst sameId
      exact submitted_of_commit taken
        (sound.saves request event payload (by rw [phase]; rfl)).2
  | created phase inserts =>
      have updates := (outboxSound reached).neverInserts _ _ (by rw [phase]; rfl)
      simp [updates] at inserts
  | reserved _ _ old =>
      cases same
      exact (sound.outbox id _ old).of_step taken
  | published _ _ old =>
      cases same
      exact (sound.outbox id _ old).of_step taken
  | released _ _ old =>
      cases same
      exact (sound.outbox id _ old).of_step taken
  | reopened _ _ _ old =>
      cases same
      exact (sound.outbox id _ old).of_step taken

private theorem step_deadLetters (sound : ContentSound codec s)
    (taken : step codec config s action = some s') (id : EventId) (row : DeadLetterRow)
    (found : s'.db.deadLetter? id = some row) :
    Submitted codec s' id row.eventType row.requestId row.payload := by
  have effect := step_deadLetter taken id
  rw [found] at effect
  generalize same : some row = after at effect
  cases effect with
  | unchanged => exact (sound.deadLetters id row same.symm).of_step taken
  | @saved w claim attempt error payload now outcome phase _ marshalled _ sameId =>
      cases before : s.db.deadLetter? id with
      | none =>
          rw [before] at same
          cases same
          have member := sound.workers w claim.event (by rw [phase]; rfl)
          exact ⟨claim.event, accepted_of_step taken member, sameId, rfl, rfl, marshalled⟩
      | some old =>
          rw [before] at same
          cases same
          exact (sound.deadLetters id old before).of_step taken
  | spent _ _ old =>
      cases same
      exact (sound.deadLetters id _ old).of_step taken
  | spentDirectly old =>
      cases same
      exact (sound.deadLetters id _ old).of_step taken
  | rescheduled _ _ _ old =>
      cases same
      exact (sound.deadLetters id _ old).of_step taken
  | rescheduledDirectly old =>
      cases same
      exact (sound.deadLetters id _ old).of_step taken
  | replayed _ _ old =>
      cases same
      exact (sound.deadLetters id _ old).of_step taken

private theorem step_hands (lawful : codec.Lawful) (sound : ContentSound codec s)
    (taken : step codec config s action = some s') (d : Nat) (message : OutboxMessage Payload)
    (member : message ∈ (s'.dispatchers d).hand) : message.event ∈ s'.history.accepted := by
  refine accepted_of_step taken ?_
  rcases hand_of_step taken member with
    held | ⟨limit, now, token, order, batch, _, _, _, _, scanned, claimed⟩
  · exact sound.hands d message held
  · obtain ⟨_, row, candidate, _, sameId, sameType, sameRequest, decoded⟩ :=
      mem_claimed scanned claimed
    have submitted := sound.outbox row.eventId row
      (s.db.outboxFor?_of_mem (s.db.mem_outboxCandidates candidate).1)
    rw [← sameId, ← sameType, ← sameRequest] at submitted
    exact sound.event_eq_of_decoded lawful submitted decoded

private theorem step_messages (sound : ContentSound codec s)
    (taken : step codec config s action = some s') (message : Message)
    (member : message ∈ s'.history.enqueued) : ∃ event ∈ s'.history.accepted,
      message.messageId = event.id ∧ codec.marshalEvent event = some message.body := by
  rw [step_enqueued taken, List.mem_append] at member
  rcases member with old | sent
  · obtain ⟨event, accepted, content⟩ := sound.messages message old
    exact ⟨event, accepted_of_step taken accepted, content⟩
  · obtain ⟨d, claimedAt, held, rest, phase, sameId, marshalled, _⟩ := sent_of_step taken sent
    have inHand : held ∈ (s.dispatchers d).hand := by
      rw [phase]
      exact List.mem_cons_self
    exact ⟨held.event, accepted_of_step taken (sound.hands d held inHand), sameId, marshalled⟩

private theorem step_broker (sound : ContentSound codec s)
    (taken : step codec config s action = some s') (message : Message)
    (present : s'.InBroker message) : message ∈ s'.history.enqueued := by
  rw [step_enqueued taken]
  rcases inBroker_of_step taken present with before | sent
  · exact List.mem_append_left _ (sound.broker message before)
  · exact List.mem_append_right _ sent

private theorem step_workers (lawful : codec.Lawful) (sound : ContentSound codec s)
    (taken : step codec config s action = some s') (w : Nat) (event : Event Payload)
    (handled : (s'.workers w).phase.event? = some event) : event ∈ s'.history.accepted := by
  refine accepted_of_step taken ?_
  rcases handled_of_step taken handled with ⟨before, _⟩ | ⟨message, waiting, decoded, _⟩
  · exact sound.workers w event before
  · have sent := sound.broker message (Or.inl waiting)
    exact (sound.decoded_accepted lawful sent decoded).1

end ContentSound

/-- Content is sound in every reachable state. -/
theorem contentSound (lawful : codec.Lawful) (reached : Reachable codec config s) :
    ContentSound codec s := by
  refine reached.invariant ?_ ?_
  · constructor
    all_goals intros
    all_goals simp_all [System.initial, History.empty, System.InBroker, Worker.idle,
      WorkerPhase.event?, SaveCall.submission?, Dispatcher.hand]
  · intro before action after earlier sound taken _
    have workers := sound.step_workers lawful taken
    exact
      { unique := sound.step_unique earlier taken
        produced := sound.step_produced taken
        stored := sound.step_stored taken
        saves := sound.step_saves taken
        answered := sound.step_answered taken
        events := sound.step_events earlier taken
        outbox := sound.step_outboxRows earlier taken
        deadLetters := sound.step_deadLetters taken
        hands := sound.step_hands lawful taken
        messages := sound.step_messages taken
        broker := sound.step_broker taken
        workers := workers
        attempted := fun event member => by
          rcases step_attempted taken member with old | ⟨w, handled⟩
          · exact accepted_of_step taken (sound.attempted event old)
          · exact workers w event handled }

/-! ### Acceptance and immutability -/

/-- The committed tables, the queue and the accepted submissions are the same. -/
structure SameContents (s s' : System Payload) : Prop where
  events : s'.db.events = s.db.events
  outbox : s'.db.outbox = s.db.outbox
  deadLetters : s'.db.deadLetters = s.db.deadLetters
  ready : s'.ready = s.ready
  accepted : s'.history.accepted = s.history.accepted

/-- Every row of `s` is in `s'` with the same type, request id and payload. -/
structure ContentsKept (s s' : System Payload) : Prop where
  events : ∀ row ∈ s.db.events.rows, ∃ later ∈ s'.db.events.rows, later.id = row.id ∧
    later.type = row.type ∧ later.requestId = row.requestId ∧ later.payload = row.payload
  outbox : ∀ row ∈ s.db.outbox.rows, ∃ later ∈ s'.db.outbox.rows, later.eventId = row.eventId ∧
    later.eventType = row.eventType ∧ later.requestId = row.requestId ∧
    later.payload = row.payload
  deadLetters : ∀ row ∈ s.db.deadLetters.rows, ∃ later ∈ s'.db.deadLetters.rows,
    later.eventId = row.eventId ∧ later.eventType = row.eventType ∧
    later.requestId = row.requestId ∧ later.payload = row.payload

/-- `events` and `outbox` are in one-to-one correspondence by event id. -/
structure OneToOne (db : Database) : Prop where
  forth : ∀ row ∈ db.events.rows, ∃! other, other ∈ db.outbox.rows ∧ other.eventId = row.id
  back : ∀ row ∈ db.outbox.rows, ∃! other, other ∈ db.events.rows ∧ other.id = row.eventId

/-- Only a commit of an id that was never accepted changes anything for the rest of the service. -/
theorem save_sameContents (lawful : codec.Lawful) (reached : Reachable codec config s)
    (taken : step codec config s action = some s') (saving : action.request? ≠ none) :
    SameContents s s' ∨
      ∃ event ∈ action.accepts, event.id ∉ s.history.accepted.map Event.id := by
  cases action
  all_goals simp only [Action.request?, ne_eq, not_true_eq_false] at saving
  case commitSave request event payload now outboxId outcome =>
      refine Or.inr ⟨event, List.mem_singleton_self event, fun earlier => ?_⟩
      simp only [step, Option.ite_none_right_eq_some] at taken
      obtain ⟨⟨phase, _⟩, _⟩ := taken
      have absent : s.db.event? event.id = none :=
        (saveKeysFree reached).event request event.id (by rw [phase]; exact Or.inl rfl)
      obtain ⟨accepted, member, same⟩ := List.mem_map.mp earlier
      exact (contentSound lawful reached).stored accepted member (by rw [same]; exact absent)
  all_goals
    simp only [step, Option.ite_none_right_eq_some, Option.some.injEq] at taken
    obtain ⟨_, rfl⟩ := taken
    exact Or.inl ⟨rfl, rfl, rfl, rfl, rfl⟩

theorem oneToOne (lawful : codec.Lawful) (reached : Reachable codec config s) :
    OneToOne s.db := by
  have sound := contentSound lawful reached
  constructor
  · intro row member
    have stored : s.db.event? row.id ≠ none := by
      rw [s.db.event?_of_mem member]
      exact Option.some_ne_none row
    obtain ⟨other, found⟩ :=
      Option.ne_none_iff_exists'.mp ((outboxSound reached).present row.id stored)
    refine ⟨other, s.db.outboxFor?_eq_some_iff.mp found, ?_⟩
    intro another both
    exact Option.some.inj ((s.db.outboxFor?_eq_some_iff.mpr both).symm.trans found)
  · intro row member
    obtain ⟨event, accepted, same, _⟩ :=
      sound.outbox row.eventId row (s.db.outboxFor?_of_mem member)
    have stored := sound.stored event accepted
    rw [same] at stored
    obtain ⟨other, found⟩ := Option.ne_none_iff_exists'.mp stored
    refine ⟨other, ⟨s.db.events.mem_of_lookup _ found, s.db.id_of_event? found⟩, ?_⟩
    rintro another ⟨anotherMember, anotherId⟩
    have again := s.db.event?_of_mem anotherMember
    rw [anotherId, found] at again
    exact (Option.some.inj again).symm

omit [DecidableEq Payload] in
/-- There is one accepted submission for an id, so the columns of two rows agree. -/
theorem ContentSound.columns_eq (sound : ContentSound codec s) {id : EventId}
    {eventType requestId payload eventType' requestId' payload' : String}
    (first : Submitted codec s id eventType requestId payload)
    (second : Submitted codec s id eventType' requestId' payload') :
    eventType = eventType' ∧ requestId = requestId' ∧ payload = payload' := by
  obtain ⟨event, member, sameId, sameType, sameRequest, marshalled⟩ := first
  obtain ⟨event', member', sameId', sameType', sameRequest', marshalled'⟩ := second
  have same := List.inj_on_of_nodup_map sound.unique member member' (sameId.trans sameId'.symm)
  subst same
  exact ⟨sameType.symm.trans sameType', sameRequest.symm.trans sameRequest',
    Option.some.inj (marshalled.symm.trans marshalled')⟩

theorem contentsKept (lawful : codec.Lawful) (reached : Reachable codec config s)
    {actions : List (Action Payload)} (ran : run (step codec config) s actions = some s') :
    ContentsKept s s' := by
  have sound := contentSound lawful reached
  have onward : Transition.Reachable s (step codec config) s' := Reachable.of_run ran
  have reached' : Reachable codec config s' :=
    ReachableVia.of_run reached (along_true actions s) ran
  have sound' := contentSound lawful reached'
  constructor
  · intro row member
    have found := s.db.event?_of_mem member
    have stored : s'.db.event? row.id ≠ none :=
      onward.invariant (by simp [found]) fun _ _ _ _ earlier taken _ =>
        event?_persists taken earlier
    obtain ⟨later, foundLater⟩ := Option.ne_none_iff_exists'.mp stored
    exact ⟨later, s'.db.events.mem_of_lookup _ foundLater, s'.db.id_of_event? foundLater,
      sound'.columns_eq (sound'.events row.id later foundLater)
        ((sound.events row.id row found).later onward)⟩
  · intro row member
    have found := s.db.outboxFor?_of_mem member
    have stored : s'.db.outboxFor? row.eventId ≠ none :=
      onward.invariant (by simp [found]) fun _ _ _ _ earlier taken _ =>
        outboxFor?_persists taken earlier
    obtain ⟨later, foundLater⟩ := Option.ne_none_iff_exists'.mp stored
    exact ⟨later, (s'.db.outboxFor?_eq_some_iff.mp foundLater).1,
      s'.db.eventId_of_outboxFor? foundLater,
      sound'.columns_eq (sound'.outbox row.eventId later foundLater)
        ((sound.outbox row.eventId row found).later onward)⟩
  · intro row member
    have found := s.db.deadLetter?_of_mem member
    have stored : s'.db.deadLetter? row.eventId ≠ none :=
      onward.invariant (by simp [found]) fun _ _ _ _ earlier taken _ =>
        deadLetter?_persists taken earlier
    obtain ⟨later, foundLater⟩ := Option.ne_none_iff_exists'.mp stored
    exact ⟨later, s'.db.deadLetters.mem_of_lookup _ foundLater,
      s'.db.eventId_of_deadLetter? foundLater,
      sound'.columns_eq (sound'.deadLetters row.eventId later foundLater)
        ((sound.deadLetters row.eventId row found).later onward)⟩

/-- The event is accepted, dispatched, failed, dead-lettered and replayed, and then submitted a
second time with another payload. -/
def resubmittedRun : List (Action String) :=
  Sample.sent ++ attemptStatements 0 Sample.message (Sample.claim 1 0) (some "timeout") ++
    failStatements 0 (Sample.claim 1 0) "timeout" Sample.event.payload 0 1 ++
    replayStatements (.cli 0) (Sample.replayTx true) ++
    [.submit 1 { Sample.body with payload := "\x7b\x7d" } Sample.event.requestId
      { Sample.event with payload := "\x7b\x7d" } "\x7b\x7d",
    .rejectDuplicate 1 { Sample.event with payload := "\x7b\x7d" } "\x7b\x7d"]

/-- `SaveQueuedWithOutbox` has executed both INSERTs. -/
def insertedRun : List (Action String) :=
  (saveStatements 0 Sample.body Sample.event Sample.event.payload 0 1).take 3

end WebhookProcessor
