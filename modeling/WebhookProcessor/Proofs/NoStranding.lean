/-
Module: WebhookProcessor.Proofs.NoStranding
Layer: Proofs
Purpose: An event that is queued or processing can still be worked on: its outbox row is
  unpublished or the broker has a message for it.  The argument follows the openings of the outbox
  row.  A message of the current opening leaves the broker only when the event has a final status,
  so what is left to show is that a published row was published for its current opening; the
  service guarantees this only for dispatchers that mark a row before it is reopened.
Trusted boundary: `Codec.Lawful`
Main exports: MarksCurrentOpening, DeliveriesTracked, deliveriesTracked, PublishedCurrent,
  no_event_stranded, event_stranded_by_late_mark
-/
import WebhookProcessor.Proofs.Content
import WebhookProcessor.Proofs.ExclusiveProcessing
import WebhookProcessor.Proofs.LifeCycle
import WebhookProcessor.Proofs.Replays

namespace WebhookProcessor

open Transition

/-- The status after which `handleDelivery` acknowledges a message. -/
def Database.Final (db : Database) (id : EventId) : Prop :=
  db.status? id = some .processed ∨ db.status? id = some .failed

variable {Payload : Type}

/-- An executed `MarkOutboxPublished` finds the row as it was opened when its message was
published: no replay of the event committed since. -/
def MarksCurrentOpening (before : System Payload) (action : Action Payload)
    (_ : System Payload) : Prop :=
  match action with
  | .markOutboxPublished _ _ message opening _ _ outcome =>
      outcome.Effective → before.db.Reserved message.id message.dispatchToken →
        opening = before.history.openings message.event.id
  | _ => True

instance (before : System Payload) (action : Action Payload) (after : System Payload) :
    Decidable (MarksCurrentOpening before action after) := by
  apply Action.casesOn (motive := fun action =>
    Decidable (MarksCurrentOpening before action after)) action
  all_goals
    intros
    delta MarksCurrentOpening
    infer_instance

/-- A worker may acknowledge its delivery: the final status it saw is at least as recent as the
delivered message, and it stands unless the outbox row has been reopened since. -/
structure AckSound (s : System Payload) (event : Event Payload) (delivery : Option Message)
    (opening : Nat) : Prop where
  bounded : opening ≤ s.history.openings event.id
  covers : ∀ message, delivery = some message → message.opening ≤ opening
  final : opening = s.history.openings event.id → s.db.Final event.id

/-- Where the messages of the outbox rows are. -/
structure DeliveriesTracked (s : System Payload) : Prop where
  sent : ∀ message ∈ s.history.enqueued,
    message.opening ≤ s.history.openings message.messageId
  hands : ∀ d, ∀ message ∈ (s.dispatchers d).hand, ∃ row,
    s.db.outboxFor? message.event.id = some row ∧ row.id = message.id
  published : ∀ d claimedAt message opening rest,
    s.dispatchers d = .published claimedAt message opening rest →
      ∃ sent ∈ s.history.enqueued, sent.messageId = message.event.id ∧ sent.opening = opening
  handled : ∀ w message event, (s.workers w).delivery = some message →
    (s.workers w).phase.event? = some event → message.messageId = event.id
  acks : ∀ w event opening, (s.workers w).phase.settlement? = some (event, .ack opening) →
    AckSound s event (s.workers w).delivery opening
  kept : ∀ w event, (s.workers w).phase.settlement? ≠ some (event, .discard)
  current : ∀ message ∈ s.history.enqueued,
    message.opening = s.history.openings message.messageId →
      s.InBroker message ∨ s.db.Final message.messageId

theorem afterAttempt_settlement? (config : Config) (claim : Claim Payload) (attempt : Nat)
    (error : Option String) : (afterAttempt config claim attempt error).settlement? = none := by
  cases error with
  | none => rfl
  | some error =>
      simp only [afterAttempt]
      split <;> rfl

variable [DecidableEq Payload] {codec : Codec Payload} {config : Config} {s s' : System Payload}
  {action : Action Payload}

/-! ### One step -/

theorem openings_le_of_step (taken : step codec config s action = some s') (id : EventId) :
    s.history.openings id ≤ s'.history.openings id := by
  rw [step_openings taken]
  exact Nat.le_add_right _ _

/-- A final status stays final until the outbox row is reopened. -/
theorem final_of_step (taken : step codec config s action = some s') {id : EventId}
    (same : s'.history.openings id = s.history.openings id) (final : s.db.Final id) :
    s'.db.Final id := by
  have notOpened : action.opens? ≠ some id := by
    intro opened
    rw [step_openings taken, if_pos opened] at same
    omega
  have effect := step_event taken id
  unfold Database.Final Database.status? at final ⊢
  generalize s'.db.event? id = after at effect
  cases effect with
  | unchanged => exact final
  | accepted _ sameId => exact absurd (congrArg some sameId) notOpened
  | requeued _ _ sameId => exact absurd (congrArg some sameId) notOpened
  | finished => exact Or.inl rfl
  | failed => exact Or.inr rfl
  | claimed _ _ _ _ found claimable =>
      -- a row with a final status is not claimable
      rw [found] at final
      rcases claimable with queued | ⟨processing, _⟩
      · simp [queued] at final
      · simp [processing] at final

/-- The outbox row of an event keeps its id. -/
theorem outboxId_of_step (taken : step codec config s action = some s') {id : EventId}
    {row : OutboxRow} (found : s.db.outboxFor? id = some row) :
    ∃ later, s'.db.outboxFor? id = some later ∧ later.id = row.id := by
  have effect := step_outbox taken id
  generalize s'.db.outboxFor? id = after at effect
  cases effect with
  | unchanged => exact ⟨row, found, rfl⟩
  | accepted _ _ absent => cases found.symm.trans absent
  | created _ _ _ absent => cases found.symm.trans absent
  | reserved _ _ old =>
      cases found.symm.trans old
      exact ⟨_, rfl, rfl⟩
  | published _ _ old =>
      cases found.symm.trans old
      exact ⟨_, rfl, rfl⟩
  | released _ _ old =>
      cases found.symm.trans old
      exact ⟨_, rfl, rfl⟩
  | reopened _ _ _ old =>
      cases found.symm.trans old
      exact ⟨_, rfl, rfl⟩

/-- A sent message is in the queue. -/
theorem inBroker_of_sends (taken : step codec config s action = some s') {message : Message}
    (sent : message ∈ action.sends s.history.openings) : s'.InBroker message := by
  cases action
  all_goals simp only [Action.sends, List.mem_singleton, List.not_mem_nil] at sent
  all_goals
    simp only [step, Option.ite_none_right_eq_some, Option.some.injEq] at taken
    obtain ⟨_, rfl⟩ := taken
    exact Or.inl (List.mem_append_right _ (List.mem_singleton.mpr sent))

theorem AckSound.of_step {event : Event Payload} {delivery : Option Message} {opening : Nat}
    (sound : AckSound s event delivery opening) (taken : step codec config s action = some s') :
    AckSound s' event delivery opening := by
  have grows := openings_le_of_step taken event.id
  refine ⟨le_trans sound.bounded grows, sound.covers, fun current => ?_⟩
  have bounded := sound.bounded
  have unopened : s'.history.openings event.id = s.history.openings event.id := by omega
  exact final_of_step taken unopened (sound.final (current.trans unopened))

namespace DeliveriesTracked

private theorem step_sent (tracked : DeliveriesTracked s)
    (taken : step codec config s action = some s') (message : Message)
    (member : message ∈ s'.history.enqueued) :
    message.opening ≤ s'.history.openings message.messageId := by
  refine le_trans ?_ (openings_le_of_step taken message.messageId)
  rw [step_enqueued taken, List.mem_append] at member
  rcases member with old | new
  · exact tracked.sent message old
  · obtain ⟨_, _, _, _, _, sameId, _, sameOpening⟩ := sent_of_step taken new
    rw [sameOpening, sameId]

private theorem step_hands (tracked : DeliveriesTracked s)
    (taken : step codec config s action = some s') (d : Nat) (message : OutboxMessage Payload)
    (member : message ∈ (s'.dispatchers d).hand) :
    ∃ row, s'.db.outboxFor? message.event.id = some row ∧ row.id = message.id := by
  have before : ∃ row, s.db.outboxFor? message.event.id = some row ∧ row.id = message.id := by
    rcases hand_of_step taken member with held | ⟨_, _, _, _, batch, _, _, _, _, scanned, claimed⟩
    · exact tracked.hands d message held
    · obtain ⟨_, row, candidate, sameRow, sameEvent, _⟩ := mem_claimed scanned claimed
      rw [sameEvent]
      exact ⟨row, s.db.outboxFor?_of_mem (s.db.mem_outboxCandidates candidate).1, sameRow.symm⟩
  obtain ⟨row, found, sameId⟩ := before
  obtain ⟨later, foundLater, keeps⟩ := outboxId_of_step taken found
  exact ⟨later, foundLater, keeps.trans sameId⟩

private theorem step_published (tracked : DeliveriesTracked s)
    (taken : step codec config s action = some s') (d : Nat) (claimedAt : Time)
    (message : OutboxMessage Payload) (opening : Nat) (rest : List (OutboxMessage Payload))
    (publishing : s'.dispatchers d = .published claimedAt message opening rest) :
    ∃ sent ∈ s'.history.enqueued, sent.messageId = message.event.id ∧
      sent.opening = opening := by
  have enqueued := step_enqueued taken
  have effect := step_dispatcher taken d
  generalize s'.dispatchers d = dispatcher at effect publishing
  cases effect with
  | unchanged =>
      obtain ⟨sent, member, content⟩ := tracked.published d _ _ _ _ publishing
      exact ⟨sent, enqueued ▸ List.mem_append_left _ member, content⟩
  | confirmed phase =>
      cases publishing
      rw [enqueued]
      exact ⟨_, List.mem_append_right _ (List.mem_singleton_self _), rfl, rfl⟩
  | @claimed limit now token order batch => cases batch <;> cases publishing
  | @marked claimedAt message opening rest => cases rest <;> cases publishing
  | _ => cases publishing

private theorem step_handled (lawful : codec.Lawful) (reached : Reachable codec config s)
    (tracked : DeliveriesTracked s) (taken : step codec config s action = some s') (w : Nat)
    (message : Message) (event : Event Payload)
    (held : (s'.workers w).delivery = some message)
    (handled : (s'.workers w).phase.event? = some event) : message.messageId = event.id := by
  have sound := contentSound lawful reached
  rcases handled_of_step taken handled with
    ⟨before, heldBefore⟩ | ⟨new, waiting, decoded, delivered⟩
  · exact tracked.handled w message event (heldBefore message held) before
  · rw [held] at delivered
    cases delivered
    exact (sound.decoded_accepted lawful (sound.broker _ (Or.inl waiting)) decoded).2

/-- A worker that has just seen the final status of its event may acknowledge its delivery. -/
private theorem ackSound_now (lawful : codec.Lawful) (reached : Reachable codec config s)
    (tracked : DeliveriesTracked s) (taken : step codec config s action = some s') {w : Nat}
    {event : Event Payload} (handled : (s.workers w).phase.event? = some event)
    (final : s'.db.Final event.id) :
    AckSound s' event (s.workers w).delivery (s.history.openings event.id) := by
  refine ⟨openings_le_of_step taken event.id, fun message held => ?_, fun _ => final⟩
  have sent := (contentSound lawful reached).broker message (Or.inr ⟨w, held⟩)
  have bounded := tracked.sent message sent
  rwa [tracked.handled w message event held handled] at bounded

private theorem final_of_terminalWrite (lawful : codec.Lawful) (reached : Reachable codec config s)
    (taken : step codec config s action = some s') {w : Nat} {event : Event Payload}
    (handled : (s.workers w).phase.event? = some event) (status : EventStatus)
    (writes : (event.id, status) ∈ action.terminalWrite?) : s'.db.Final event.id := by
  have sound := contentSound lawful reached
  obtain ⟨row, found⟩ := Option.ne_none_iff_exists'.mp
    (sound.stored event (sound.workers w event handled))
  obtain ⟨terminal, new, foundNew, ends⟩ := event?_of_terminalWrite taken writes found
  rw [Database.Final, Database.status?, foundNew, Option.map_some, ends]
  exact terminal.imp (congrArg some) (congrArg some)

private theorem step_acks (lawful : codec.Lawful) (reached : Reachable codec config s)
    (tracked : DeliveriesTracked s) (taken : step codec config s action = some s') (w : Nat)
    (event : Event Payload) (opening : Nat)
    (settling : (s'.workers w).phase.settlement? = some (event, .ack opening)) :
    AckSound s' event (s'.workers w).delivery opening := by
  have effect := step_worker taken w
  generalize s'.workers w = worker at effect settling
  cases effect with
  | unchanged => exact (tracked.acks w event opening settling).of_step taken
  | disconnected =>
      have before := (tracked.acks w event opening settling).of_step taken
      exact ⟨before.bounded, fun _ gone => (by cases gone), before.final⟩
  | @statusRead read phase =>
      obtain ⟨rfl, settlement⟩ := Prod.mk.inj (Option.some.inj settling)
      cases status : s.db.status? read.id with
      | none => simp [status, Database.claimResultOf, settlementOf] at settlement
      | some found =>
          have final : s.db.Final read.id ∧ s.history.openings read.id = opening := by
            cases found <;>
              simp_all [Database.claimResultOf, settlementOf, Database.Final]
          have handled : (s.workers w).phase.event? = some read := by rw [phase]; rfl
          rw [← final.2]
          exact tracked.ackSound_now lawful reached taken handled
            (final_of_step taken (step_openings taken read.id) final.1)
  | @processed claim attempt now phase =>
      cases settling
      have handled : (s.workers w).phase.event? = some claim.event := by rw [phase]; rfl
      exact tracked.ackSound_now lawful reached taken handled
        (final_of_terminalWrite lawful reached taken handled .processed rfl)
  | @failed claim attempt error now phase =>
      cases settling
      have handled : (s.workers w).phase.event? = some claim.event := by rw [phase]; rfl
      exact tracked.ackSound_now lawful reached taken handled
        (final_of_terminalWrite lawful reached taken handled .failed rfl)
  | returned phase =>
      exact (tracked.acks w event opening (by rw [phase]; exact settling)).of_step taken
  | attempted => exact absurd settling (by simp [afterAttempt_settlement?])
  | _ => cases settling

/-- Every event in a worker's hands is stored, so no delivery is discarded as unknown. -/
private theorem step_kept (lawful : codec.Lawful) (reached : Reachable codec config s)
    (tracked : DeliveriesTracked s) (taken : step codec config s action = some s') (w : Nat)
    (event : Event Payload) : (s'.workers w).phase.settlement? ≠ some (event, .discard) := by
  intro settling
  have effect := step_worker taken w
  generalize s'.workers w = worker at effect settling
  cases effect with
  | unchanged => exact tracked.kept w event settling
  | disconnected => exact tracked.kept w event settling
  | @statusRead read phase =>
      have sound := contentSound lawful reached
      obtain ⟨row, found⟩ := Option.ne_none_iff_exists'.mp
        (sound.stored read (sound.workers w read (by rw [phase]; rfl)))
      have settlement := (Prod.mk.inj (Option.some.inj settling)).2
      rw [Database.status?, found] at settlement
      cases status : row.status <;>
        simp [status, Database.claimResultOf, settlementOf] at settlement
  | returned phase => exact tracked.kept w event (by rw [phase]; exact settling)
  | attempted => exact absurd settling (by simp [afterAttempt_settlement?])
  | _ => cases settling

/-- A message of the current opening is settled only for an event with a final status. -/
private theorem final_of_settles (lawful : codec.Lawful) (reached : Reachable codec config s)
    (tracked : DeliveriesTracked s) (taken : step codec config s action = some s')
    {message : Message} (sent : message ∈ s.history.enqueued)
    (current : message.opening = s.history.openings message.messageId)
    (settles : action.Settles s message) : s.db.Final message.messageId := by
  cases action
  all_goals simp only [Action.Settles] at settles
  case settle w event settlement =>
      obtain ⟨notRequeued, held⟩ := settles
      simp only [step, Option.ite_none_right_eq_some] at taken
      obtain ⟨settling, _⟩ := taken
      cases settlement with
      | requeue => exact absurd rfl notRequeued
      | discard => exact absurd (by rw [settling]; rfl) (tracked.kept w event)
      | ack opening =>
          have ack := tracked.acks w event opening (by rw [settling]; rfl)
          have covers := ack.covers message held
          have bounded := ack.bounded
          have sameId := tracked.handled w message event held (by rw [settling]; rfl)
          rw [sameId] at current ⊢
          exact ack.final (by omega)
  case rejectUndecodable index rejected =>
      subst settles
      simp only [step, Option.ite_none_right_eq_some] at taken
      obtain ⟨⟨_, undecodable⟩, _⟩ := taken
      have sound := contentSound lawful reached
      obtain ⟨event, accepted, _, marshalled⟩ := sound.messages rejected sent
      obtain ⟨body, again, _, decoded⟩ := lawful.event_roundTrip (sound.produced event accepted)
      rw [marshalled] at again
      cases again
      cases undecodable.symm.trans decoded

private theorem step_current (lawful : codec.Lawful) (reached : Reachable codec config s)
    (tracked : DeliveriesTracked s) (taken : step codec config s action = some s')
    (message : Message) (member : message ∈ s'.history.enqueued)
    (current : message.opening = s'.history.openings message.messageId) :
    s'.InBroker message ∨ s'.db.Final message.messageId := by
  rw [step_enqueued taken, List.mem_append] at member
  rcases member with old | new
  · have bounded := tracked.sent message old
    have grows := openings_le_of_step taken message.messageId
    have unopened : s'.history.openings message.messageId =
        s.history.openings message.messageId := by omega
    have currentBefore := current.trans unopened
    rcases tracked.current message old currentBefore with present | final
    · refine (step_inBroker taken present).imp_right fun settles => ?_
      exact final_of_step taken unopened
        (tracked.final_of_settles lawful reached taken old currentBefore settles)
    · exact Or.inr (final_of_step taken unopened final)
  · exact Or.inl (inBroker_of_sends taken new)

end DeliveriesTracked

theorem deliveriesTracked (lawful : codec.Lawful) (reached : Reachable codec config s) :
    DeliveriesTracked s := by
  refine reached.invariant ?_ ?_
  · constructor
    all_goals intros
    all_goals simp_all [System.initial, History.empty, Worker.idle, Dispatcher.hand,
      WorkerPhase.settlement?]
  · intro before action after earlier tracked taken _
    exact
      { sent := tracked.step_sent taken
        hands := tracked.step_hands taken
        published := tracked.step_published taken
        handled := tracked.step_handled lawful earlier taken
        acks := tracked.step_acks lawful earlier taken
        kept := tracked.step_kept lawful earlier taken
        current := tracked.step_current lawful earlier taken }

/-! ### Published rows -/

/-- A published row was published for its current opening. -/
def PublishedCurrent (s : System Payload) : Prop :=
  ∀ id row, s.db.outboxFor? id = some row → row.publishedAt ≠ none →
    ∃ sent ∈ s.history.enqueued, sent.messageId = id ∧ sent.opening = s.history.openings id

/-- Opening a row leaves it unpublished. -/
theorem unpublished_of_opens (reached : Reachable codec config s)
    (taken : step codec config s action = some s') {id : EventId}
    (opened : action.opens? = some id) {row : OutboxRow}
    (found : s'.db.outboxFor? id = some row) : row.publishedAt = none := by
  have sound := outboxSound reached
  cases action
  all_goals simp only [Action.opens?, Option.some.injEq, reduceCtorEq] at opened
  all_goals simp only [step, Option.ite_none_right_eq_some, Option.some.injEq] at taken
  case commitSave request event payload now outboxId outcome =>
      obtain ⟨⟨phase, _⟩, rfl⟩ := taken
      subst opened
      have absent : s.db.outboxFor? event.id = none :=
        (saveKeysFree reached).outbox request event.id (by rw [phase]; exact Or.inr rfl)
      change (s.db.commitSave event payload now outboxId).outboxFor? event.id = _ at found
      rw [s.db.outboxFor?_commitSave event payload now outboxId
        (fun old member => sound.saveFresh request outboxId (by rw [phase]; rfl) old.eventId old
          (s.db.outboxFor?_of_mem member)),
        absent, if_pos rfl] at found
      cases found
      rfl
  case replayCommit caller tx error =>
      obtain ⟨phase, rfl⟩ := taken
      subst opened
      change (s.db.commitReplay tx).outboxFor? tx.eventId = _ at found
      rw [s.db.outboxFor?_commitReplay (sound.neverInserts caller tx (by rw [phase]; rfl)),
        if_pos rfl, Option.map_eq_some_iff] at found
      obtain ⟨old, _, rfl⟩ := found
      rfl

/-- A row that is published after a step was published before it, or has just been marked. -/
private theorem published_of_step (reached : Reachable codec config s)
    (taken : step codec config s action = some s') {id : EventId} {row : OutboxRow}
    (found : s'.db.outboxFor? id = some row) (published : row.publishedAt ≠ none) :
    (∃ old, s.db.outboxFor? id = some old ∧ old.publishedAt ≠ none) ∨
      ∃ d claimedAt message opening rest now outcome old,
        action = .markOutboxPublished d claimedAt message opening rest now outcome ∧
        s.dispatchers d = .published claimedAt message opening rest ∧ outcome.Effective ∧
        s.db.outboxFor? id = some old ∧ old.ReservedFor message.id message.dispatchToken := by
  have effect := step_outbox taken id
  rw [found] at effect
  generalize same : some row = after at effect
  cases effect with
  | unchanged => exact Or.inl ⟨row, same.symm, published⟩
  | published phase effective old holds =>
      exact Or.inr ⟨_, _, _, _, _, _, _, _, rfl, phase, effective, old, holds⟩
  | reserved _ _ old =>
      cases same
      exact Or.inl ⟨_, old, published⟩
  | released _ _ old =>
      cases same
      exact Or.inl ⟨_, old, published⟩
  | accepted =>
      cases same
      exact absurd rfl published
  | reopened =>
      cases same
      exact absurd rfl published
  | created phase inserts =>
      have updates := (outboxSound reached).neverInserts _ _ (by rw [phase]; rfl)
      simp [updates] at inserts

private theorem PublishedCurrent.of_step (lawful : codec.Lawful)
    (reached : Reachable codec config s) (current : PublishedCurrent s)
    (taken : step codec config s action = some s') (marks : MarksCurrentOpening s action s') :
    PublishedCurrent s' := by
  intro id row found published
  have unopened : action.opens? ≠ some id := fun opened =>
    published (unpublished_of_opens reached taken opened found)
  rw [step_openings taken, if_neg unopened, Nat.add_zero, step_enqueued taken]
  have before : ∃ sent ∈ s.history.enqueued, sent.messageId = id ∧
      sent.opening = s.history.openings id := by
    rcases published_of_step reached taken found published with
      ⟨old, foundOld, publishedOld⟩ |
      ⟨d, claimedAt, message, opening, rest, now, outcome, old, rfl, phase, effective, foundOld,
        holds⟩
    · exact current id old foundOld publishedOld
    · have tracked := deliveriesTracked lawful reached
      have stored := s.db.outboxFor?_eq_some_iff.mp foundOld
      -- the marked row is the one the message was made from
      obtain ⟨own, foundOwn, ownId⟩ :=
        tracked.hands d message (by rw [phase]; exact List.mem_cons_self)
      have storedOwn := s.db.outboxFor?_eq_some_iff.mp foundOwn
      have sameRow := s.db.outbox_eq_of_id storedOwn.1 stored.1 (ownId.trans holds.1.symm)
      have sameEvent : message.event.id = id := by
        rw [← storedOwn.2, sameRow, stored.2]
      have opened := marks effective ⟨old, stored.1, holds⟩
      obtain ⟨sent, member, sentId, sentOpening⟩ :=
        tracked.published d claimedAt message opening rest phase
      exact ⟨sent, member, sentId.trans sameEvent, by rw [sentOpening, opened, sameEvent]⟩
  obtain ⟨sent, member, content⟩ := before
  exact ⟨sent, List.mem_append_left _ member, content⟩

theorem publishedCurrent (lawful : codec.Lawful)
    (reached : ReachableVia codec config MarksCurrentOpening s) : PublishedCurrent s := by
  refine reached.invariant ?_ ?_
  · intro id row found
    cases found
  · intro before action after earlier current taken marks
    exact current.of_step lawful earlier.reachable taken marks

/-- In every state of a run whose dispatchers mark a row only before it is reopened, an event that
is queued or processing has an unpublished outbox row or a message in the broker. -/
theorem no_event_stranded (lawful : codec.Lawful)
    (reached : ReachableVia codec config MarksCurrentOpening s) (row : EventRow)
    (member : row ∈ s.db.events.rows)
    (unfinished : row.status = .queued ∨ row.status = .processing) :
    (∃ out ∈ s.db.outbox.rows, out.eventId = row.id ∧ out.publishedAt = none) ∨
      ∃ message, s.InBroker message ∧ message.messageId = row.id := by
  have found := s.db.event?_of_mem member
  obtain ⟨out, outFound⟩ := Option.ne_none_iff_exists'.mp
    ((outboxSound reached.reachable).present row.id (by simp [found]))
  obtain ⟨outMember, outEvent⟩ := s.db.outboxFor?_eq_some_iff.mp outFound
  by_cases unpublished : out.publishedAt = none
  · exact Or.inl ⟨out, outMember, outEvent, unpublished⟩
  · obtain ⟨sent, enqueued, sameId, current⟩ :=
      publishedCurrent lawful reached row.id out outFound unpublished
    rw [← sameId] at current
    have tracked := deliveriesTracked lawful reached.reachable
    rcases tracked.current sent enqueued current with present | final
    · exact Or.inr ⟨sent, present, sameId⟩
    · rw [sameId, Database.Final, Database.status?, found] at final
      rcases unfinished with queued | processing
      · simp [queued] at final
      · simp [processing] at final

/-- The event is published and marked, fails, is replayed, and is published and marked again. -/
def republishedRun : List (Action String) :=
  Sample.sent ++ [.markOutboxPublished 0 0 Sample.outboxMessage 1 [] 0 .ok] ++
    attemptStatements 0 Sample.message (Sample.claim 1 0) (some "timeout") ++
    failStatements 0 (Sample.claim 1 0) "timeout" Sample.event.payload 0 1 ++
    replayStatements (.cli 0) (Sample.replayTx true) ++
    publishStatements 0 0 { Sample.outboxMessage with dispatchToken := "token-2" } Sample.body ++
    [.markOutboxPublished 0 0 { Sample.outboxMessage with dispatchToken := "token-2" } 2 [] 0 .ok]

set_option maxRecDepth 4000 in
theorem no_event_stranded_of_republishedRun :
    ∃ s, run (step Codec.text Sample.config) System.initial republishedRun = some s ∧
      s.db.status? Sample.event.id = some .queued ∧
      ∀ row ∈ s.db.events.rows, row.status = .queued ∨ row.status = .processing →
        (∃ out ∈ s.db.outbox.rows, out.eventId = row.id ∧ out.publishedAt = none) ∨
          ∃ message, s.InBroker message ∧ message.messageId = row.id := by
  have ran : (run (step Codec.text Sample.config) System.initial republishedRun).map
      (fun s => s.db.status? Sample.event.id) = some (some .queued) := by
    decide +kernel
  obtain ⟨s, reaches, queued⟩ := Option.map_eq_some_iff.mp ran
  have meets : Along (step Codec.text Sample.config) MarksCurrentOpening System.initial
      republishedRun := by
    decide +kernel
  exact ⟨s, reaches, queued,
    no_event_stranded Codec.text_lawful (.of_run .start meets reaches)⟩

/-- The dispatcher has published the message and not marked it yet when the event is processed,
fails and is replayed; then it marks the reopened row, which still carries its reservation. -/
def lateMarkRun : List (Action String) :=
  failedRun ++ replayStatements (.cli 0) (Sample.replayTx true) ++
    [.markOutboxPublished 0 0 Sample.outboxMessage 1 [] 0 .ok]

set_option maxRecDepth 4000 in
/-- The event is queued, its outbox row is published and the broker has no message. -/
theorem event_stranded_by_late_mark :
    ¬ ∀ s : System String, Reachable Codec.text Sample.config s → ∀ row ∈ s.db.events.rows,
      row.status = .queued ∨ row.status = .processing →
        (∃ out ∈ s.db.outbox.rows, out.eventId = row.id ∧ out.publishedAt = none) ∨
          ∃ message, s.InBroker message ∧ message.messageId = row.id := by
  intro represented
  have ran : (run (step Codec.text Sample.config) System.initial lateMarkRun).map
      (fun s => (s.workers 0, s.ready, s.db.events.rows.map EventRow.status,
        s.db.outbox.rows.map OutboxRow.publishedAt)) =
      some (Worker.idle, [], [.queued], [some 0]) := by
    decide +kernel
  obtain ⟨s, reaches, observed⟩ := Option.map_eq_some_iff.mp ran
  simp only [Prod.mk.injEq] at observed
  obtain ⟨idle, empty, statuses, published⟩ := observed
  have others : IdleFrom 1 s := idleFrom_of_run (by decide) reaches
  obtain ⟨row, rows, queued⟩ := List.map_eq_singleton_iff.mp statuses
  obtain ⟨marked, outRows, markedAt⟩ := List.map_eq_singleton_iff.mp published
  rcases represented s (Reachable.of_run reaches) row (by simp [rows]) (Or.inl queued) with
    ⟨out, member, _, unpublished⟩ | ⟨message, waiting | ⟨w, held⟩, _⟩
  · rw [outRows, List.mem_singleton] at member
    rw [member, markedAt] at unpublished
    cases unpublished
  · rw [empty] at waiting
    cases waiting
  · rcases Nat.eq_zero_or_pos w with rfl | positive
    · rw [idle] at held
      cases held
    · rw [others w positive] at held
      cases held

end WebhookProcessor
