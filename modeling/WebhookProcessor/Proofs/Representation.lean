/-
Module: WebhookProcessor.Proofs.Representation
Layer: Proofs
Purpose: The columns of a row that only make sense together, over all operations of the store, and
  what follows for a service whose parties have all stopped: once the leases have run out, every
  open event can be claimed and every unpublished outbox row is claimed.
Trusted boundary: `Codec.Lawful`
Main exports: EventRow.WellFormed, OutboxRow.WellFormed, RowsWellFormed, rowsWellFormed,
  Database.quiesced, representation_and_recovery
-/
import WebhookProcessor.Proofs.Content

namespace WebhookProcessor

open Transition

/-- `processing_started_at` is set exactly while processing, and lies in the past. -/
structure EventRow.WellFormed (row : EventRow) (clock : Time) : Prop where
  started_iff : row.processingStartedAt ≠ none ↔ row.status = .processing
  started_le : ∀ time, row.processingStartedAt = some time → time ≤ clock

/-- The two reservation columns are set together and not on a published row, and the reservation
lies in the past. -/
structure OutboxRow.WellFormed (row : OutboxRow) (clock : Time) : Prop where
  token_iff : row.dispatchToken ≠ none ↔ row.dispatchingAt ≠ none
  published : row.publishedAt ≠ none → row.dispatchToken = none ∧ row.dispatchingAt = none
  dispatching_le : ∀ time, row.dispatchingAt = some time → time ≤ clock

theorem EventRow.WellFormed.mono {row : EventRow} {clock later : Time}
    (wellFormed : row.WellFormed clock) (ordered : clock ≤ later) : row.WellFormed later :=
  { started_iff := wellFormed.started_iff
    started_le := fun time started => le_trans (wellFormed.started_le time started) ordered }

theorem OutboxRow.WellFormed.mono {row : OutboxRow} {clock later : Time}
    (wellFormed : row.WellFormed clock) (ordered : clock ≤ later) : row.WellFormed later :=
  { token_iff := wellFormed.token_iff
    published := wellFormed.published
    dispatching_le := fun time reserved =>
      le_trans (wellFormed.dispatching_le time reserved) ordered }

variable {Payload : Type}

structure RowsWellFormed (s : System Payload) : Prop where
  events : ∀ id row, s.db.event? id = some row → row.WellFormed s.clock
  outbox : ∀ id row, s.db.outboxFor? id = some row → row.WellFormed s.clock

variable [DecidableEq Payload] {codec : Codec Payload} {config : Config} {s s' : System Payload}
  {action : Action Payload}

private theorem step_eventWellFormed (wellFormed : RowsWellFormed s)
    (taken : step codec config s action = some s') (id : EventId) (row : EventRow)
    (found : s'.db.event? id = some row) : row.WellFormed s.clock := by
  have effect := step_event taken id
  rw [found] at effect
  generalize same : some row = after at effect
  cases effect with
  | unchanged => exact wellFormed.events id row same.symm
  | accepted =>
      cases before : s.db.event? id with
      | none =>
          rw [before] at same
          cases same
          exact ⟨by simp [queuedEventRow], fun _ gone => by cases gone⟩
      | some old =>
          rw [before] at same
          cases same
          exact wellFormed.events id row before
  | claimed _ sampled =>
      cases same
      refine ⟨by simp [EventRow.claim], ?_⟩
      intro time started
      cases started
      exact sampled
  | finished =>
      cases same
      exact ⟨by simp [EventRow.finish], fun _ gone => by cases gone⟩
  | failed =>
      cases same
      exact ⟨by simp [EventRow.fail], fun _ gone => by cases gone⟩
  | requeued =>
      cases same
      exact ⟨by simp [EventRow.requeue], fun _ gone => by cases gone⟩

private theorem step_outboxWellFormed (reached : Reachable codec config s)
    (wellFormed : RowsWellFormed s) (taken : step codec config s action = some s') (id : EventId)
    (row : OutboxRow) (found : s'.db.outboxFor? id = some row) : row.WellFormed s.clock := by
  have effect := step_outbox taken id
  rw [found] at effect
  generalize same : some row = after at effect
  cases effect with
  | unchanged => exact wellFormed.outbox id row same.symm
  | accepted =>
      cases same
      exact ⟨by simp [newOutboxRow], by simp [newOutboxRow], fun _ gone => by cases gone⟩
  | created phase inserts =>
      have updates := (outboxSound reached).neverInserts _ _ (by rw [phase]; rfl)
      simp [updates] at inserts
  | reserved _ sampled old candidate =>
      cases same
      have unpublished := (s.db.mem_outboxCandidates candidate).2.1.1
      refine ⟨by simp [OutboxRow.reserve], fun published => ?_, ?_⟩
      · exact absurd unpublished published
      · intro time started
        cases started
        exact sampled
  | published =>
      cases same
      exact ⟨by simp [OutboxRow.publish], fun _ => ⟨rfl, rfl⟩, fun _ gone => by cases gone⟩
  | released =>
      cases same
      exact ⟨by simp [OutboxRow.release], fun _ => ⟨rfl, rfl⟩, fun _ gone => by cases gone⟩
  | reopened _ _ _ old =>
      cases same
      -- the reservation of the row, if any, outlives the reopening
      have before := wellFormed.outbox id _ old
      exact ⟨before.token_iff, fun published => absurd rfl published, before.dispatching_le⟩

theorem rowsWellFormed (reached : Reachable codec config s) : RowsWellFormed s := by
  refine reached.invariant ?_ ?_
  · constructor
    · intro id row found
      cases found
    · intro id row found
      cases found
  · intro before action after earlier wellFormed taken _
    have later := step_clock taken
    constructor
    · intro id row found
      exact (step_eventWellFormed wellFormed taken id row found).mono later
    · intro id row found
      exact (step_outboxWellFormed earlier wellFormed taken id row found).mono later

/-! ### Recovery -/

/-- The database after every open transaction has ended without a commit. -/
def Database.quiesced (db : Database) : Database :=
  { db with locks := fun _ => none }

/-- The unpublished rows of `outbox`. -/
def Database.unpublished (db : Database) : List OutboxRow :=
  db.outbox.rows.filter fun row => row.publishedAt = none

theorem Database.mem_unpublished (db : Database) {row : OutboxRow} :
    row ∈ db.unpublished ↔ row ∈ db.outbox.rows ∧ row.publishedAt = none := by
  simp [unpublished]

/-- When every unpublished row is claimable and free, the candidates are the first of them. -/
theorem Database.outboxCandidates_of_claimable (db : Database) {limit : Nat} {lease now : Time}
    (free : ∀ id, db.locks (.outbox id) = none)
    (claimable : ∀ row ∈ db.unpublished, row.Claimable now lease) :
    db.outboxCandidates limit lease now =
      (db.unpublished.insertionSort fun first second => first.id ≤ second.id).take limit := by
  have same : (db.outbox.rows.filter fun row =>
      decide (row.Claimable now lease ∧ db.locks (.outbox row.eventId) = none)) =
        db.unpublished := by
    refine List.filter_congr fun row stored => ?_
    rw [decide_eq_decide]
    constructor
    · exact fun both => both.1.1
    · intro unpublished
      exact ⟨claimable row (db.mem_unpublished.mpr ⟨stored, unpublished⟩), free row.eventId⟩
  rw [outboxCandidates, same]

theorem claimed_after_lease (reached : Reachable codec config s) {now : Time}
    (past : s.clock + config.processingLease ≤ now) {id : EventId}
    (isOpen : s.db.status? id = some .queued ∨ s.db.status? id = some .processing) :
    (s.db.quiesced.claimForProcessing id config.processingLease now).1 = .claimed := by
  have claimable : ∃ row, s.db.event? id = some row ∧
      row.Claimable now config.processingLease := by
    rcases isOpen with queued | processing
    · obtain ⟨row, found, status⟩ := s.db.status?_eq_some_iff.mp queued
      exact ⟨row, found, Or.inl status⟩
    · obtain ⟨row, found, status⟩ := s.db.status?_eq_some_iff.mp processing
      have wellFormed := (rowsWellFormed reached).events id row found
      obtain ⟨time, started⟩ := Option.ne_none_iff_exists'.mp (wellFormed.started_iff.mpr status)
      refine ⟨row, found, Or.inr ⟨status, ?_⟩⟩
      have earlier := wellFormed.started_le time started
      rw [started, atOrBefore_some]
      unfold Time at *
      omega
  have matched : s.db.quiesced.ClaimMatches id config.processingLease now :=
    s.db.quiesced.claimMatches_iff.mpr claimable
  rw [Database.claimForProcessing, if_pos matched]

/-- Past the lease every unpublished row is claimable. -/
theorem claimable_after_lease (reached : Reachable codec config s) {now : Time}
    (past : s.clock + config.outboxDispatchLease ≤ now) {row : OutboxRow}
    (member : row ∈ s.db.unpublished) : row.Claimable now config.outboxDispatchLease := by
  obtain ⟨stored, unpublished⟩ := List.mem_filter.mp member
  refine ⟨of_decide_eq_true unpublished, ?_⟩
  cases reserved : row.dispatchingAt with
  | none => exact Or.inl rfl
  | some time =>
      have wellFormed := (rowsWellFormed reached).outbox _ row (s.db.outboxFor?_of_mem stored)
      have earlier := wellFormed.dispatching_le time reserved
      refine Or.inr ?_
      rw [atOrBefore_some]
      unfold Time at *
      omega

/-- Past the lease every unpublished row is a candidate. -/
theorem candidates_after_lease (reached : Reachable codec config s) {now : Time}
    (past : s.clock + config.outboxDispatchLease ≤ now) {limit : Nat}
    (room : s.db.unpublished.length ≤ limit) {row : OutboxRow} (member : row ∈ s.db.unpublished) :
    row ∈ s.db.quiesced.outboxCandidates limit config.outboxDispatchLease now := by
  have claimable : ∀ other ∈ s.db.unpublished,
      other.Claimable now config.outboxDispatchLease := fun _ => claimable_after_lease reached past
  rw [s.db.quiesced.outboxCandidates_of_claimable (fun _ => rfl) claimable,
    List.take_of_length_le]
  · exact (List.mem_insertionSort _).mpr member
  · rwa [List.length_insertionSort]

/-- The payload of every outbox row decodes. -/
theorem decodes_of_stored (lawful : codec.Lawful) (reached : Reachable codec config s)
    {row : OutboxRow} (stored : row ∈ s.db.outbox.rows) : codec.unmarshal row.payload ≠ none := by
  have sound := contentSound lawful reached
  obtain ⟨event, accepted, _, _, _, marshalled⟩ :=
    sound.outbox _ row (s.db.outboxFor?_of_mem stored)
  obtain ⟨text, again, decoded⟩ := lawful.roundTrip _ (sound.produced event accepted)
  rw [marshalled] at again
  cases again
  simp [decoded]

/-- The claim decodes every row it returns. -/
theorem scanned_after_lease (lawful : codec.Lawful) (reached : Reachable codec config s)
    {now : Time} (past : s.clock + config.outboxDispatchLease ≤ now) {limit : Nat}
    (room : s.db.unpublished.length ≤ limit) {token : String} {order : List Nat}
    (returned : order.Perm ((s.db.quiesced.claimPendingOutbox limit config.outboxDispatchLease now
      token).1.map OutboxRow.id)) :
    ∃ batch, scanClaimed codec token (s.db.quiesced.claimPendingOutbox limit
        config.outboxDispatchLease now token).1 order = some batch ∧
      ∀ row ∈ s.db.unpublished, ∃ message ∈ batch, message.id = row.id ∧
        message.event.id = row.eventId := by
  have decodes : ∀ row ∈ (s.db.quiesced.claimPendingOutbox limit config.outboxDispatchLease now
      token).1, codec.unmarshal row.payload ≠ none := by
    intro row member
    obtain ⟨candidate, candidateMember, rfl⟩ := List.mem_map.mp member
    have stored : candidate ∈ s.db.outbox.rows :=
      (s.db.quiesced.mem_outboxCandidates candidateMember).1
    have decodes : codec.unmarshal candidate.payload ≠ none :=
      decodes_of_stored lawful reached stored
    exact decodes
  obtain ⟨batch, scanned⟩ := Option.ne_none_iff_exists'.mp
    (scanClaimed_ne_none token order decodes)
  refine ⟨batch, scanned, fun row member => ?_⟩
  have candidate := candidates_after_lease reached past room member
  have listed : row.id ∈ batch.map OutboxMessage.id :=
    (ids_claimed scanned returned).mem_iff.mpr (List.mem_map_of_mem candidate)
  obtain ⟨message, inBatch, sameId⟩ := List.mem_map.mp listed
  obtain ⟨_, origin, originMember, originId, originEvent, _⟩ := mem_claimed scanned inBatch
  have same : origin = row := s.db.outbox_eq_of_id
    (s.db.quiesced.mem_outboxCandidates originMember).1
    (s.db.quiesced.mem_outboxCandidates candidate).1 (originId.symm.trans sameId)
  exact ⟨message, inBatch, sameId, same ▸ originEvent⟩

/-- The representation invariant of the two tables, and recovery from any reachable state once all
parties have stopped and both leases have run out. -/
theorem representation_and_recovery (lawful : codec.Lawful) (reached : Reachable codec config s) :
    (∀ row ∈ s.db.events.rows, row.processingStartedAt ≠ none ↔ row.status = .processing) ∧
    (∀ row ∈ s.db.outbox.rows, (row.dispatchToken ≠ none ↔ row.dispatchingAt ≠ none) ∧
      (row.publishedAt ≠ none → row.dispatchToken = none ∧ row.dispatchingAt = none)) ∧
    ∀ now, s.clock + config.processingLease ≤ now → s.clock + config.outboxDispatchLease ≤ now →
      (∀ id, s.db.status? id = some .queued ∨ s.db.status? id = some .processing →
        (s.db.quiesced.claimForProcessing id config.processingLease now).1 = .claimed) ∧
      ∀ limit token order, s.db.unpublished.length ≤ limit →
        order.Perm ((s.db.quiesced.claimPendingOutbox limit config.outboxDispatchLease now
          token).1.map OutboxRow.id) →
        ∃ batch, scanClaimed codec token (s.db.quiesced.claimPendingOutbox limit
            config.outboxDispatchLease now token).1 order = some batch ∧
          ∀ row ∈ s.db.unpublished, ∃ message ∈ batch, message.id = row.id ∧
            message.event.id = row.eventId := by
  have wellFormed := rowsWellFormed reached
  refine ⟨?_, ?_, ?_⟩
  · intro row member
    exact (wellFormed.events row.id row (s.db.event?_of_mem member)).started_iff
  · intro row member
    have columns := wellFormed.outbox row.eventId row (s.db.outboxFor?_of_mem member)
    exact ⟨columns.token_iff, columns.published⟩
  · intro now pastProcessing pastDispatch
    refine ⟨fun id isOpen => claimed_after_lease reached pastProcessing isOpen, ?_⟩
    intro limit token order room returned
    exact scanned_after_lease lawful reached pastDispatch room returned

/-- The dispatcher has sent the message without marking it and the worker has claimed the event:
both leases are running. -/
def interruptedRun : List (Action String) :=
  Sample.sent ++
    [.deliver 0 0 Sample.message Sample.event,
      .claimForProcessing 0 Sample.event 0 .ok]

set_option maxRecDepth 4000 in
theorem representation_and_recovery_of_interruptedRun :
    ∃ s, run (step Codec.text Sample.config) System.initial interruptedRun = some s ∧
      s.db.status? Sample.event.id = some .processing ∧
      (s.db.quiesced.claimForProcessing Sample.event.id 300 300).1 = .claimed := by
  have ran : (run (step Codec.text Sample.config) System.initial interruptedRun).map
      (fun s => (s.clock, s.db.status? Sample.event.id)) = some (0, some .processing) := by
    decide +kernel
  obtain ⟨s, reaches, both⟩ := Option.map_eq_some_iff.mp ran
  obtain ⟨stopped, processing⟩ := Prod.mk.inj both
  refine ⟨s, reaches, processing, ?_⟩
  have recovered := representation_and_recovery Codec.text_lawful (Reachable.of_run reaches)
  exact (recovered.2.2 300 (by rw [stopped]; decide) (by rw [stopped]; decide)).1 _
    (Or.inr processing)

end WebhookProcessor
