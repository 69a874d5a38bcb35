/-
Module: WebhookProcessor.Proofs.Backlog
Layer: Proofs
Purpose: What the two gauges of `OperationalMetrics` say about the events.  The pending dead letters
  are at least the failed events and at most the events that are not processed; an event that is
  neither processed nor failed is counted by the pending outbox rows or has a message in the broker.
  When both gauges read zero, nothing waits but messages that the broker has.
Trusted boundary: `Codec.Lawful`; fewer than `2 ^ 63` rows in each table
Main exports: WritesCurrent, Database.countStatus, gauges_bound_backlog
-/
import WebhookProcessor.Model.Exposition
import WebhookProcessor.Proofs.DeadLetters
import WebhookProcessor.Proofs.NoStranding

namespace WebhookProcessor

open Relational Transition

variable {Payload : Type}

/-- Dispatchers mark the opening that they published, and workers and replays write under the claim
and the status that they found. -/
def WritesCurrent (before : System Payload) (action : Action Payload) (after : System Payload) :
    Prop :=
  MarksCurrentOpening before action after ∧ WritesUnderClaim before action after

instance (before : System Payload) (action : Action Payload) (after : System Payload) :
    Decidable (WritesCurrent before action after) :=
  inferInstanceAs (Decidable (_ ∧ _))

/-- The number of events with this status. -/
def Database.countStatus (db : Database) (status : EventStatus) : Nat :=
  db.events.countWhere fun row => row.status = status

/-- `COUNT(*)` of each table fits into the `int64` it is scanned into. -/
def Database.Countable (db : Database) : Prop :=
  db.outbox.rows.length < 2 ^ 63 ∧ db.deadLetters.rows.length < 2 ^ 63

/-! ### The gauges as numbers -/

section Gauges

variable {db : Database}

theorem pendingOutbox_eq (countable : db.Countable) :
    db.operationalMetrics.pendingOutbox.toInt =
      db.outbox.countWhere fun row => row.publishedAt = none :=
  Int64.toInt_ofNat_of_lt ((db.outbox.countWhere_le_length _).trans_lt countable.1)

theorem pendingDeadLetters_eq (countable : db.Countable) :
    db.operationalMetrics.pendingDeadLetters.toInt =
      db.deadLetters.countWhere fun row => row.replayedAt = none :=
  Int64.toInt_ofNat_of_lt ((db.deadLetters.countWhere_le_length _).trans_lt countable.2)

end Gauges

/-! ### The bounds -/

section Bounds

variable [DecidableEq Payload] {codec : Codec Payload} {config : Config} {s : System Payload}

omit [DecidableEq Payload] in
/-- Every failed event has a pending dead letter. -/
theorem failed_le_pendingDeadLetters (agree : LettersAgree s) :
    s.db.countStatus .failed ≤ s.db.deadLetters.countWhere fun row => row.replayedAt = none := by
  rw [Database.countStatus, ← Table.length_keysWhere]
  apply s.db.deadLetters.length_le_countWhere _ DeadLetterRow.eventId
  · exact Table.nodup_keysWhere _ s.db.events
  · intro id member
    obtain ⟨row, stored, failed, rfl⟩ := (Table.mem_keysWhere _ _).mp member
    have status : s.db.status? row.id = some .failed :=
      s.db.status?_eq_some_iff.mpr ⟨row, s.db.event?_of_mem stored, failed⟩
    obtain ⟨letter, found, pending⟩ := agree.failed row.id status
    exact ⟨letter, s.db.deadLetters.mem_of_lookup _ found, pending,
      s.db.eventId_of_deadLetter? found⟩

omit [DecidableEq Payload] in
/-- A dead letter is the letter of a stored event. -/
theorem event_of_deadLetter (sound : ContentSound codec s) {letter : DeadLetterRow}
    (stored : letter ∈ s.db.deadLetters.rows) :
    ∃ row ∈ s.db.events.rows, row.id = letter.eventId := by
  have submitted := sound.deadLetters letter.eventId letter (s.db.deadLetter?_of_mem stored)
  obtain ⟨event, accepted, sameId, _⟩ := submitted
  obtain ⟨row, found⟩ := Option.ne_none_iff_exists'.mp (sound.stored event accepted)
  exact ⟨row, s.db.events.mem_of_lookup _ found, (s.db.id_of_event? found).trans sameId⟩

omit [DecidableEq Payload] in
/-- A pending dead letter is the letter of an event that is not processed. -/
theorem pendingDeadLetters_add_processed_le (sound : ContentSound codec s)
    (agree : LettersAgree s) :
    (s.db.deadLetters.countWhere fun row => row.replayedAt = none) + s.db.countStatus .processed ≤
      s.db.events.rows.length := by
  rw [Database.countStatus, ← Table.length_keysWhere, ← Table.length_keysWhere,
    ← List.length_append]
  refine le_trans ?_ (s.db.events.countWhere_le_length fun _ => True)
  apply s.db.events.length_le_countWhere _ EventRow.id
  · apply List.Nodup.append (Table.nodup_keysWhere _ _) (Table.nodup_keysWhere _ _)
    -- an id in both lists is that of a processed event with an open letter
    intro id inLetters inEvents
    obtain ⟨letter, letterStored, pending, rfl⟩ := (Table.mem_keysWhere _ _).mp inLetters
    obtain ⟨row, stored, processed, sameId⟩ := (Table.mem_keysWhere _ _).mp inEvents
    have status : s.db.status? letter.eventId = some .processed := by
      rw [← sameId]
      exact s.db.status?_eq_some_iff.mpr ⟨row, s.db.event?_of_mem stored, processed⟩
    exact agree.processed _ status ⟨letter, s.db.deadLetter?_of_mem letterStored, pending⟩
  · intro id member
    rcases List.mem_append.mp member with inLetters | inEvents
    · obtain ⟨letter, letterStored, _, rfl⟩ := (Table.mem_keysWhere _ _).mp inLetters
      obtain ⟨row, stored, sameId⟩ := event_of_deadLetter sound letterStored
      exact ⟨row, stored, trivial, sameId⟩
    · obtain ⟨row, stored, _, sameId⟩ := (Table.mem_keysWhere _ _).mp inEvents
      exact ⟨row, stored, trivial, sameId⟩

/-- The event is neither processed nor failed, and the broker has no message of it. -/
def Unsent (s : System Payload) (id : EventId) : Prop :=
  s.db.event? id ≠ none ∧ ¬ s.db.Final id ∧
    ∀ message, s.InBroker message → message.messageId ≠ id

/-- Such an event has a pending outbox row. -/
theorem pendingOutbox_of_unsent (lawful : codec.Lawful)
    (reached : ReachableVia codec config MarksCurrentOpening s) {id : EventId}
    (unsent : Unsent s id) :
    ∃ out ∈ s.db.outbox.rows, out.publishedAt = none ∧ out.eventId = id := by
  obtain ⟨stored, unfinished, noMessage⟩ := unsent
  have present := (outboxSound reached.reachable).present id stored
  obtain ⟨out, found⟩ := Option.ne_none_iff_exists'.mp present
  obtain ⟨outStored, sameEvent⟩ := s.db.outboxFor?_eq_some_iff.mp found
  refine ⟨out, outStored, ?_, sameEvent⟩
  by_contra published
  -- the message of a published row is in the broker as long as the event is unfinished
  obtain ⟨sent, enqueued, sameId, current⟩ :=
    publishedCurrent lawful reached id out found published
  rw [← sameId] at current unfinished
  have tracked := deliveriesTracked lawful reached.reachable
  rcases tracked.current sent enqueued current with inBroker | final
  · exact noMessage sent inBroker sameId
  · exact unfinished final

theorem unsent_le_pendingOutbox (lawful : codec.Lawful)
    (reached : ReachableVia codec config MarksCurrentOpening s) {ids : List EventId}
    (distinct : ids.Nodup) (unsent : ∀ id ∈ ids, Unsent s id) :
    ids.length ≤ s.db.outbox.countWhere fun row => row.publishedAt = none := by
  apply s.db.outbox.length_le_countWhere _ OutboxRow.eventId distinct
  intro id member
  exact pendingOutbox_of_unsent lawful reached (unsent id member)

/-- Without pending dead letters and pending outbox rows, nothing waits outside the broker. -/
theorem processed_or_inBroker (lawful : codec.Lawful)
    (reached : ReachableVia codec config MarksCurrentOpening s) (agree : LettersAgree s)
    (noOutbox : (s.db.outbox.countWhere fun row => row.publishedAt = none) = 0)
    (noLetter : (s.db.deadLetters.countWhere fun row => row.replayedAt = none) = 0)
    {row : EventRow} (stored : row ∈ s.db.events.rows) :
    row.status = .processed ∨ ∃ message, s.InBroker message ∧ message.messageId = row.id := by
  by_contra waiting
  obtain ⟨unprocessed, noMessage⟩ := not_or.mp waiting
  have unfailed : row.status ≠ .failed := by
    intro failed
    have failedCounted := failed_le_pendingDeadLetters agree
    have counted : 0 < s.db.countStatus .failed :=
      List.countP_pos_iff.mpr ⟨row, stored, decide_eq_true failed⟩
    omega
  have found := s.db.event?_of_mem stored
  have unsent : Unsent s row.id := by
    refine ⟨by simp [found], ?_, fun message inBroker same => noMessage ⟨message, inBroker, same⟩⟩
    simp [Database.Final, Database.status?, found, unprocessed, unfailed]
  have unsentCounted := unsent_le_pendingOutbox lawful reached (List.nodup_singleton row.id)
    (List.forall_mem_singleton.mpr unsent)
  rw [List.length_singleton, noOutbox] at unsentCounted
  omega

/-- The pending dead letters are at least the failed events and at most the events that are not
processed, and the pending outbox rows are at least the unfinished events of which the broker has no
message.  When both gauges are zero, every event is processed or on its way through the broker. -/
theorem gauges_bound_backlog (lawful : codec.Lawful)
    (reached : ReachableVia codec config WritesCurrent s) (countable : s.db.Countable) :
    (s.db.countStatus .failed : Int) ≤ s.db.operationalMetrics.pendingDeadLetters.toInt ∧
    s.db.operationalMetrics.pendingDeadLetters.toInt + s.db.countStatus .processed ≤
      s.db.events.rows.length ∧
    (∀ ids : List EventId, ids.Nodup → (∀ id ∈ ids, Unsent s id) →
      (ids.length : Int) ≤ s.db.operationalMetrics.pendingOutbox.toInt) ∧
    (s.db.operationalMetrics.pendingOutbox = 0 → s.db.operationalMetrics.pendingDeadLetters = 0 →
      ∀ row ∈ s.db.events.rows, row.status = .processed ∨
        ∃ message, s.InBroker message ∧ message.messageId = row.id) := by
  have marks : ReachableVia codec config MarksCurrentOpening s :=
    reached.mono fun _ _ _ writes => writes.1
  have agree := lettersAgree (reached.mono fun _ _ _ writes => writes.2)
  have sound := contentSound lawful reached.reachable
  have outboxGauge := pendingOutbox_eq countable
  have lettersGauge := pendingDeadLetters_eq countable
  refine ⟨?_, ?_, ?_, ?_⟩
  · rw [lettersGauge]
    exact_mod_cast failed_le_pendingDeadLetters agree
  · rw [lettersGauge]
    exact_mod_cast pendingDeadLetters_add_processed_le sound agree
  · intro ids distinct unsent
    rw [outboxGauge]
    exact_mod_cast unsent_le_pendingOutbox lawful marks distinct unsent
  · intro outboxEmpty lettersEmpty row stored
    rw [outboxEmpty, Int64.toInt_zero] at outboxGauge
    rw [lettersEmpty, Int64.toInt_zero] at lettersGauge
    apply processed_or_inBroker lawful marks agree _ _ stored
    · exact_mod_cast outboxGauge.symm
    · exact_mod_cast lettersGauge.symm

end Bounds

set_option maxRecDepth 4000 in
theorem gauges_bound_backlog_of_failedRun :
    ∃ s, run (step Codec.text Sample.config) System.initial failedRun = some s ∧
      s.db.countStatus .failed = 1 ∧ 1 ≤ s.db.operationalMetrics.pendingDeadLetters.toInt := by
  have ran : (run (step Codec.text Sample.config) System.initial failedRun).map
      (fun s => (s.db.countStatus .failed, s.db.outbox.rows.length,
        s.db.deadLetters.rows.length)) = some (1, 1, 1) := by
    decide +kernel
  obtain ⟨s, reaches, counts⟩ := Option.map_eq_some_iff.mp ran
  simp only [Prod.mk.injEq] at counts
  obtain ⟨failed, outboxLength, lettersLength⟩ := counts
  have meets : Along (step Codec.text Sample.config) WritesCurrent System.initial failedRun := by
    decide +kernel
  have countable : s.db.Countable := by
    rw [Database.Countable, outboxLength, lettersLength]
    decide
  obtain ⟨counted, _⟩ :=
    gauges_bound_backlog Codec.text_lawful (.of_run .start meets reaches) countable
  rw [failed] at counted
  exact ⟨s, reaches, failed, counted⟩

end WebhookProcessor
