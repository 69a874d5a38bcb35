/-
Module: WebhookProcessor.Proofs.StoreViews
Layer: Proofs
Purpose: What each statement of the store does to the three lookups `event?`, `outboxFor?` and
  `deadLetter?`.  Every invariant reads the tables through these lookups, so this is the only
  module that looks inside a statement's table updates.
Trusted boundary: none
Main exports: event?_claimEvent, event?_commitReplay, outboxFor?_claimPendingOutbox,
  deadLetter?_saveDeadLetter and their siblings
-/
import WebhookProcessor.Model.EventStore

namespace WebhookProcessor

open Relational

namespace Database

variable {Payload : Type} (db : Database)

theorem id_of_event? {id : EventId} {row : EventRow} (found : db.event? id = some row) :
    row.id = id :=
  db.events.key_of_lookup (· = id) found

theorem eventId_of_deadLetter? {id : EventId} {row : DeadLetterRow}
    (found : db.deadLetter? id = some row) : row.eventId = id :=
  db.deadLetters.key_of_lookup (· = id) found

theorem eventId_of_outboxFor? {id : EventId} {row : OutboxRow}
    (found : db.outboxFor? id = some row) : row.eventId = id :=
  db.outbox.key_of_lookup (·.eventId = id) found

/-- `event_id` is unique in `outbox`. -/
theorem outboxFor?_of_mem {row : OutboxRow} (member : row ∈ db.outbox.rows) :
    db.outboxFor? row.eventId = some row :=
  db.outbox.lookup_of_mem (·.eventId = row.eventId)
    (fun _ _ first second => Or.inr (first.trans second.symm)) member rfl

theorem outboxFor?_eq_some_iff {id : EventId} {row : OutboxRow} :
    db.outboxFor? id = some row ↔ row ∈ db.outbox.rows ∧ row.eventId = id := by
  constructor
  · intro found
    exact ⟨db.outbox.mem_of_lookup _ found, db.eventId_of_outboxFor? found⟩
  · rintro ⟨member, rfl⟩
    exact db.outboxFor?_of_mem member

/-- The serial id is unique in `outbox`. -/
theorem outbox_eq_of_id {first second : OutboxRow} (firstMember : first ∈ db.outbox.rows)
    (secondMember : second ∈ db.outbox.rows) (same : first.id = second.id) : first = second :=
  db.outbox.eq_of_selective (fun outboxKey => outboxKey.id = second.id)
    (fun _ _ one two => Or.inl (one.trans two.symm)) firstMember secondMember same rfl

theorem outboxIds_nodup : (db.outbox.rows.map OutboxRow.id).Nodup := by
  rw [List.Nodup, List.pairwise_map]
  exact db.outbox.unique.imp fun apart same => apart (Or.inl same)

theorem event?_of_mem {row : EventRow} (member : row ∈ db.events.rows) :
    db.event? row.id = some row :=
  db.events.lookup_of_mem (· = row.id) (fun _ _ first second => first.trans second.symm)
    member rfl

theorem deadLetter?_of_mem {row : DeadLetterRow} (member : row ∈ db.deadLetters.rows) :
    db.deadLetter? row.eventId = some row :=
  db.deadLetters.lookup_of_mem (· = row.eventId)
    (fun _ _ first second => first.trans second.symm) member rfl

theorem status?_eq_some_iff {id : EventId} {status : EventStatus} :
    db.status? id = some status ↔ ∃ row, db.event? id = some row ∧ row.status = status := by
  simp [status?]

theorem claimMatches_iff {id : EventId} {lease now : Time} :
    db.ClaimMatches id lease now ↔ ∃ row, db.event? id = some row ∧ row.Claimable now lease := by
  constructor
  · rintro ⟨row, member, rfl, claimable⟩
    exact ⟨row, db.event?_of_mem member, claimable⟩
  · rintro ⟨row, found, claimable⟩
    exact ⟨row, db.events.mem_of_lookup _ found, db.id_of_event? found, claimable⟩

/-! ### `events` -/

@[simp] theorem event?_empty (id : EventId) : empty.event? id = none := rfl

theorem event?_commitSave (event : Event Payload) (payload : String) (now : Time)
    (outboxId : Nat) (id : EventId) :
    (db.commitSave event payload now outboxId).event? id =
      (db.event? id).or
        (if event.id = id then some (queuedEventRow event payload now) else none) :=
  db.events.lookup_insert_eq (queuedEventRow event payload now) id

theorem event?_claimEvent (target : EventId) (lease now : Time) (id : EventId) :
    (db.claimEvent target lease now).event? id =
      if id = target then
        (db.event? id).map fun row => if row.Claimable now lease then row.claim now else row
      else db.event? id :=
  db.events.lookup_updateWhere_eq (fun row => row.Claimable now lease) (fun row => row.claim now)
    (fun _ => rfl) target id

theorem event?_markProcessed (target : EventId) (attempts : Nat) (now : Time) (id : EventId) :
    (db.markProcessed target attempts now).event? id =
      if id = target then (db.event? id).map fun row => row.finish attempts now
      else db.event? id :=
  db.events.lookup_updateWhere_key (fun row => row.finish attempts now) (fun _ => rfl) target id

theorem event?_markFailed (target : EventId) (attempts : Nat) (error : String) (now : Time)
    (id : EventId) :
    (db.markFailed target attempts error now).event? id =
      if id = target then (db.event? id).map fun row => row.fail attempts error now
      else db.event? id :=
  db.events.lookup_updateWhere_key (fun row => row.fail attempts error now) (fun _ => rfl) target id

variable {db} in
theorem status?_markProcessed {id : EventId} (present : db.event? id ≠ none) (attempts : Nat)
    (now : Time) : (db.markProcessed id attempts now).status? id = some .processed := by
  obtain ⟨row, found⟩ := Option.ne_none_iff_exists'.mp present
  simp [status?, event?_markProcessed, found, EventRow.finish]

variable {db} in
theorem status?_markFailed {id : EventId} (present : db.event? id ≠ none) (attempts : Nat)
    (error : String) (now : Time) :
    (db.markFailed id attempts error now).status? id = some .failed := by
  obtain ⟨row, found⟩ := Option.ne_none_iff_exists'.mp present
  simp [status?, event?_markFailed, found, EventRow.fail]

theorem event?_commitReplay (tx : ReplayTx) (id : EventId) :
    (db.commitReplay tx).event? id =
      if id = tx.eventId ∧ tx.moved = true then (db.event? id).map fun row => row.requeue tx.now
      else db.event? id := by
  have viewed := db.events.lookup_updateWhere_eq (fun _ => tx.moved = true)
    (fun row => row.requeue tx.now) (fun _ => rfl) tx.eventId id
  refine viewed.trans ?_
  by_cases moved : tx.moved = true
  · simp [moved, event?]
  · simp [moved, event?]

/-! ### `outbox` -/

@[simp] theorem outboxFor?_empty (id : EventId) : empty.outboxFor? id = none := rfl

theorem outboxFor?_claimPendingOutbox (limit : Nat) (lease now : Time) (token : String)
    (id : EventId) :
    (db.claimPendingOutbox limit lease now token).2.outboxFor? id =
      (db.outboxFor? id).map fun row =>
        if row.id ∈ (db.outboxCandidates limit lease now).map OutboxRow.id then
          row.reserve token now
        else row :=
  db.outbox.lookup_updateWhere _ _ (fun row => row.reserve token now) fun _ => rfl

theorem outboxFor?_markOutboxPublished (n : Nat) (token : String) (now : Time) (id : EventId) :
    (db.markOutboxPublished n token now).outboxFor? id =
      (db.outboxFor? id).map fun row =>
        if row.ReservedFor n token then row.publish now else row :=
  db.outbox.lookup_updateWhere _ _ (fun row => row.publish now) fun _ => rfl

theorem outboxFor?_markOutboxFailed (n : Nat) (token error : String) (id : EventId) :
    (db.markOutboxFailed n token error).outboxFor? id =
      (db.outboxFor? id).map fun row =>
        if row.ReservedFor n token then row.release error else row :=
  db.outbox.lookup_updateWhere _ _ (fun row => row.release error) fun _ => rfl

/-- An insert into `outbox` shows the new row where there was none, provided its id is new. -/
theorem outboxFor?_insert (row : OutboxRow) (fresh : ∀ old ∈ db.outbox.rows, old.id ≠ row.id)
    (id : EventId) :
    (db.outbox.insert row).lookup (·.eventId = id) =
      (db.outboxFor? id).or (if row.eventId = id then some row else none) := by
  rw [Table.lookup_insert]
  cases found : db.outboxFor? id with
  | some old => simp [show db.outbox.lookup (·.eventId = id) = some old from found]
  | none =>
      have absent := (db.outbox.lookup_eq_none_iff _).mp found
      have admits : row.eventId = id → db.outbox.Admits row := by
        rintro rfl old member (sameId | sameEvent)
        · exact fresh old member sameId
        · exact absent old member sameEvent
      rw [show db.outbox.lookup (·.eventId = id) = none from found]
      by_cases same : row.eventId = id
      · rw [if_pos ⟨admits same, same⟩, if_pos same]
      · rw [if_neg fun both => same both.2, if_neg same]

/-- An insert into `outbox` changes the view of one event, and only where it found nothing. -/
theorem outboxFor?_insert_cases (row : OutboxRow) (id : EventId) :
    (db.outbox.insert row).lookup (·.eventId = id) = db.outboxFor? id ∨
      (row.eventId = id ∧ db.outboxFor? id = none ∧
        (db.outbox.insert row).lookup (·.eventId = id) = some row) := by
  rw [Table.lookup_insert]
  cases found : db.outbox.lookup (·.eventId = id) with
  | some old => exact Or.inl (by simp [outboxFor?, found])
  | none =>
      by_cases visible : db.outbox.Admits row ∧ row.key.eventId = id
      · exact Or.inr ⟨visible.2, found, by simp [visible]⟩
      · exact Or.inl (by simp [outboxFor?, found, visible])

theorem outboxFor?_commitSave (event : Event Payload) (payload : String) (now : Time)
    (outboxId : Nat) (fresh : ∀ old ∈ db.outbox.rows, old.id ≠ outboxId) (id : EventId) :
    (db.commitSave event payload now outboxId).outboxFor? id =
      (db.outboxFor? id).or
        (if event.id = id then
          some (newOutboxRow outboxId event.id event.type event.requestId payload now)
        else none) :=
  db.outboxFor?_insert (newOutboxRow outboxId event.id event.type event.requestId payload now)
    fresh id

/-- A replay whose UPDATE matched the outbox row reopens it. -/
theorem outboxFor?_commitReplay {tx : ReplayTx} (updates : tx.inserted = none) (id : EventId) :
    (db.commitReplay tx).outboxFor? id =
      if id = tx.eventId then (db.outboxFor? id).map OutboxRow.reopen else db.outboxFor? id := by
  have viewed : (db.commitReplay tx).outboxFor? id =
      (db.outboxFor? id).map fun row => if row.eventId = tx.eventId then row.reopen else row := by
    simp only [outboxFor?, commitReplay, updates]
    exact db.outbox.lookup_updateWhere _ _ OutboxRow.reopen fun _ => rfl
  rw [viewed]
  cases found : db.outboxFor? id with
  | none => simp
  | some row =>
      rw [Option.map_some, Option.map_some, db.eventId_of_outboxFor? found]
      split <;> rfl

/-- A row is claimed exactly when it is one of the candidates. -/
theorem mem_outboxCandidates {limit : Nat} {lease now : Time} {row : OutboxRow}
    (member : row ∈ db.outboxCandidates limit lease now) :
    row ∈ db.outbox.rows ∧ row.Claimable now lease ∧ db.locks (.outbox row.eventId) = none := by
  have sorted := List.mem_of_mem_take member
  rw [List.mem_insertionSort, List.mem_filter] at sorted
  exact ⟨sorted.1, by simpa using sorted.2⟩

theorem mem_outboxCandidates_of_id {limit : Nat} {lease now : Time} {row : OutboxRow}
    (member : row ∈ db.outbox.rows)
    (claimed : row.id ∈ (db.outboxCandidates limit lease now).map OutboxRow.id) :
    row ∈ db.outboxCandidates limit lease now := by
  obtain ⟨candidate, candidateMember, same⟩ := List.mem_map.mp claimed
  have stored := (db.mem_outboxCandidates candidateMember).1
  rwa [db.outbox_eq_of_id member stored same.symm]

/-- A claim reserves each of its candidates. -/
theorem outboxFor?_of_candidate {limit : Nat} {lease now : Time} {row : OutboxRow}
    (candidate : row ∈ db.outboxCandidates limit lease now) (token : String) :
    (db.claimPendingOutbox limit lease now token).2.outboxFor? row.eventId =
      some (row.reserve token now) := by
  rw [outboxFor?_claimPendingOutbox, db.outboxFor?_of_mem (db.mem_outboxCandidates candidate).1,
    Option.map_some, if_pos (List.mem_map_of_mem candidate)]

/-! ### `dead_letters` -/

@[simp] theorem deadLetter?_empty (id : EventId) : empty.deadLetter? id = none := rfl

theorem deadLetter?_saveDeadLetter (event : Event Payload) (payload error : String)
    (attempts : Nat) (now : Time) (id : EventId) :
    (db.saveDeadLetter event payload error attempts now).deadLetter? id =
      if event.id = id then
        some ((db.deadLetter? id).elim (newDeadLetterRow event payload error attempts now)
          fun row => row.reopen error attempts now)
      else db.deadLetter? id :=
  db.deadLetters.lookup_upsert_eq (newDeadLetterRow event payload error attempts now)
    (fun row => row.reopen error attempts now) (fun _ => rfl) id

theorem deadLetter?_commitReplay (tx : ReplayTx) (id : EventId) :
    (db.commitReplay tx).deadLetter? id =
      if id = tx.eventId then
        (db.deadLetter? id).map fun row => row.markReplayed tx.now
      else db.deadLetter? id :=
  db.deadLetters.lookup_updateWhere_key (fun row => row.markReplayed tx.now)
    (fun _ => rfl) tx.eventId id

theorem deadLetter?_rescheduleDeadLetterRetry (target : EventId) (error : String)
    (retryAt : Time) (id : EventId) :
    (db.rescheduleDeadLetterRetry target error retryAt).deadLetter? id =
      if id = target then
        (db.deadLetter? id).map fun row =>
          if row.replayedAt = none then row.reschedule error retryAt else row
      else db.deadLetter? id :=
  db.deadLetters.lookup_updateWhere_eq (fun row => row.replayedAt = none)
    (fun row => row.reschedule error retryAt) (fun _ => rfl) target id

theorem deadLetter?_claimRetryableDeadLetterDetails (limit maxAttempts : Nat) (now : Time)
    (id : EventId) :
    (db.claimRetryableDeadLetterDetails limit maxAttempts now).2.deadLetter? id =
      (db.deadLetter? id).map fun row =>
        if row.eventId ∈ (db.retryCandidates limit maxAttempts now).map DeadLetterRow.eventId then
          row.spend
        else row :=
  db.deadLetters.lookup_updateWhere _ _ DeadLetterRow.spend fun _ => rfl

theorem mem_retryCandidates {limit maxAttempts : Nat} {now : Time} {row : DeadLetterRow}
    (member : row ∈ db.retryCandidates limit maxAttempts now) :
    row ∈ db.deadLetters.rows ∧ row.Retryable maxAttempts now ∧
      db.locks (.deadLetter row.eventId) = none := by
  have sorted := List.mem_of_mem_take member
  rw [List.mem_insertionSort, List.mem_filter] at sorted
  exact ⟨sorted.1, by simpa using sorted.2⟩

theorem mem_retryCandidates_of_eventId {limit maxAttempts : Nat} {now : Time}
    {row : DeadLetterRow} (member : row ∈ db.deadLetters.rows)
    (claimed : row.eventId ∈
      (db.retryCandidates limit maxAttempts now).map DeadLetterRow.eventId) :
    row ∈ db.retryCandidates limit maxAttempts now := by
  obtain ⟨candidate, candidateMember, same⟩ := List.mem_map.mp claimed
  have stored := (db.mem_retryCandidates candidateMember).1
  have found := db.deadLetter?_of_mem stored
  rw [same, db.deadLetter?_of_mem member] at found
  rwa [Option.some.inj found]

end Database

end WebhookProcessor
