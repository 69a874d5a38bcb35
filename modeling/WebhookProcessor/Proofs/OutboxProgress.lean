/-
Module: WebhookProcessor.Proofs.OutboxProgress
Layer: Proofs
Purpose: What a dispatcher achieves that is alone with the database.  One `DispatchPending` serves
  the unpublished rows as a head-of-line queue in id order: the rows of its batch up to the first
  rejected `Publish`, where its loop ends.  A row whose event is always rejected therefore keeps
  every later row from being published.
Trusted boundary: none
Main exports: Dispatched, publishLoop_dispatched, Database.pendingIds, Dispatchable,
  pendingIds_dispatchPending, dispatchPending_run, outbox_drained_iff_rejected_last
-/
import WebhookProcessor.Model.Outbox
import WebhookProcessor.Proofs.Representation
import WebhookProcessor.Queueing.HeadOfLine

namespace WebhookProcessor

open Transition Queueing

variable {Payload : Type} {codec : Codec Payload} {lease now : Time} {limit : Nat}

/-! ### What one call does to a row -/

/-- A row before and after a call of `DispatchPending` whose claim sampled `now` and that published
the rows `published`. -/
structure DispatchedRow (now : Time) (published : List Nat) (row later : OutboxRow) : Prop where
  id : later.id = row.id
  payload : later.payload = row.payload
  published_iff : later.publishedAt = none ↔ row.publishedAt = none ∧ row.id ∉ published
  reserved : later.dispatchingAt = none ∨ later.dispatchingAt = row.dispatchingAt ∨
    later.dispatchingAt = some now

/-- The database before and after some of the statements of a call. -/
structure Dispatched (now : Time) (published : List Nat) (db later : Database) : Prop where
  locks : later.locks = db.locks
  rows : ∀ id, Option.Rel (DispatchedRow now published) (db.outboxFor? id) (later.outboxFor? id)

theorem DispatchedRow.refl (row : OutboxRow) : DispatchedRow now [] row row :=
  ⟨rfl, rfl, by simp, Or.inr (Or.inl rfl)⟩

theorem DispatchedRow.trans {earlier later : List Nat} {first second third : OutboxRow}
    (before : DispatchedRow now earlier first second)
    (after : DispatchedRow now later second third) :
    DispatchedRow now (earlier ++ later) first third := by
  refine ⟨after.id.trans before.id, after.payload.trans before.payload, ?_, ?_⟩
  · rw [after.published_iff, before.published_iff, before.id, List.mem_append]
    tauto
  · rcases after.reserved with cleared | kept | taken
    · exact Or.inl cleared
    · rw [kept]
      exact before.reserved
    · exact Or.inr (Or.inr taken)

namespace Dispatched

theorem refl (db : Database) : Dispatched now [] db db := by
  refine ⟨rfl, fun id => ?_⟩
  cases db.outboxFor? id with
  | none => exact .none
  | some row => exact .some (.refl row)

theorem trans {earlier later : List Nat} {first second third : Database}
    (before : Dispatched now earlier first second) (after : Dispatched now later second third) :
    Dispatched now (earlier ++ later) first third := by
  refine ⟨after.locks.trans before.locks, fun id => ?_⟩
  have one := before.rows id
  have two := after.rows id
  generalize first.outboxFor? id = firstRow at one
  generalize second.outboxFor? id = secondRow at one two
  generalize third.outboxFor? id = thirdRow at two
  cases one with
  | none =>
      cases two
      exact .none
  | some changed =>
      cases two with
      | some changedAgain => exact .some (changed.trans changedAgain)

/-- A statement that updates rows in place. -/
theorem of_map {published : List Nat} {db later : Database} {update : OutboxRow → OutboxRow}
    (locks : later.locks = db.locks)
    (view : ∀ id, later.outboxFor? id = (db.outboxFor? id).map update)
    (changes : ∀ row ∈ db.outbox.rows, DispatchedRow now published row (update row)) :
    Dispatched now published db later := by
  refine ⟨locks, fun id => ?_⟩
  rw [view]
  cases found : db.outboxFor? id with
  | none => exact .none
  | some row => exact .some (changes row (db.outboxFor?_eq_some_iff.mp found).1)

theorem claimPendingOutbox (db : Database) (limit : Nat) (lease : Time) (token : String) :
    Dispatched now [] db (db.claimPendingOutbox limit lease now token).2 := by
  refine of_map rfl (db.outboxFor?_claimPendingOutbox limit lease now token) fun row _ => ?_
  split
  · exact ⟨rfl, rfl, by simp [OutboxRow.reserve], Or.inr (Or.inr rfl)⟩
  · exact .refl row

theorem markOutboxFailed (db : Database) (n : Nat) (token error : String) :
    Dispatched now [] db (db.markOutboxFailed n token error) := by
  refine of_map rfl (db.outboxFor?_markOutboxFailed n token error) fun row _ => ?_
  split
  · exact ⟨rfl, rfl, by simp [OutboxRow.release], Or.inl rfl⟩
  · exact .refl row

theorem markOutboxPublished {db : Database} {n : Nat} {token : String}
    (reserved : db.Reserved n token) (markedAt : Time) :
    Dispatched now [n] db (db.markOutboxPublished n token markedAt) := by
  refine of_map rfl (db.outboxFor?_markOutboxPublished n token markedAt) fun row member => ?_
  obtain ⟨holder, holderMember, holds⟩ := reserved
  split
  · rename_i marked
    exact ⟨rfl, rfl, by simp [OutboxRow.publish, marked.1], Or.inl rfl⟩
  · rename_i unmarked
    have other : row.id ≠ n := by
      intro same
      rw [db.outbox_eq_of_id member holderMember (same.trans holds.1.symm)] at unmarked
      exact unmarked holds
    exact ⟨rfl, rfl, by simp [other], Or.inr (Or.inl rfl)⟩

end Dispatched

/-! ### The publish loop -/

theorem reserved_of_candidate {db : Database} {row : OutboxRow}
    (candidate : row ∈ db.outboxCandidates limit lease now) (token : String) :
    (db.claimPendingOutbox limit lease now token).2.Reserved row.id token := by
  have found := db.outboxFor?_of_candidate candidate token
  exact ⟨row.reserve token now, (Database.outboxFor?_eq_some_iff _ |>.mp found).1, rfl,
    (db.mem_outboxCandidates candidate).2.1.1, rfl⟩

/-- Marking one row leaves the reservations of the others. -/
theorem reserved_of_mark {db : Database} {n m : Nat} {own : String} (reserved : db.Reserved m own)
    (other : m ≠ n) (token : String) (markedAt : Time) :
    (db.markOutboxPublished n token markedAt).Reserved m own := by
  obtain ⟨row, member, holds⟩ := reserved
  have found : (db.markOutboxPublished n token markedAt).outboxFor? row.eventId = some row := by
    rw [Database.outboxFor?_markOutboxPublished, db.outboxFor?_of_mem member, Option.map_some,
      if_neg fun marked => other (holds.1.symm.trans marked.1)]
  exact ⟨row, (Database.outboxFor?_eq_some_iff _ |>.mp found).1, holds⟩

/-- The messages in front of the first rejected `Publish`. -/
def DispatchCall.confirmed (call : DispatchCall Payload) (messages : List (OutboxMessage Payload)) :
    List (OutboxMessage Payload) :=
  messages.takeWhile fun message => (call.publish message.event).isNone

/-- The loop publishes the rows in front of the first rejected one. -/
theorem publishLoop_dispatched (now : Time) (call : DispatchCall Payload)
    {messages : List (OutboxMessage Payload)} {db : Database}
    (reserved : ∀ message ∈ messages, db.Reserved message.id message.dispatchToken)
    (distinct : (messages.map OutboxMessage.id).Nodup) :
    (publishLoop call messages db).1 = .ok () ∧
      Dispatched now ((call.confirmed messages).map OutboxMessage.id) db
        (publishLoop call messages db).2 := by
  induction messages generalizing db with
  | nil => exact ⟨rfl, .refl db⟩
  | cons message rest inductionHypothesis =>
      have own := reserved message List.mem_cons_self
      obtain ⟨apart, distinctRest⟩ := List.nodup_cons.mp distinct
      cases answer : call.publish message.event with
      | some error =>
          have stops : call.confirmed (message :: rest) = [] :=
            List.takeWhile_cons_of_neg (by simp [answer])
          simp only [publishLoop, answer, stops, true_and]
          exact .markOutboxFailed db _ _ _
      | none =>
          have goesOn : call.confirmed (message :: rest) = message :: call.confirmed rest :=
            List.takeWhile_cons_of_pos (by simp [answer])
          have stillReserved : ∀ later ∈ rest, (db.markOutboxPublished message.id
              message.dispatchToken (call.markedAt message.id)).Reserved later.id
                later.dispatchToken := by
            intro later member
            refine reserved_of_mark (reserved later (List.mem_cons_of_mem _ member)) ?_ _ _
            exact fun same => apart (List.mem_map.mpr ⟨later, member, same⟩)
          obtain ⟨succeeds, served⟩ := inductionHypothesis stillReserved distinctRest
          simp only [publishLoop, answer, if_pos own, goesOn, List.map_cons]
          exact ⟨succeeds, (Dispatched.markOutboxPublished own _).trans served⟩

/-! ### The queue of unpublished rows -/

namespace Database

variable (db : Database)

/-- The ids of the unpublished rows in ascending order. -/
def pendingIds : List Nat :=
  (db.unpublished.map OutboxRow.id).insertionSort (· ≤ ·)

theorem mem_pendingIds {n : Nat} :
    n ∈ db.pendingIds ↔ ∃ row ∈ db.unpublished, row.id = n := by
  rw [pendingIds, List.mem_insertionSort, List.mem_map]

theorem mem_pendingIds_iff_view {n : Nat} :
    n ∈ db.pendingIds ↔
      ∃ id row, db.outboxFor? id = some row ∧ row.id = n ∧ row.publishedAt = none := by
  rw [mem_pendingIds]
  constructor
  · rintro ⟨row, member, same⟩
    obtain ⟨stored, unpublished⟩ := db.mem_unpublished.mp member
    exact ⟨row.eventId, row, db.outboxFor?_of_mem stored, same, unpublished⟩
  · rintro ⟨id, row, found, same, unpublished⟩
    exact ⟨row, db.mem_unpublished.mpr ⟨(db.outboxFor?_eq_some_iff.mp found).1, unpublished⟩, same⟩

theorem pendingIds_nodup : db.pendingIds.Nodup := by
  refine (List.perm_insertionSort _ _).nodup_iff.mpr (db.outboxIds_nodup.sublist ?_)
  exact List.filter_sublist.map OutboxRow.id

theorem pendingIds_ordered : db.pendingIds.Pairwise (· < ·) := by
  have sorted : db.pendingIds.Pairwise (· ≤ ·) := List.pairwise_insertionSort _ _
  exact (sorted.and db.pendingIds_nodup).imp fun both => lt_of_le_of_ne both.1 both.2

theorem length_pendingIds : db.pendingIds.length = db.unpublished.length := by
  rw [pendingIds, List.length_insertionSort, List.length_map]

end Database

/-- A call takes out of the queue what it publishes. -/
theorem Dispatched.mem_pendingIds {published : List Nat} {db later : Database}
    (dispatched : Dispatched now published db later) {n : Nat} :
    n ∈ later.pendingIds ↔ n ∈ db.pendingIds ∧ n ∉ published := by
  rw [Database.mem_pendingIds_iff_view, Database.mem_pendingIds_iff_view]
  constructor
  · rintro ⟨id, row, found, rfl, unpublished⟩
    have change := dispatched.rows id
    rw [found] at change
    generalize before : db.outboxFor? id = old at change
    cases change with
    | some changed =>
        obtain ⟨wasUnpublished, kept⟩ := changed.published_iff.mp unpublished
        rw [changed.id]
        exact ⟨⟨id, _, before, rfl, wasUnpublished⟩, kept⟩
  · rintro ⟨⟨id, row, found, rfl, unpublished⟩, kept⟩
    have change := dispatched.rows id
    rw [found] at change
    generalize after : later.outboxFor? id = new at change
    cases change with
    | some changed =>
        exact ⟨id, _, after, changed.id, changed.published_iff.mpr ⟨unpublished, kept⟩⟩

/-- A call that publishes a row leaves fewer in the queue. -/
theorem Dispatched.length_pendingIds_lt {published : List Nat} {db later : Database}
    (dispatched : Dispatched now published db later) {n : Nat} (listed : n ∈ db.pendingIds)
    (served : n ∈ published) : later.pendingIds.length < db.pendingIds.length := by
  have gone : n ∉ later.pendingIds := fun left => (dispatched.mem_pendingIds.mp left).2 served
  have subset : n :: later.pendingIds ⊆ db.pendingIds :=
    List.cons_subset.mpr ⟨listed, fun _ left => (dispatched.mem_pendingIds.mp left).1⟩
  exact ((List.nodup_cons.mpr ⟨gone, later.pendingIds_nodup⟩).subperm subset).length_le

/-! ### One call -/

/-- Nobody holds an outbox row, the reservations of the unpublished rows have run out at `now`, and
their payloads decode. -/
structure Dispatchable (codec : Codec Payload) (lease now : Time) (db : Database) : Prop where
  free : ∀ id, db.locks (.outbox id) = none
  expired : ∀ row ∈ db.unpublished, row.Claimable now lease
  decodes : ∀ row ∈ db.unpublished, codec.unmarshal row.payload ≠ none

namespace Dispatchable

variable {db : Database}

/-- The claim takes the head of the queue. -/
theorem ids_outboxCandidates (ready : Dispatchable codec lease now db) :
    (db.outboxCandidates limit lease now).map OutboxRow.id = db.pendingIds.take limit := by
  rw [db.outboxCandidates_of_claimable ready.free ready.expired, List.map_take,
    Database.pendingIds,
    List.map_insertionSort _ (· ≤ ·) OutboxRow.id _ fun _ _ _ _ => Iff.rfl]

theorem decodes_claimed (ready : Dispatchable codec lease now db) (token : String)
    (row : OutboxRow) (member : row ∈ (db.claimPendingOutbox limit lease now token).1) :
    codec.unmarshal row.payload ≠ none := by
  obtain ⟨candidate, candidateMember, rfl⟩ := List.mem_map.mp member
  obtain ⟨stored, claimable, _⟩ := db.mem_outboxCandidates candidateMember
  exact ready.decodes candidate (db.mem_unpublished.mpr ⟨stored, claimable.1⟩)

/-- The claim hands its dispatcher one message for each row at the head of the queue, and these rows
are reserved for it. -/
theorem claimed (ready : Dispatchable codec lease now db) (limit : Nat) (token : String) :
    ∃ messages : List (OutboxMessage Payload),
      scanClaimed codec token (db.claimPendingOutbox limit lease now token).1
          ((db.claimPendingOutbox limit lease now token).1.map OutboxRow.id) = some messages ∧
      messages.map OutboxMessage.id = db.pendingIds.take limit ∧
      (∀ message ∈ messages, ∃ row ∈ db.outbox.rows, message.id = row.id ∧
        message.event.id = row.eventId) ∧
      ∀ message ∈ messages, (db.claimPendingOutbox limit lease now token).2.Reserved message.id
        message.dispatchToken := by
  have claimedIds : (db.claimPendingOutbox limit lease now token).1.map OutboxRow.id =
      db.pendingIds.take limit := by
    rw [← ready.ids_outboxCandidates]
    simp only [Database.claimPendingOutbox, List.map_map]
    rfl
  obtain ⟨messages, scanned⟩ := Option.ne_none_iff_exists'.mp
    (scanClaimed_ne_none token ((db.claimPendingOutbox limit lease now token).1.map OutboxRow.id)
      (ready.decodes_claimed token))
  refine ⟨messages, scanned, ?_, ?_, ?_⟩
  · rw [ids_scanClaimed scanned fun _ listed => listed, claimedIds]
  · intro message member
    obtain ⟨_, row, candidate, sameId, sameEvent, _⟩ := mem_claimed scanned member
    exact ⟨row, (db.mem_outboxCandidates candidate).1, sameId, sameEvent⟩
  · intro message member
    obtain ⟨sameToken, row, candidate, sameId, _⟩ := mem_claimed scanned member
    rw [sameToken, sameId]
    exact reserved_of_candidate candidate token

theorem nodup_of_ids {messages : List (OutboxMessage Payload)}
    (ids : messages.map OutboxMessage.id = db.pendingIds.take limit) :
    (messages.map OutboxMessage.id).Nodup := by
  rw [ids]
  exact db.pendingIds_nodup.sublist (List.take_sublist _ _)

/-- `DispatchPending` claims the head of the queue and publishes it up to the first rejected
message. -/
theorem dispatchPending_dispatched {call : DispatchCall Payload}
    (ready : Dispatchable codec lease call.now db) (limit : Nat) :
    ∃ messages : List (OutboxMessage Payload),
      messages.map OutboxMessage.id = db.pendingIds.take limit ∧
      (∀ message ∈ messages, ∃ row ∈ db.outbox.rows, message.id = row.id ∧
        message.event.id = row.eventId) ∧
      (dispatchPending codec limit lease call db).1 = .ok () ∧
      Dispatched call.now ((call.confirmed messages).map OutboxMessage.id) db
        (dispatchPending codec limit lease call db).2 := by
  obtain ⟨messages, scanned, ids, origin, reserved⟩ := ready.claimed limit call.token
  obtain ⟨succeeds, served⟩ :=
    publishLoop_dispatched call.now call reserved (nodup_of_ids ids)
  refine ⟨messages, ids, origin, ?_⟩
  simp only [dispatchPending, scanned]
  exact ⟨succeeds, (Dispatched.claimPendingOutbox db limit lease call.token).trans served⟩

/-- A call that starts after the lease finds the table ready again. -/
theorem later {published : List Nat} {next : Time} {db' : Database}
    (ready : Dispatchable codec lease now db) (dispatched : Dispatched now published db db')
    (positive : 0 < lease) (spaced : now + lease < next) : Dispatchable codec lease next db' := by
  have origin : ∀ row ∈ db'.unpublished, row.publishedAt = none ∧
      ∃ old ∈ db.unpublished, DispatchedRow now published old row := by
    intro row member
    obtain ⟨stored, unpublished⟩ := db'.mem_unpublished.mp member
    refine ⟨unpublished, ?_⟩
    have change := dispatched.rows row.eventId
    rw [db'.outboxFor?_of_mem stored] at change
    generalize before : db.outboxFor? row.eventId = old at change
    cases change with
    | some changed =>
        have wasUnpublished := (changed.published_iff.mp unpublished).1
        have wasStored := (db.outboxFor?_eq_some_iff.mp before).1
        exact ⟨_, db.mem_unpublished.mpr ⟨wasStored, wasUnpublished⟩, changed⟩
  refine ⟨fun id => by rw [dispatched.locks]; exact ready.free id, ?_, ?_⟩
  · intro row member
    obtain ⟨unpublished, old, oldMember, changed⟩ := origin row member
    refine ⟨unpublished, ?_⟩
    rcases changed.reserved with cleared | kept | taken
    · exact Or.inl cleared
    · rw [kept]
      refine (ready.expired old oldMember).2.imp_right fun expired => ?_
      exact atOrBefore_mono (by unfold Time at *; omega) expired
    · rw [taken, atOrBefore_some]
      exact Or.inr (by unfold Time at *; omega)
  · intro row member
    obtain ⟨_, old, oldMember, changed⟩ := origin row member
    rw [changed.payload]
    exact ready.decodes old oldMember

end Dispatchable

/-! ### The call as a run of the service -/

section Run

variable [DecidableEq Payload] {config : Config} {s : System Payload} {d : Nat}
  {call : DispatchCall Payload}

/-- A rejected message is released and the dispatcher is idle. -/
private theorem run_rejected (config : Config) {claimedAt : Time} {message : OutboxMessage Payload}
    {rest : List (OutboxMessage Payload)}
    (phase : s.dispatchers d = .publishing claimedAt message rest)
    (free : ∀ id, s.db.locks (.outbox id) = none) (error : String) :
    ∃ s', run (step codec config) s
        [.publishFailed d claimedAt message rest error,
          .markOutboxFailed d claimedAt message error .ok] = some s' ∧
      s'.db = s.db.markOutboxFailed message.id message.dispatchToken error ∧
      s'.dispatchers d = .idle := by
  have refused : step codec config s (.publishFailed d claimedAt message rest error) =
      some (s.setDispatcher d (.rejected claimedAt message error)) := if_pos phase
  rw [run_cons refused]
  refine ⟨_, run_cons (if_pos ⟨Function.update_self _ _ _, ?_⟩) [], rfl,
    Function.update_self _ _ _⟩
  exact fun _ row _ _ => free row.eventId

/-- A confirmed message is marked, and the dispatcher goes on unless it lost the reservation. -/
private theorem run_confirmed (config : Config) {claimedAt markedAt : Time}
    {message : OutboxMessage Payload} {rest : List (OutboxMessage Payload)} {body : EventJson}
    (phase : s.dispatchers d = .publishing claimedAt message rest)
    (marshalled : codec.marshalEvent message.event = some body) (sampled : markedAt ≤ s.clock)
    (free : ∀ id, s.db.locks (.outbox id) = none) :
    ∃ s', run (step codec config) s
        [.publishConfirmed d claimedAt message rest body,
          .markOutboxPublished d claimedAt message (s.history.openings message.event.id) rest
            markedAt .ok] = some s' ∧
      s'.clock = s.clock ∧
      s'.db = s.db.markOutboxPublished message.id message.dispatchToken markedAt ∧
      s'.dispatchers d =
        if s.db.Reserved message.id message.dispatchToken then Dispatcher.loop claimedAt rest
        else .idle := by
  have confirmed : ∃ middle, step codec config s
      (.publishConfirmed d claimedAt message rest body) = some middle ∧
        middle.clock = s.clock ∧ middle.db = s.db ∧ middle.dispatchers d =
          .published claimedAt message (s.history.openings message.event.id) rest :=
    ⟨_, if_pos ⟨phase, marshalled⟩, rfl, rfl, Function.update_self _ _ _⟩
  obtain ⟨middle, published, sameClock, sameDb, waiting⟩ := confirmed
  have marked : ∃ s', step codec config middle
      (.markOutboxPublished d claimedAt message (s.history.openings message.event.id) rest
        markedAt .ok) = some s' ∧ s'.clock = middle.clock ∧
        s'.db = middle.db.markOutboxPublished message.id message.dispatchToken markedAt ∧
        s'.dispatchers d =
          if middle.db.Reserved message.id message.dispatchToken then
            Dispatcher.loop claimedAt rest
          else .idle := by
    have unlocked : middle.db.MarkFree message.id message.dispatchToken := by
      intro row _ _
      rw [sameDb]
      exact free row.eventId
    exact ⟨_, if_pos ⟨waiting, sameClock ▸ sampled, fun _ => unlocked⟩, rfl, rfl,
      by simp [System.setDispatcher]⟩
  obtain ⟨s', taken, laterClock, laterDb, goesOn⟩ := marked
  rw [sameDb] at laterDb goesOn
  exact ⟨s', (run_cons published _).trans (run_cons taken []), laterClock.trans sameClock, laterDb,
    goesOn⟩

theorem publishLoop_run {messages : List (OutboxMessage Payload)} {claimedAt : Time}
    (phase : s.dispatchers d = Dispatcher.loop claimedAt messages)
    (marks : ∀ n, call.markedAt n ≤ s.clock) (free : ∀ id, s.db.locks (.outbox id) = none)
    (marshals : ∀ event, call.publish event = none → codec.marshalEvent event ≠ none) :
    ∃ actions s', run (step codec config) s actions = some s' ∧
      (∀ action ∈ actions, action.dispatcher? = some d) ∧
      s'.db = (publishLoop call messages s.db).2 ∧ s'.dispatchers d = .idle := by
  induction messages generalizing s with
  | nil =>
      refine ⟨[], s, rfl, ?_, rfl, phase⟩
      intro action member
      cases member
  | cons message rest inductionHypothesis =>
      cases answer : call.publish message.event with
      | some error =>
          obtain ⟨s', ran, released, idle⟩ := run_rejected config phase free error
          refine ⟨_, s', ran, ?_, ?_, idle⟩
          · simp [Action.dispatcher?]
          · rw [released]
            simp only [publishLoop, answer]
      | none =>
          obtain ⟨body, marshalled⟩ := Option.ne_none_iff_exists'.mp (marshals _ answer)
          obtain ⟨middle, ran, sameClock, marked, goesOn⟩ :=
            run_confirmed config phase marshalled (marks message.id) free
          by_cases reserved : s.db.Reserved message.id message.dispatchToken
          · rw [if_pos reserved] at goesOn
            obtain ⟨actions, s', ranOn, own, dispatched, idle⟩ :=
              inductionHypothesis goesOn (fun n => by rw [sameClock]; exact marks n)
                (fun id => by rw [marked]; exact free id)
            refine ⟨_, s', run_trans ran ranOn, ?_, ?_, idle⟩
            · simp only [List.cons_append, List.nil_append, List.mem_cons]
              rintro action (rfl | rfl | later)
              · rfl
              · rfl
              · exact own action later
            · rw [dispatched, marked]
              simp only [publishLoop, answer, if_pos reserved]
          · rw [if_neg reserved] at goesOn
            refine ⟨_, middle, ran, by simp [Action.dispatcher?], ?_, goesOn⟩
            rw [marked]
            simp only [publishLoop, answer, if_neg reserved]

/-- Alone with the database, a dispatcher of the service does what `dispatchPending` computes. -/
theorem dispatchPending_run (idle : s.dispatchers d = .idle) (sampled : call.now ≤ s.clock)
    (marks : ∀ n, call.markedAt n ≤ s.clock) (free : ∀ id, s.db.locks (.outbox id) = none)
    (marshals : ∀ event, call.publish event = none → codec.marshalEvent event ≠ none)
    (limit : Nat) :
    ∃ actions s', run (step codec config) s actions = some s' ∧
      (∀ action ∈ actions, action.dispatcher? = some d) ∧
      s'.db = (dispatchPending codec limit config.outboxDispatchLease call s.db).2 ∧
      s'.dispatchers d = .idle := by
  generalize claim : s.db.claimPendingOutbox limit config.outboxDispatchLease call.now call.token =
    claimed
  have reserves : ∃ middle, step codec config s
      (.claimPendingOutbox d limit call.now call.token (claimed.1.map OutboxRow.id) .ok) =
        some middle ∧ middle.clock = s.clock ∧ middle.db = claimed.2 ∧
        middle.dispatchers d = Dispatcher.loop call.now ((scanClaimed codec call.token claimed.1
          (claimed.1.map OutboxRow.id)).getD []) := by
    subst claim
    exact ⟨_, if_pos ⟨idle, sampled, Outcome.effective_ok, List.Perm.refl _⟩, rfl, rfl,
      Function.update_self _ _ _⟩
  obtain ⟨middle, taken, sameClock, reserved, phase⟩ := reserves
  have stillFree : ∀ id, middle.db.locks (.outbox id) = none := by
    intro id
    rw [reserved, ← claim]
    exact free id
  obtain ⟨actions, s', ran, own, dispatched, idleAgain⟩ := publishLoop_run phase
    (fun n => by rw [sameClock]; exact marks n) stillFree marshals
  refine ⟨_ :: actions, s', (run_cons taken actions).trans ran, ?_, ?_, idleAgain⟩
  · intro action member
    rcases List.mem_cons.mp member with rfl | later
    · rfl
    · exact own action later
  · rw [dispatched, reserved, dispatchPending, claim]
    cases scanClaimed codec call.token claimed.1 (claimed.1.map OutboxRow.id) with
    | none => rfl
    | some messages => rfl

end Run

/-! ### The queue over many calls -/

private theorem takeWhile_eq_of_mem {α : Type} {p q : α → Bool} {items : List α}
    (agree : ∀ item ∈ items, p item = q item) : items.takeWhile p = items.takeWhile q := by
  induction items with
  | nil => rfl
  | cons item rest inductionHypothesis =>
      have tail := inductionHypothesis fun other member =>
        agree other (List.mem_cons_of_mem _ member)
      simp only [List.takeWhile_cons, agree item List.mem_cons_self, tail]

section Rejected

variable {db : Database} {rejected : EventId} {n : Nat}

/-- The outbox row of the event that `Publish` rejects has the id `n`. -/
def RowOf (db : Database) (rejected : EventId) (n : Nat) : Prop :=
  ∃ row, db.outboxFor? rejected = some row ∧ row.id = n

theorem RowOf.later {published : List Nat} {db' : Database} (isRow : RowOf db rejected n)
    (dispatched : Dispatched now published db db') : RowOf db' rejected n := by
  obtain ⟨row, found, same⟩ := isRow
  have change := dispatched.rows rejected
  rw [found] at change
  generalize after : db'.outboxFor? rejected = new at change
  cases change with
  | some changed => exact ⟨_, after, changed.id.trans same⟩

/-- One call is one cycle of the head-of-line queue that stops at the rejected row. -/
theorem pendingIds_dispatchPending {call : DispatchCall Payload}
    (ready : Dispatchable codec lease call.now db) (isRow : RowOf db rejected n)
    (rejects : ∀ event, call.publish event ≠ none ↔ event.id = rejected) (limit : Nat) :
    ∃ published,
      Dispatched call.now published db (dispatchPending codec limit lease call db).2 ∧
      (dispatchPending codec limit lease call db).2.pendingIds =
        remaining (fun m => decide (m ≠ n)) limit db.pendingIds := by
  obtain ⟨messages, ids, origin, _, dispatched⟩ := ready.dispatchPending_dispatched limit
  refine ⟨_, dispatched, ?_⟩
  obtain ⟨own, found, sameId⟩ := isRow
  obtain ⟨ownStored, ownEvent⟩ := db.outboxFor?_eq_some_iff.mp found
  -- a message is rejected exactly when it is that of row `n`
  have answers : ∀ message ∈ messages,
      (call.publish message.event).isNone = decide (message.id ≠ n) := by
    intro message member
    obtain ⟨row, stored, messageId, messageEvent⟩ := origin message member
    have sameRow : row.eventId = rejected ↔ row.id = n := by
      constructor
      · intro same
        have again := db.outboxFor?_of_mem stored
        rw [same, found] at again
        rw [← Option.some.inj again, sameId]
      · intro same
        rw [db.outbox_eq_of_id stored ownStored (same.trans sameId.symm), ownEvent]
    have answer := rejects message.event
    rw [messageEvent, sameRow, ← messageId] at answer
    rw [Bool.eq_iff_iff, Option.isNone_iff_eq_none, decide_eq_true_iff, ← not_iff_not, not_not]
    exact answer
  have confirmedIds : (call.confirmed messages).map OutboxMessage.id =
      served (fun m => decide (m ≠ n)) limit db.pendingIds := by
    rw [served, ← ids, List.takeWhile_map, DispatchCall.confirmed, takeWhile_eq_of_mem answers]
    rfl
  have remains : (remaining (fun m => decide (m ≠ n)) limit db.pendingIds).Pairwise (· < ·) :=
    db.pendingIds_ordered.sublist (List.drop_sublist _ _)
  refine (Database.pendingIds_ordered _).eq_of_mem_iff remains fun m => ?_
  rw [dispatched.mem_pendingIds, confirmedIds, mem_remaining_iff _ _ _ db.pendingIds_nodup]

theorem pendingIds_dispatchCycles {calls : List (DispatchCall Payload)} (positive : 0 < lease)
    (ready : ∀ call ∈ calls.head?, Dispatchable codec lease call.now db)
    (spaced : calls.IsChain fun earlier later => earlier.now + lease < later.now)
    (isRow : RowOf db rejected n)
    (rejects : ∀ call ∈ calls, ∀ event, call.publish event ≠ none ↔ event.id = rejected)
    (limit : Nat) :
    (dispatchCycles codec limit lease calls db).pendingIds =
      (remaining (fun m => decide (m ≠ n)) limit)^[calls.length] db.pendingIds := by
  induction calls generalizing db with
  | nil => rfl
  | cons call rest inductionHypothesis =>
      have readyNow := ready call rfl
      obtain ⟨published, dispatched, cycle⟩ := pendingIds_dispatchPending readyNow isRow
        (rejects call List.mem_cons_self) limit
      have readyNext : ∀ next ∈ rest.head?, Dispatchable codec lease next.now
          (dispatchPending codec limit lease call db).2 := by
        intro next first
        cases rest with
        | nil => cases first
        | cons following others =>
            cases first
            exact readyNow.later dispatched positive (List.isChain_cons_cons.mp spaced).1
      have served := inductionHypothesis readyNext spaced.of_cons (isRow.later dispatched)
        fun other member => rejects other (List.mem_cons_of_mem _ member)
      rw [List.length_cons, Function.iterate_succ_apply, ← cycle, ← served]
      rfl

end Rejected

/-- A row `rejected` of the outbox is rejected by every `Publish` and all others are confirmed.
After as many calls as there are unpublished rows, every other row is published exactly when no
unpublished row has a greater id than the rejected one. -/
theorem outbox_drained_iff_rejected_last (calls : List (DispatchCall Payload)) (db : Database)
    (rejected : OutboxRow) (positive : 0 < lease) (batch : 2 ≤ limit)
    (pending : rejected ∈ db.unpublished)
    (ready : ∀ call ∈ calls.head?, Dispatchable codec lease call.now db)
    (spaced : calls.IsChain fun earlier later => earlier.now + lease < later.now)
    (count : calls.length = db.unpublished.length)
    (rejects : ∀ call ∈ calls, ∀ event,
      call.publish event ≠ none ↔ event.id = rejected.eventId) :
    (∀ row ∈ (dispatchCycles codec limit lease calls db).outbox.rows,
      row.id ≠ rejected.id → row.publishedAt ≠ none) ↔
        ∀ row ∈ db.unpublished, row.id ≤ rejected.id := by
  have stored := (db.mem_unpublished.mp pending).1
  have isRow : RowOf db rejected.eventId rejected.id :=
    ⟨rejected, db.outboxFor?_of_mem stored, rfl⟩
  have waits : rejected.id ∈ db.pendingIds := db.mem_pendingIds.mpr ⟨rejected, pending, rfl⟩
  have cycles := pendingIds_dispatchCycles positive ready spaced isRow rejects limit
  have enough : (db.pendingIds.takeWhile fun m => decide (m ≠ rejected.id)).length ≤
      calls.length := by
    rw [count, ← db.length_pendingIds]
    exact (List.takeWhile_sublist _).length_le
  rw [remaining_iterate _ _ (by omega) enough] at cycles
  -- what is left is the rejected row and everything behind it
  have left : ∀ m, m ∈ (dispatchCycles codec limit lease calls db).pendingIds ↔
      m ∈ db.pendingIds ∧ rejected.id ≤ m := by
    intro m
    rw [cycles]
    exact mem_dropWhile_ne_iff db.pendingIds_ordered waits
  constructor
  · intro published row member
    by_contra above
    have behind : row.id ∈ (dispatchCycles codec limit lease calls db).pendingIds :=
      (left row.id).mpr ⟨db.mem_pendingIds.mpr ⟨row, member, rfl⟩, by omega⟩
    obtain ⟨later, laterMember, same⟩ := (Database.mem_pendingIds _).mp behind
    obtain ⟨laterStored, unpublished⟩ := (Database.mem_unpublished _).mp laterMember
    exact published later laterStored (by omega) unpublished
  · intro last row member other unpublished
    have waiting : row.id ∈ (dispatchCycles codec limit lease calls db).pendingIds :=
      (Database.mem_pendingIds _).mpr
        ⟨row, (Database.mem_unpublished _).mpr ⟨member, unpublished⟩, rfl⟩
    obtain ⟨earlier, notBelow⟩ := (left row.id).mp waiting
    obtain ⟨old, oldMember, same⟩ := db.mem_pendingIds.mp earlier
    have notAbove := last old oldMember
    omega

/-! ### Two pending rows -/

def pendingRow (n : Nat) (id : EventId) : OutboxRow :=
  newOutboxRow n id Sample.event.type Sample.event.requestId Sample.event.payload 0

/-- Two accepted events whose messages are not published yet. -/
def twoPending : Database :=
  { Database.empty with
    outbox := (Relational.Table.empty.insert (pendingRow 1 "evt-1")).insert (pendingRow 2 "evt-2") }

/-- Two calls, more than a lease of thirty seconds apart, during which the broker refuses one
event. -/
def refusedTwice (id : EventId) : List (DispatchCall String) :=
  [(0, "token-1"), (31, "token-2")].map fun (now, token) =>
    { now := now
      token := token
      publish := fun event => if event.id = id then some "message size is over the limit" else none
      markedAt := fun _ => now }

theorem refusedTwice_spaced (id : EventId) :
    (refusedTwice id).IsChain fun earlier later => earlier.now + 30 < later.now :=
  List.isChain_cons_cons.mpr ⟨show (0 : Int) + 30 < 31 by decide, .singleton _⟩

theorem refusedTwice_rejects (id : EventId) (call : DispatchCall String)
    (member : call ∈ refusedTwice id) (event : Event String) :
    call.publish event ≠ none ↔ event.id = id := by
  obtain ⟨_, _, rfl⟩ := List.mem_map.mp member
  simp

theorem twoPending_ready (id : EventId) (call : DispatchCall String)
    (first : call ∈ (refusedTwice id).head?) : Dispatchable Codec.text 30 call.now twoPending := by
  cases first
  exact
    { free := fun _ => rfl
      expired := show ∀ row ∈ twoPending.unpublished, row.Claimable 0 30 by decide
      decodes := by decide }

theorem outbox_drained_of_twoPending :
    (∀ row ∈ twoPending.unpublished, row.id ≤ 2) ∧
      ∀ row ∈ (dispatchCycles Codec.text 2 30 (refusedTwice "evt-2") twoPending).outbox.rows,
        row.id ≠ 2 → row.publishedAt ≠ none := by
  have last : ∀ row ∈ twoPending.unpublished, row.id ≤ 2 := by decide
  refine ⟨last, ?_⟩
  exact (outbox_drained_iff_rejected_last (refusedTwice "evt-2") twoPending
    (pendingRow 2 "evt-2") (by decide) (by decide) (by decide) (twoPending_ready _)
    (refusedTwice_spaced _) (by decide) (refusedTwice_rejects _)).mpr last

/-- The first of two pending rows is refused, and the second is not published after two calls. -/
theorem refused_message_blocks_outbox :
    ¬ ∀ (calls : List (DispatchCall String)) (db : Database) (rejected : OutboxRow),
      rejected ∈ db.unpublished →
      (∀ call ∈ calls.head?, Dispatchable Codec.text 30 call.now db) →
      (calls.IsChain fun earlier later => earlier.now + 30 < later.now) →
      calls.length = db.unpublished.length →
      (∀ call ∈ calls, ∀ event, call.publish event ≠ none ↔ event.id = rejected.eventId) →
      ∀ row ∈ (dispatchCycles Codec.text 2 30 calls db).outbox.rows,
        row.id ≠ rejected.id → row.publishedAt ≠ none := by
  intro drained
  have waits : ∃ row ∈ (dispatchCycles Codec.text 2 30 (refusedTwice "evt-1")
      twoPending).outbox.rows, row.id ≠ 1 ∧ row.publishedAt = none := by
    decide +kernel
  obtain ⟨row, member, other, unpublished⟩ := waits
  exact drained (refusedTwice "evt-1") twoPending (pendingRow 1 "evt-1") (by decide)
    (twoPending_ready _) (refusedTwice_spaced _) (by decide) (refusedTwice_rejects _) row member
    other unpublished

end WebhookProcessor
