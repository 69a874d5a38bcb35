/-
Module: WebhookProcessor.Proofs.Intake
Layer: Proofs
Purpose: `POST /events` as a map in which the first writer wins.  Over any sequence of requests,
  whatever bodies and headers they have and wherever their transactions fail, the stored event of an
  id is the one of the first request whose transaction took effect, it has exactly one outbox row
  with the same content, and the response tells which case it was.  A client may therefore repeat a
  request until it is answered with 202 or 409.
Trusted boundary: as in `Model.Intake`
Main exports: Submission.offer?, Posting, post_posting, first_stored_request_wins
-/
import WebhookProcessor.Model.Calls
import WebhookProcessor.Model.Intake
import WebhookProcessor.Proofs.StoreViews

namespace WebhookProcessor

variable {Payload : Type}

/-! ### What a request offers -/

namespace Submission

variable (submission : Submission) (codec : Codec Payload)

/-- The request id that the middleware settles on. -/
def requestId : String :=
  if submission.header = "" then newRequestID submission.random else submission.header

/-- The event of a request that passes the checks of the handler. -/
def event? : Option (Event Payload) :=
  (submission.body.bind codec.unmarshalEvent).bind fun decoded =>
    if decoded.id = "" ∨ decoded.type = "" then none
    else some { decoded with requestId := submission.requestId }

/-- The transaction gets as far as the row count of its first INSERT. -/
def ReachesInsert : Prop :=
  submission.answers.beginTx = none ∧ submission.answers.insertEvent = none ∧
    submission.answers.rowsAffected = none

instance : Decidable submission.ReachesInsert :=
  inferInstanceAs (Decidable (_ ∧ _ ∧ _))

/-- No statement after that keeps the transaction from taking effect. -/
def TakesEffect : Prop :=
  submission.answers.insertOutbox = none ∧ submission.answers.commit.Effective

instance : Decidable submission.TakesEffect :=
  inferInstanceAs (Decidable (_ ∧ _))

/-- The row that the request stores under an id that is not taken. -/
def offer? (id : EventId) : Option EventRow :=
  (submission.event? codec).bind fun event =>
    (codec.marshal event.payload).bind fun payload =>
      if submission.ReachesInsert ∧ submission.TakesEffect ∧ event.id = id then
        some (queuedEventRow event payload submission.answers.now)
      else none

end Submission

/-- The outbox row that goes with an event row. -/
def outboxRowOf (number : Nat) (row : EventRow) : OutboxRow :=
  newOutboxRow number row.id row.type row.requestId row.payload row.createdAt

/-! ### Request ids -/

theorem newRequestID_ne_empty (random : Option (Fin 16 → UInt8)) : newRequestID random ≠ "" := by
  cases random with
  | none => decide
  | some bytes =>
      intro empty
      have length := congrArg (fun text => text.toList.length) empty
      simp [newRequestID, hexByte] at length

theorem Submission.requestId_ne_empty (submission : Submission) : submission.requestId ≠ "" := by
  unfold Submission.requestId
  split
  · exact newRequestID_ne_empty _
  · assumption

/-! ### How a request can go -/

/-- The ways through the handler, with the response and the database after it. -/
inductive Posting (codec : Codec Payload) (submission : Submission) (db : Database) :
    CreateResponse → Database → Prop where
  | invalid {message : String} (noEvent : submission.event? codec = none) :
      Posting codec submission db (.rejected 400 message) db
  | unreached {event : Event Payload} (found : submission.event? codec = some event)
      (early : codec.marshal event.payload = none ∨ ¬ submission.ReachesInsert) :
      Posting codec submission db (.rejected 500 "failed to persist event") db
  | duplicate {event : Event Payload} {payload : String}
      (found : submission.event? codec = some event)
      (marshalled : codec.marshal event.payload = some payload)
      (reaches : submission.ReachesInsert) (present : db.event? event.id ≠ none) :
      Posting codec submission db (.rejected 409 "duplicate event id") db
  | aborted {event : Event Payload} {outboxSeq : Nat}
      (found : submission.event? codec = some event) (absent : db.event? event.id = none)
      (fails : ¬ submission.TakesEffect) (given : db.outboxSeq ≤ outboxSeq) :
      Posting codec submission db (.rejected 500 "failed to persist event")
        { db with outboxSeq := outboxSeq }
  | stored {event : Event Payload} {payload : String}
      (found : submission.event? codec = some event)
      (marshalled : codec.marshal event.payload = some payload)
      (reaches : submission.ReachesInsert) (takes : submission.TakesEffect)
      (confirmed : submission.answers.commit = .ok) (absent : db.event? event.id = none) :
      Posting codec submission db (.accepted event.id)
        (db.saved event payload submission.answers.now)
  | lost {event : Event Payload} {payload : String}
      (found : submission.event? codec = some event)
      (marshalled : codec.marshal event.payload = some payload)
      (reaches : submission.ReachesInsert) (takes : submission.TakesEffect)
      (unconfirmed : submission.answers.commit ≠ .ok) (absent : db.event? event.id = none) :
      Posting codec submission db (.rejected 500 "failed to persist event")
        (db.saved event payload submission.answers.now)

/-- The tables after a number of saved events: each has its outbox row. -/
structure Paired (db : Database) : Prop where
  outbox : ∀ id, ∃ number, db.outboxFor? id = (db.event? id).map (outboxRowOf number)
  below : ∀ row ∈ db.outbox.rows, row.id < db.outboxSeq

theorem Paired.absent {db : Database} (paired : Paired db) {id : EventId}
    (absent : db.event? id = none) : db.outboxFor? id = none := by
  obtain ⟨number, row⟩ := paired.outbox id
  rw [row, absent]
  rfl

/-- How the handler answers the result of `SaveQueuedWithOutbox`. -/
def saveResponse (id : EventId) : Option SaveFailure → CreateResponse
  | none => .accepted id
  | some .eventAlreadyExists => .rejected 409 "duplicate event id"
  | some _ => .rejected 500 "failed to persist event"

section Post

variable (codec : Codec Payload) (submission : Submission) {db : Database}

theorem save_posting (paired : Paired db) {event : Event Payload}
    (found : submission.event? codec = some event) :
    Posting codec submission db
      (saveResponse event.id (saveQueuedWithOutbox codec submission.answers event db).1)
      (saveQueuedWithOutbox codec submission.answers event db).2 := by
  unfold saveQueuedWithOutbox
  cases marshalled : codec.marshal event.payload with
  | none => exact .unreached found (.inl marshalled)
  | some payload =>
      by_cases reaches : submission.ReachesInsert
      · obtain ⟨begun, inserted, counted⟩ := reaches
        simp only [begun, inserted, counted]
        by_cases absent : db.event? event.id = none
        · rw [if_neg (not_not.mpr absent)]
          cases late : submission.answers.insertOutbox with
          | some cause =>
              exact .aborted found absent
                (fun takes => Option.some_ne_none _ (late.symm.trans takes.1)) (Nat.le_refl _)
          | none =>
              simp only [paired.absent absent, ne_eq, not_true_eq_false, if_false]
              cases commit : submission.answers.commit with
              | ok =>
                  exact .stored found marshalled ⟨begun, inserted, counted⟩
                    ⟨late, by simp [commit, Outcome.Effective]⟩ commit absent
              | failed =>
                  exact .aborted found absent (fun takes => takes.2 commit) (Nat.le_succ _)
              | lost =>
                  exact .lost found marshalled ⟨begun, inserted, counted⟩
                    ⟨late, by simp [commit, Outcome.Effective]⟩ (by simp [commit]) absent
        · rw [if_pos absent]
          exact .duplicate found marshalled ⟨begun, inserted, counted⟩ absent
      · -- one of the three calls before the count has failed
        have early : Posting codec submission db (.rejected 500 "failed to persist event") db :=
          .unreached found (.inr reaches)
        cases begun : submission.answers.beginTx with
        | some cause => exact early
        | none =>
            cases inserted : submission.answers.insertEvent with
            | some cause => exact early
            | none =>
                cases counted : submission.answers.rowsAffected with
                | some cause => exact early
                | none => exact absurd ⟨begun, inserted, counted⟩ reaches

/-- The handler on the event that the middleware and the checks let through. -/
theorem post_of_event (db : Database) {event : Event Payload}
    (found : submission.event? codec = some event) :
    (post codec submission db).response =
        saveResponse event.id (saveQueuedWithOutbox codec submission.answers event db).1 ∧
      (post codec submission db).db =
        (saveQueuedWithOutbox codec submission.answers event db).2 := by
  obtain ⟨decoded, body, checked⟩ := Option.bind_eq_some_iff.mp found
  split at checked
  · cases checked
  · rename_i valid
    obtain ⟨hasId, hasType⟩ := not_or.mp valid
    cases checked
    simp only [post, requestIDMiddleware, createEventHandler, body, if_neg hasId, if_neg hasType]
    generalize saved : saveQueuedWithOutbox codec submission.answers
      { decoded with requestId := submission.requestId } db = result
    have same : saveQueuedWithOutbox codec submission.answers
        { decoded with
          requestId := if submission.header = "" then newRequestID submission.random
            else submission.header } db = result := saved
    rw [same]
    obtain ⟨failure, after⟩ := result
    cases failure with
    | none => exact ⟨rfl, rfl⟩
    | some failure => cases failure <;> exact ⟨rfl, rfl⟩

theorem post_posting (paired : Paired db) :
    Posting codec submission db (post codec submission db).response
      (post codec submission db).db := by
  cases found : submission.event? codec with
  | some event =>
      obtain ⟨response, after⟩ := post_of_event codec submission db found
      rw [response, after]
      exact save_posting codec submission paired found
  | none =>
      unfold post requestIDMiddleware createEventHandler
      cases body : submission.body.bind codec.unmarshalEvent with
      | none => exact .invalid found
      | some decoded =>
          simp only
          split
          · exact .invalid found
          · split
            · exact .invalid found
            · rename_i hasId hasType
              simp [Submission.event?, body, hasId, hasType] at found

/-! ### One request -/

theorem offer?_of_event {event : Event Payload} {payload : String}
    (found : submission.event? codec = some event)
    (marshalled : codec.marshal event.payload = some payload)
    (reaches : submission.ReachesInsert) (takes : submission.TakesEffect) (id : EventId) :
    submission.offer? codec id =
      if event.id = id then some (queuedEventRow event payload submission.answers.now) else none := by
  simp [Submission.offer?, found, marshalled, reaches, takes]

theorem event?_saved (event : Event Payload) (payload : String) (now : Time) (id : EventId) :
    (db.saved event payload now).event? id =
      (db.event? id).or (if event.id = id then some (queuedEventRow event payload now) else none) :=
  Database.event?_commitSave _ event payload now db.outboxSeq id

/-- A request stores its offer where nothing is stored. -/
theorem Posting.event? {response : CreateResponse} {after : Database}
    (posting : Posting codec submission db response after) (id : EventId) :
    after.event? id = (db.event? id).or (submission.offer? codec id) := by
  cases posting with
  | invalid noEvent => simp [Submission.offer?, noEvent]
  | unreached found early =>
      rcases early with unmarshalled | unreached
      · simp [Submission.offer?, found, unmarshalled]
      · simp [Submission.offer?, found, unreached]
  | @duplicate event payload found marshalled reaches present =>
      by_cases takes : submission.TakesEffect
      · rw [offer?_of_event codec submission found marshalled reaches takes]
        by_cases same : event.id = id
        · obtain ⟨row, stored⟩ := Option.ne_none_iff_exists'.mp present
          rw [← same, stored]
          rfl
        · simp [same]
      · simp [Submission.offer?, takes]
  | aborted found absent fails =>
      simp [Submission.offer?, fails, Database.event?]
  | stored found marshalled reaches takes | lost found marshalled reaches takes =>
      rw [offer?_of_event codec submission found marshalled reaches takes]
      exact event?_saved _ _ _ id

theorem Paired.saved (paired : Paired db) {event : Event Payload} (payload : String) (now : Time)
    (absent : db.event? event.id = none) : Paired (db.saved event payload now) := by
  have fresh : ∀ old ∈ db.outbox.rows, old.id ≠ db.outboxSeq := by
    intro old member
    exact Nat.ne_of_lt (paired.below old member)
  constructor
  · intro id
    have outbox : (db.saved event payload now).outboxFor? id =
        (db.outboxFor? id).or (if event.id = id then
          some (newOutboxRow db.outboxSeq event.id event.type event.requestId payload now)
        else none) :=
      Database.outboxFor?_commitSave _ event payload now db.outboxSeq fresh id
    rw [outbox, event?_saved]
    by_cases same : event.id = id
    · subst same
      rw [paired.absent absent, absent]
      exact ⟨db.outboxSeq, by simp [outboxRowOf, queuedEventRow]⟩
    · obtain ⟨number, row⟩ := paired.outbox id
      exact ⟨number, by simp [row, same]⟩
  · intro row member
    have added : row ∈ (db.outbox.insert (newOutboxRow db.outboxSeq event.id event.type
        event.requestId payload now)).rows := member
    show row.id < db.outboxSeq + 1
    unfold Relational.Table.insert at added
    split at added
    · rcases List.mem_append.mp added with old | new
      · exact Nat.lt_succ_of_lt (paired.below row old)
      · rw [List.mem_singleton.mp new]
        exact Nat.lt_succ_self _
    · exact Nat.lt_succ_of_lt (paired.below row added)

theorem Posting.paired {response : CreateResponse} {after : Database}
    (posting : Posting codec submission db response after) (paired : Paired db) : Paired after := by
  cases posting with
  | invalid | unreached | duplicate => exact paired
  | aborted _ _ _ given =>
      exact ⟨paired.outbox, fun row member => Nat.lt_of_lt_of_le (paired.below row member) given⟩
  | stored _ _ _ _ _ absent | lost _ _ _ _ _ absent => exact paired.saved _ _ absent

/-- A request is accepted if its rows are stored and it learns of the commit. -/
theorem Posting.accepted_iff {response : CreateResponse} {after : Database}
    (posting : Posting codec submission db response after) {event : Event Payload}
    (found : submission.event? codec = some event) :
    response = .accepted event.id ↔
      submission.offer? codec event.id ≠ none ∧ submission.answers.commit = .ok ∧
        db.event? event.id = none := by
  cases posting with
  | invalid noEvent => cases noEvent.symm.trans found
  | unreached same early =>
      cases same.symm.trans found
      rcases early with unmarshalled | unreached
      · simp [Submission.offer?, found, unmarshalled]
      · simp [Submission.offer?, unreached]
  | duplicate same _ _ present =>
      cases same.symm.trans found
      simp [present]
  | aborted _ _ fails => simp [Submission.offer?, fails]
  | stored same marshalled reaches takes confirmed absent =>
      cases same.symm.trans found
      simp [offer?_of_event codec submission found marshalled reaches takes, confirmed, absent]
  | lost same _ _ _ unconfirmed => simp [unconfirmed]

/-- A request is a duplicate if its first INSERT finds the id taken. -/
theorem Posting.duplicate_iff {response : CreateResponse} {after : Database}
    (posting : Posting codec submission db response after) {event : Event Payload}
    (found : submission.event? codec = some event) :
    response = .rejected 409 "duplicate event id" ↔
      codec.marshal event.payload ≠ none ∧ submission.ReachesInsert ∧
        db.event? event.id ≠ none := by
  cases posting with
  | invalid noEvent => cases noEvent.symm.trans found
  | unreached same early =>
      cases same.symm.trans found
      rcases early with unmarshalled | unreached
      · simp [unmarshalled]
      · simp [unreached]
  | duplicate same marshalled reaches present =>
      cases same.symm.trans found
      simp [marshalled, reaches, present]
  | aborted same absent | stored same _ _ _ _ absent | lost same _ _ _ _ absent =>
      cases same.symm.trans found
      simp [absent]

theorem requestId_of_event {event : Event Payload} (found : submission.event? codec = some event) :
    event.requestId = submission.requestId := by
  obtain ⟨decoded, _, checked⟩ := Option.bind_eq_some_iff.mp found
  split at checked
  · cases checked
  · cases checked
    rfl

end Post

/-! ### Any sequence of requests -/

/-- What the first request with an effect stores under an id. -/
def firstOffer? (codec : Codec Payload) (submissions : List Submission) (id : EventId) :
    Option EventRow :=
  submissions.findSome? fun submission => submission.offer? codec id

theorem serve_from (codec : Codec Payload) (submissions : List Submission) {db : Database}
    (paired : Paired db) :
    Paired (serve codec submissions db) ∧ ∀ id, (serve codec submissions db).event? id =
      (db.event? id).or (firstOffer? codec submissions id) := by
  induction submissions generalizing db with
  | nil => exact ⟨paired, fun id => (Option.or_none).symm⟩
  | cons submission submissions inductionHypothesis =>
      have posting := post_posting codec submission paired
      obtain ⟨still, views⟩ := inductionHypothesis (posting.paired codec submission paired)
      refine ⟨still, ?_⟩
      intro id
      have first : firstOffer? codec (submission :: submissions) id =
          (submission.offer? codec id).or (firstOffer? codec submissions id) := by
        rw [firstOffer?, List.findSome?_cons]
        cases submission.offer? codec id <;> rfl
      rw [first, ← Option.or_assoc, ← posting.event? codec submission]
      exact views id

theorem paired_empty : Paired Database.empty :=
  { outbox := fun _ => ⟨0, rfl⟩
    below := List.forall_mem_nil _ }

/-- After any sequence of requests, the event stored under an id is the one of the first request
with an effect, and it has one outbox row with the same content.  The next valid request is accepted
if it is the first with an effect and its commit is confirmed, and a duplicate if it gets as far as
its INSERT and is not the first.  It is answered with the request id that it stores, which is never
empty. -/
theorem first_stored_request_wins (codec : Codec Payload) (earlier : List Submission) :
    (∀ id, (serve codec earlier Database.empty).event? id = firstOffer? codec earlier id ∧
      ∃ number, (serve codec earlier Database.empty).outboxFor? id =
        (firstOffer? codec earlier id).map (outboxRowOf number)) ∧
      ∀ submission event, submission.event? codec = some event →
        let posted := post codec submission (serve codec earlier Database.empty)
        (posted.response = .accepted event.id ↔
          submission.offer? codec event.id ≠ none ∧ submission.answers.commit = .ok ∧
            firstOffer? codec earlier event.id = none) ∧
        (posted.response = .rejected 409 "duplicate event id" ↔
          codec.marshal event.payload ≠ none ∧ submission.ReachesInsert ∧
            firstOffer? codec earlier event.id ≠ none) ∧
        posted.requestId = event.requestId ∧ event.requestId ≠ "" := by
  obtain ⟨paired, views⟩ := serve_from codec earlier paired_empty
  have stored : ∀ id, (serve codec earlier Database.empty).event? id =
      firstOffer? codec earlier id := by
    intro id
    rw [views id, Database.event?_empty, Option.none_or]
  constructor
  · intro id
    obtain ⟨number, row⟩ := paired.outbox id
    rw [stored id] at row
    exact ⟨stored id, number, row⟩
  · intro submission event found
    have posting := post_posting codec submission paired
    have named := requestId_of_event codec submission found
    rw [← stored event.id]
    refine ⟨posting.accepted_iff codec submission found,
      posting.duplicate_iff codec submission found, named.symm, ?_⟩
    rw [named]
    exact submission.requestId_ne_empty

namespace Sample

/-- The sample event without a request id, and a store that answers as given. -/
def submission (commit : Outcome) : Submission :=
  { header := ""
    random := some fun _ => 255
    body := some body
    answers :=
      { now := 0
        beginTx := none
        insertEvent := none
        rowsAffected := none
        insertOutbox := none
        commit := commit } }

end Sample

/-- The commit of the first request fails, the answer to the second is lost, and the client repeats
its request a third time. -/
theorem first_stored_request_wins_of_retries :
    let earlier := [Sample.submission .failed, Sample.submission .lost]
    (serve Codec.text earlier Database.empty).event? "evt-1" =
        (Sample.submission .lost).offer? Codec.text "evt-1" ∧
      (post Codec.text (Sample.submission .ok) (serve Codec.text earlier Database.empty)).response =
        .rejected 409 "duplicate event id" := by
  have wins := first_stored_request_wins Codec.text
    [Sample.submission .failed, Sample.submission .lost]
  refine ⟨(wins.1 "evt-1").1, ?_⟩
  exact ((wins.2 (Sample.submission .ok)
    { Sample.event with requestId := (Sample.submission .ok).requestId } rfl).2.1).mpr
      ⟨by decide, by decide, by decide⟩

end WebhookProcessor
