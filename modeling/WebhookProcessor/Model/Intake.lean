/-
Module: WebhookProcessor.Model.Intake
Layer: Model
Purpose: `POST /events` from the middleware to the response: `requestIDMiddleware`,
  `createEventHandler` with every error path, and `SaveQueuedWithOutbox` as one request executes it
  when no other session writes at the same time.  Each statement of the transaction may fail, and a
  commit may take effect although its answer is lost.
Trusted boundary: as in `Model.EventStore`; `json.Decoder` on the envelope, `http.Header.Get`.
Main exports: newRequestID, requestIDMiddleware, saveQueuedWithOutbox, createEventHandler,
  Submission, post, serve
-/
import WebhookProcessor.Model.Actors
import WebhookProcessor.Model.Metrics

namespace WebhookProcessor

variable {Payload : Type}

/-! ### Request ids -/

/-- `hex.EncodeToString` of one byte. -/
def hexByte (byte : UInt8) : List Char :=
  [Nat.digitChar (byte.toNat / 16), Nat.digitChar (byte.toNat % 16)]

/-- `newRequestID`, with the sixteen bytes that `rand.Read` filled in, if it did. -/
def newRequestID : Option (Fin 16 → UInt8) → String
  | none => "request-unknown"
  | some bytes => String.ofList ((List.ofFn bytes).flatMap hexByte)

/-- `requestIDMiddleware`: the response header, and what the next handler makes of the request with
that header. -/
def requestIDMiddleware {Result : Type} (header : String) (random : Option (Fin 16 → UInt8))
    (next : (requestId : String) → Result) : String × Result :=
  let requestId := if header = "" then newRequestID random else header
  (requestId, next requestId)

/-! ### `SaveQueuedWithOutbox` -/

/-- The answers to the calls of one `SaveQueuedWithOutbox`, with the errors of those that fail. -/
structure SaveAnswers where
  now : Time
  beginTx : Option String
  insertEvent : Option String
  rowsAffected : Option String
  insertOutbox : Option String
  commit : Outcome
deriving Repr, DecidableEq

inductive SaveFailure where
  | marshal
  | beginTx (cause : String)
  | insertEvent (cause : String)
  | rowsAffected (cause : String)
  | eventAlreadyExists
  | insertOutbox (cause : String)
  | outboxTaken
  | commit
deriving Repr, DecidableEq

/-- The rows of a committed transaction, the outbox row with the next id of the sequence. -/
def Database.saved (db : Database) (event : Event Payload) (payload : String) (now : Time) :
    Database :=
  { db with outboxSeq := db.outboxSeq + 1 }.commitSave event payload now db.outboxSeq

/-- `SaveQueuedWithOutbox`.  An id that the sequence has given out stays given out when the commit
fails. -/
def saveQueuedWithOutbox (codec : Codec Payload) (answers : SaveAnswers) (event : Event Payload)
    (db : Database) : Option SaveFailure × Database :=
  match codec.marshal event.payload with
  | none => (some .marshal, db)
  | some payload =>
      match answers.beginTx, answers.insertEvent, answers.rowsAffected with
      | some cause, _, _ => (some (.beginTx cause), db)
      | none, some cause, _ => (some (.insertEvent cause), db)
      | none, none, some cause => (some (.rowsAffected cause), db)
      | none, none, none =>
          if db.event? event.id ≠ none then (some .eventAlreadyExists, db)
          else
            match answers.insertOutbox with
            | some cause => (some (.insertOutbox cause), db)
            | none =>
                -- the unique column event_id
                if db.outboxFor? event.id ≠ none then (some .outboxTaken, db)
                else
                  match answers.commit with
                  | .ok => (none, db.saved event payload answers.now)
                  | .failed => (some .commit, { db with outboxSeq := db.outboxSeq + 1 })
                  | .lost => (some .commit, db.saved event payload answers.now)

/-! ### `createEventHandler` -/

/-- `202` with the event id, or a status code with its error text. -/
inductive CreateResponse where
  | accepted (eventId : EventId)
  | rejected (statusCode : Nat) (message : String)
deriving Repr, DecidableEq

/-- `createEventHandler`: the response, the counters it increments and the database after it.  The
body is `none` where it is no JSON text of an envelope. -/
def createEventHandler (codec : Codec Payload) (body : Option EventJson) (requestId : String)
    (answers : SaveAnswers) (db : Database) : CreateResponse × List Counter × Database :=
  match body.bind codec.unmarshalEvent with
  | none => (.rejected 400 "invalid JSON body", [.eventsRejected], db)
  | some decoded =>
      if decoded.id = "" then (.rejected 400 "id is required", [.eventsRejected], db)
      else if decoded.type = "" then (.rejected 400 "type is required", [.eventsRejected], db)
      else
        let event := { decoded with requestId := requestId }
        match saveQueuedWithOutbox codec answers event db with
        | (none, after) => (.accepted event.id, [], after)
        | (some .eventAlreadyExists, after) =>
            (.rejected 409 "duplicate event id", [.eventsRejected, .eventsDuplicated], after)
        | (some _, after) => (.rejected 500 "failed to persist event", [.eventsRejected], after)

/-- What `createEventHandler` counts for a response. -/
def CreateResponse.increments : CreateResponse → List Counter
  | .accepted _ => []
  | .rejected statusCode _ =>
      if statusCode = 409 then [.eventsRejected, .eventsDuplicated] else [.eventsRejected]

/-! ### Requests one after the other -/

/-- A request to `POST /events` with the answers it will meet: the `X-Request-ID` header (empty when
absent), the random bytes, the body and the answers of the store. -/
structure Submission where
  header : String
  random : Option (Fin 16 → UInt8)
  body : Option EventJson
  answers : SaveAnswers

/-- What a request leaves behind. -/
structure Posted where
  requestId : String
  response : CreateResponse
  increments : List Counter
  db : Database

/-- The handler behind its middleware. -/
def post (codec : Codec Payload) (submission : Submission) (db : Database) : Posted :=
  let (requestId, response, increments, after) :=
    requestIDMiddleware submission.header submission.random fun requestId =>
      createEventHandler codec submission.body requestId submission.answers db
  { requestId := requestId
    response := response
    increments := increments
    db := after }

/-- The database after a sequence of requests. -/
def serve (codec : Codec Payload) (submissions : List Submission) (db : Database) : Database :=
  submissions.foldl (fun current submission => (post codec submission current).db) db

end WebhookProcessor
