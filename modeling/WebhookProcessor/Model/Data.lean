/-
Module: WebhookProcessor.Model.Data
Layer: Model
Purpose: The data the service moves around: events, the JSON boundary, the rows of the three
  PostgreSQL tables with every column the store writes, and the configuration values the modelled
  functions read.  Timestamps are integers on one common clock; a nullable column is an `Option`.
Trusted boundary: `encoding/json` on payload values is the parameter `Codec`; what the service
  relies on is `Codec.Lawful`.
Main exports: Event, Codec, Codec.Lawful, EventRow, OutboxRow, DeadLetterRow, OutboxMessage, Config
-/
import Mathlib.Logic.Function.Basic

namespace WebhookProcessor

/-- A point on the common clock, or a span between two of them. -/
abbrev Time := Int

/-- Event ids are arbitrary strings chosen by the client. -/
abbrev EventId := String

/-- `models.go: Event`.  `payload` is the decoded `map[string]any`. -/
structure Event (Payload : Type) where
  id : EventId
  type : String
  requestId : String
  payload : Payload
deriving Repr, DecidableEq

/-- The members of the JSON object that `json.Marshal` writes for an `Event`.  `requestId` carries
`omitempty`, so an empty request id has no member; `payload` is the payload's own JSON text. -/
structure EventJson where
  id : String
  type : String
  requestId : Option String
  payload : String
deriving Repr, DecidableEq

/-- `json.Marshal` and `json.Unmarshal` on payload values. -/
structure Codec (Payload : Type) where
  marshal : Payload → Option String
  unmarshal : String → Option Payload

namespace Codec

variable {Payload : Type} (codec : Codec Payload)

/-- `value` came out of `json.Unmarshal`. -/
def Produced (value : Payload) : Prop :=
  ∃ text, codec.unmarshal text = some value

/-- What the service relies on: a value that `json.Unmarshal` produced marshals, and its text
unmarshals to the same value. -/
structure Lawful : Prop where
  roundTrip : ∀ value, codec.Produced value →
    ∃ text, codec.marshal value = some text ∧ codec.unmarshal text = some value

/-- `json.Marshal(event)`. -/
def marshalEvent (event : Event Payload) : Option EventJson :=
  (codec.marshal event.payload).map fun text =>
    { id := event.id
      type := event.type
      requestId := if event.requestId = "" then none else some event.requestId
      payload := text }

/-- `json.Unmarshal(body, &event)`: an absent member leaves the zero value. -/
def unmarshalEvent (json : EventJson) : Option (Event Payload) :=
  (codec.unmarshal json.payload).map fun value =>
    { id := json.id
      type := json.type
      requestId := json.requestId.getD ""
      payload := value }

/-- The struct members survive `omitempty`; only the payload needs the codec's law. -/
theorem Lawful.event_roundTrip {codec : Codec Payload} (lawful : codec.Lawful)
    {event : Event Payload} (produced : codec.Produced event.payload) :
    ∃ json, codec.marshalEvent event = some json ∧ json.id = event.id ∧
      codec.unmarshalEvent json = some event := by
  obtain ⟨text, marshalled, unmarshalled⟩ := lawful.roundTrip _ produced
  refine ⟨_, by rw [marshalEvent, marshalled]; rfl, rfl, ?_⟩
  simp only [unmarshalEvent, unmarshalled, Option.map_some, Option.some.injEq]
  by_cases empty : event.requestId = ""
  · cases event
    simp_all
  · cases event
    simp_all

end Codec

/-- `EventStatusQueued`, `EventStatusProcessing`, `EventStatusProcessed`, `EventStatusFailed`. -/
inductive EventStatus where
  | queued
  | processing
  | processed
  | failed
deriving Repr, DecidableEq

/-- The text stored in the `status` column. -/
def EventStatus.text : EventStatus → String
  | .queued => "queued"
  | .processing => "processing"
  | .processed => "processed"
  | .failed => "failed"

/-- A row of `events`. -/
structure EventRow where
  id : EventId
  type : String
  requestId : String
  payload : String
  status : EventStatus
  error : String
  attempts : Nat
  createdAt : Time
  updatedAt : Time
  processingStartedAt : Option Time
deriving Repr, DecidableEq

/-- A row of `outbox`. -/
structure OutboxRow where
  id : Nat
  eventId : EventId
  eventType : String
  requestId : String
  payload : String
  attempts : Nat
  lastError : String
  createdAt : Time
  publishedAt : Option Time
  dispatchToken : Option String
  dispatchingAt : Option Time
deriving Repr, DecidableEq

/-- A row of `dead_letters`. -/
structure DeadLetterRow where
  eventId : EventId
  eventType : String
  requestId : String
  payload : String
  error : String
  attempts : Nat
  failedAt : Time
  replayedAt : Option Time
  replayAttempts : Nat
  nextRetryAt : Option Time
  lastRetryError : String
deriving Repr, DecidableEq

/-- The two unique columns of `outbox`: the serial primary key and `event_id`. -/
structure OutboxKey where
  id : Nat
  eventId : EventId
deriving Repr, DecidableEq

def OutboxRow.key (row : OutboxRow) : OutboxKey :=
  { id := row.id
    eventId := row.eventId }

/-- Two outbox rows may share neither the primary key nor the event. -/
def OutboxKey.Clash (first second : OutboxKey) : Prop :=
  first.id = second.id ∨ first.eventId = second.eventId

instance : DecidableRel OutboxKey.Clash := fun first second =>
  inferInstanceAs (Decidable (first.id = second.id ∨ first.eventId = second.eventId))

/-- `event_store.go: OutboxMessage`, a claimed outbox row in a dispatcher's hands. -/
structure OutboxMessage (Payload : Type) where
  id : Nat
  event : Event Payload
  attempts : Nat
  dispatchToken : String
deriving Repr, DecidableEq

/-- `dlq_backoff_store.go: RetryableDeadLetterDetail`. -/
structure RetryableDeadLetterDetail where
  eventId : EventId
  replayAttempt : Nat
deriving Repr, DecidableEq

/-- `EventClaimResult`. -/
inductive EventClaimResult where
  | claimed
  | inProgress
  | final
  | missing
deriving Repr, DecidableEq

/-- The configuration values the modelled functions read.  The leases are the derived durations. -/
structure Config where
  maxRetries : Nat
  processingLease : Time
  outboxBatchSize : Nat
  outboxDispatchLease : Time
  dlqAutoRetryMaxAttempts : Nat
deriving Repr, DecidableEq

/-- SQL `column <= bound`: a NULL column does not satisfy it. -/
def atOrBefore (column : Option Time) (bound : Time) : Prop :=
  match column with
  | some time => time ≤ bound
  | none => False

instance (column : Option Time) (bound : Time) : Decidable (atOrBefore column bound) :=
  match column with
  | some time => inferInstanceAs (Decidable (time ≤ bound))
  | none => inferInstanceAs (Decidable False)

@[simp] theorem atOrBefore_some (time bound : Time) :
    atOrBefore (some time) bound ↔ time ≤ bound := Iff.rfl

theorem atOrBefore_mono {column : Option Time} {bound later : Time} (ordered : bound ≤ later)
    (holds : atOrBefore column bound) : atOrBefore column later := by
  cases column with
  | none => exact holds
  | some time => exact Int.le_trans holds ordered

end WebhookProcessor
