/-
Module: WebhookProcessor.Model.DeadLetterList
Layer: Model
Purpose: The two implementations of `DeadLetterRepository` and the handler that shows what they
  hold: `DeadLetterStore`, a bounded buffer in memory, and `PersistentDeadLetterStore` over
  `SaveDeadLetter` and `ListDeadLetters`.
Trusted boundary: as in `Model.EventStore`; PostgreSQL reads the table in some order and sorts it,
  so rows with the same `failed_at` may come in any order.  Iterating over the rows that were
  selected may break off with an error at any of them.
Main exports: DeadLetter, DeadLetterStore, RowsAnswer, listDeadLetters, Database.addDeadLetter,
  persistentSnapshot, deadLettersHandler
-/
import Mathlib.Data.List.Sort
import WebhookProcessor.Model.EventStore

namespace WebhookProcessor

variable {Payload : Type}

structure DeadLetter (Payload : Type) where
  event : Event Payload
  error : String
  attempts : Nat
  failedAt : Time
  replayedAt : Option Time
deriving Repr, DecidableEq

structure DeadLetterResponse (Payload : Type) where
  count : Nat
  items : List (DeadLetter Payload)
deriving Repr, DecidableEq

/-- The arguments of `Add`, with the error's text and the `now` it samples. -/
structure Failure (Payload : Type) where
  event : Event Payload
  error : String
  attempts : Nat
  now : Time
deriving Repr, DecidableEq

def Failure.deadLetter (failure : Failure Payload) : DeadLetter Payload :=
  { event := failure.event
    error := failure.error
    attempts := failure.attempts
    failedAt := failure.now
    replayedAt := none }

/-! ### In memory -/

structure DeadLetterStore (Payload : Type) where
  capacity : Nat
  items : List (DeadLetter Payload)
deriving Repr, DecidableEq

namespace DeadLetterStore

def new (capacity : Nat) : DeadLetterStore Payload :=
  { capacity := capacity
    items := [] }

/-- `Add`; `none` when `store.items[1:]` panics on an empty slice. -/
def add (store : DeadLetterStore Payload) (failure : Failure Payload) :
    Option (DeadLetterStore Payload) :=
  if store.items.length = store.capacity then
    match store.items with
    | [] => none
    | _ :: items => some { store with items := items ++ [failure.deadLetter] }
  else some { store with items := store.items ++ [failure.deadLetter] }

def snapshot (store : DeadLetterStore Payload) : DeadLetterResponse Payload :=
  { count := store.items.length
    items := store.items }

/-- One `Add` after the other. -/
def addAll (store : DeadLetterStore Payload) : List (Failure Payload) →
    Option (DeadLetterStore Payload)
  | [] => some store
  | failure :: failures => (store.add failure).bind fun store => store.addAll failures

end DeadLetterStore

/-! ### In the database -/

/-- `rows.Scan` of `ListDeadLetters`; `none` when the payload does not decode. -/
def scanDeadLetter (codec : Codec Payload) (row : DeadLetterRow) : Option (DeadLetter Payload) :=
  (codec.unmarshal row.payload).map fun payload =>
    { event :=
        { id := row.eventId
          type := row.eventType
          requestId := row.requestId
          payload := payload }
      error := row.error
      attempts := row.attempts
      failedAt := row.failedAt
      replayedAt := row.replayedAt }

/-- `ORDER BY failed_at DESC`. -/
def DeadLetterRow.ListedBefore (first second : DeadLetterRow) : Prop :=
  second.failedAt ≤ first.failedAt

instance : DecidableRel DeadLetterRow.ListedBefore := fun _ _ =>
  inferInstanceAs (Decidable (_ ≤ _))

/-- How a query for several rows is answered. -/
inductive RowsAnswer where
  | complete
  /-- `QueryContext` returns an error. -/
  | refused
  /-- `rows.Next` stops after some rows, and `rows.Err` tells why. -/
  | brokenOff (delivered : Nat)
deriving Repr, DecidableEq

/-- `ListDeadLetters` over the rows in the order in which they are read. -/
def listDeadLetters (codec : Codec Payload) (limit : Nat) (answer : RowsAnswer)
    (rows : List DeadLetterRow) : Option (List (DeadLetter Payload)) :=
  let selected := (rows.insertionSort DeadLetterRow.ListedBefore).take limit
  match answer with
  | .complete => selected.mapM (scanDeadLetter codec)
  | .refused => none
  | .brokenOff delivered =>
      ((selected.take delivered).mapM (scanDeadLetter codec)).bind fun _ => none

/-- `PersistentDeadLetterStore.Add`; `none` when the payload does not marshal. -/
def Database.addDeadLetter (codec : Codec Payload) (db : Database) (failure : Failure Payload) :
    Option Database :=
  (codec.marshal failure.event.payload).map fun payload =>
    db.saveDeadLetter failure.event payload failure.error failure.attempts failure.now

/-- One `Add` after the other. -/
def Database.addDeadLetters (codec : Codec Payload) (db : Database) :
    List (Failure Payload) → Option Database
  | [] => some db
  | failure :: failures =>
      (db.addDeadLetter codec failure).bind fun db => db.addDeadLetters codec failures

/-- `PersistentDeadLetterStore.Snapshot`. -/
def persistentSnapshot (codec : Codec Payload) (capacity : Nat) (answer : RowsAnswer)
    (rows : List DeadLetterRow) : Option (DeadLetterResponse Payload) :=
  (listDeadLetters codec capacity answer rows).map fun items =>
    { count := items.length
      items := items }

/-- What `deadLettersHandler` answers. -/
inductive DeadLettersAnswer (Payload : Type) where
  | ok (response : DeadLetterResponse Payload)
  | internalServerError (message : String)
deriving Repr, DecidableEq

/-- `GET /dead-letters` with what its `Snapshot` returned. -/
def deadLettersHandler : Option (DeadLetterResponse Payload) → DeadLettersAnswer Payload
  | some response => .ok response
  | none => .internalServerError "failed to list dead letters"

end WebhookProcessor
