/-
Module: WebhookProcessor.Model.Outbox
Layer: Model
Purpose: `OutboxDispatcher.DispatchPending` and the loop of `run` as one dispatcher executes them
  when nobody else touches the database and every statement succeeds.
Trusted boundary: as in `Model.EventStore`; `RETURNING` lists the claimed rows in ascending id
  order.
Main exports: DispatchCall, DispatchError, publishLoop, dispatchPending, dispatchCycles
-/
import WebhookProcessor.Model.System

namespace WebhookProcessor

/-- What one call of `DispatchPending` samples, draws and is answered: the `now` and the token of
its claim, the error of `Publish` for each event, and the `now` of `MarkOutboxPublished` for each
outbox id. -/
structure DispatchCall (Payload : Type) where
  now : Time
  token : String
  publish : Event Payload → Option String
  markedAt : Nat → Time

inductive DispatchError where
  | undecodable
  | reservationExpired (id : Nat)
deriving Repr, DecidableEq

variable {Payload : Type}

/-- The loop over the claimed messages.  The first `Publish` that returns an error ends it, and
whatever `MarkOutboxFailed` answers then is only logged. -/
def publishLoop (call : DispatchCall Payload) :
    List (OutboxMessage Payload) → Database → Except DispatchError Unit × Database
  | [], db => (.ok (), db)
  | message :: rest, db =>
      match call.publish message.event with
      | some error =>
          (.ok (), db.markOutboxFailed message.id message.dispatchToken error)
      | none =>
          let marked := db.markOutboxPublished message.id message.dispatchToken
            (call.markedAt message.id)
          if db.Reserved message.id message.dispatchToken then publishLoop call rest marked
          else (.error (.reservationExpired message.id), marked)

/-- `DispatchPending`. -/
def dispatchPending (codec : Codec Payload) (limit : Nat) (lease : Time)
    (call : DispatchCall Payload) (db : Database) : Except DispatchError Unit × Database :=
  let claimed := db.claimPendingOutbox limit lease call.now call.token
  match scanClaimed codec call.token claimed.1 (claimed.1.map OutboxRow.id) with
  | some messages => publishLoop call messages claimed.2
  | none => (.error .undecodable, claimed.2)

/-- The loop of `run`: the error of a cycle is only logged. -/
def dispatchCycles (codec : Codec Payload) (limit : Nat) (lease : Time)
    (calls : List (DispatchCall Payload)) (db : Database) : Database :=
  calls.foldl (fun current call => (dispatchPending codec limit lease call current).2) db

end WebhookProcessor
