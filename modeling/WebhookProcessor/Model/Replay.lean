/-
Module: WebhookProcessor.Model.Replay
Layer: Model
Purpose: `ReplayDeadLetter` as one caller executes it when nobody else touches the database and no
  statement fails, and its two manual entry points: the HTTP handler and the CLI command, each with
  its own treatment of the id it is given.
Trusted boundary: as in `Model.EventStore`; `unicode.IsSpace` is the table below.
Main exports: replayTx, replayDeadLetter, trimSpace, replayDeadLetterHandler, runCommand
-/
import Mathlib.Data.List.DropRight
import WebhookProcessor.Model.Actors

namespace WebhookProcessor

namespace Database

/-- The statements of `ReplayDeadLetter` up to the commit: what the transaction reads and what its
three updates match. -/
def replayTx (db : Database) (id : EventId) (now : Time) : Except ReplayError ReplayTx :=
  match db.event? id, db.deadLetter? id with
  | some event, some _ =>
      if event.status ≠ .failed then .error (.deadLetterNotFailed event.status)
      else
        .ok
          { eventId := id
            eventType := event.type
            requestId := event.requestId
            payload := event.payload
            now := now
            moved := decide (db.status? id = some .failed)
            inserted :=
              if db.outboxFor? id = none then
                some (newOutboxRow db.outboxSeq id event.type event.requestId event.payload now)
              else none }
  | _, _ => .error .deadLetterNotFound

/-- `ReplayDeadLetter`.  An inserted outbox row takes its id from the sequence. -/
def replayDeadLetter (db : Database) (id : EventId) (now : Time) : Except ReplayError Database :=
  match db.replayTx id now with
  | .ok tx =>
      let outboxSeq := if tx.inserted = none then db.outboxSeq else db.outboxSeq + 1
      .ok ({ db with outboxSeq := outboxSeq }.commitReplay tx)
  | .error error => .error error

end Database

/-! ### `strings.TrimSpace` -/

/-- `unicode.IsSpace`: the characters with the White_Space property. -/
def isSpace (character : Char) : Bool :=
  [0x09, 0x0A, 0x0B, 0x0C, 0x0D, 0x20, 0x85, 0xA0, 0x1680, 0x2000, 0x2001, 0x2002, 0x2003, 0x2004,
    0x2005, 0x2006, 0x2007, 0x2008, 0x2009, 0x200A, 0x2028, 0x2029, 0x202F, 0x205F,
    0x3000].contains character.toNat

/-- `strings.TrimSpace`. -/
def trimSpace (text : String) : String :=
  String.ofList ((text.toList.dropWhile isSpace).rdropWhile isSpace)

/-! ### `POST /internal/dead-letters/{eventID}/replay` -/

/-- What the handler reads of the request: the `Authorization` header (empty when absent) and the
path value. -/
structure ReplayRequest where
  authorization : String
  eventId : String
deriving Repr, DecidableEq

/-- The answer of the handler: `202` with the event id, or a status code with its error text. -/
inductive ReplayResponse where
  | accepted (eventId : EventId)
  | rejected (statusCode : Nat) (message : String)
deriving Repr, DecidableEq

/-- The token of a `Bearer` header. -/
def providedToken (authorization : String) : String :=
  if "Bearer ".toList.isPrefixOf authorization.toList then
    trimSpace (String.ofList (authorization.toList.drop "Bearer ".length))
  else ""

/-- The errors of `ReplayDeadLetter` as the handler reports them. -/
def ReplayError.response : ReplayError → ReplayResponse
  | .deadLetterNotFound => .rejected 404 "dead letter not found"
  | .deadLetterNotFailed _ => .rejected 409 "event is not failed"
  | .store _ => .rejected 500 "failed to replay dead letter"

/-- The handler lets the request through to the id check. -/
def Authorized (replayToken : String) (request : ReplayRequest) : Prop :=
  replayToken ≠ "" ∧ providedToken request.authorization = replayToken

instance (replayToken : String) (request : ReplayRequest) :
    Decidable (Authorized replayToken request) :=
  inferInstanceAs (Decidable (_ ∧ _))

/-- `replayDeadLetterHandler`, with `DLQReplayToken` and the `now` that `ReplayDeadLetter`
samples. -/
def replayDeadLetterHandler (replayToken : String) (request : ReplayRequest) (now : Time)
    (db : Database) : ReplayResponse × Database :=
  if replayToken = "" then (.rejected 503 "dead letter replay is not configured", db)
  else if providedToken request.authorization ≠ replayToken then (.rejected 401 "unauthorized", db)
  else
    let eventId := trimSpace request.eventId
    if eventId = "" then (.rejected 400 "event id is required", db)
    else
      match db.replayDeadLetter eventId now with
      | .ok after => (.accepted eventId, after)
      | .error error => (error.response, db)

/-! ### The command line -/

/-- How `runCommand` ends: the arguments name no command, the command failed, or it printed the
replayed event. -/
inductive CommandResult where
  | notHandled
  | usage
  | unknown (command : String)
  | failed (error : ReplayError)
  | replayed (eventId : EventId)
deriving Repr, DecidableEq

/-- `runCommand`. -/
def runCommand (args : List String) (now : Time) (db : Database) : CommandResult × Database :=
  match args with
  | [] => (.notHandled, db)
  | "replay-dead-letter" :: arguments =>
      match arguments with
      | [argument] =>
          if trimSpace argument = "" then (.usage, db)
          else
            let eventId := trimSpace argument
            match db.replayDeadLetter eventId now with
            | .ok after => (.replayed eventId, after)
            | .error error => (.failed error, db)
      | _ => (.usage, db)
  | command :: _ => (.unknown command, db)

end WebhookProcessor
