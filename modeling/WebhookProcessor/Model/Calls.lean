/-
Module: WebhookProcessor.Model.Calls
Layer: Model
Purpose: The statements that one undisturbed call of each method executes, as action sequences, and
  the values of one accepted event as they travel through the service.  Interleavings of concrete
  calls are written with these sequences.
Trusted boundary: none
Main exports: Codec.text, saveStatements, publishStatements, failStatements, replayStatements
-/
import WebhookProcessor.Model.System

namespace WebhookProcessor

/-- Payloads kept as their canonical JSON text. -/
def Codec.text : Codec String :=
  { marshal := some
    unmarshal := some }

theorem Codec.text_lawful : Codec.text.Lawful :=
  { roundTrip := fun value _ => ⟨value, rfl, rfl⟩ }

variable {Payload : Type}

/-- `createEventHandler` and `SaveQueuedWithOutbox`. -/
def saveStatements (request : Nat) (body : EventJson) (event : Event Payload) (payload : String)
    (now : Time) (outboxId : Nat) : List (Action Payload) :=
  [.submit request body event.requestId event payload,
    .insertEvent request event payload now,
    .insertOutbox request event payload now,
    .commitSave request event payload now outboxId .ok]

/-- `DispatchPending` up to the confirmed `Publish` of its only message. -/
def publishStatements (d : Nat) (now : Time) (message : OutboxMessage Payload)
    (body : EventJson) : List (Action Payload) :=
  [.claimPendingOutbox d 10 now message.dispatchToken [message.id] .ok,
    .publishConfirmed d now message [] body]

/-- `handleDelivery` up to the processor's first answer. -/
def attemptStatements (w : Nat) (message : Message) (claim : Claim Payload)
    (error : Option String) : List (Action Payload) :=
  [.deliver w 0 message claim.event,
    .claimForProcessing w claim.event claim.since .ok,
    .processorReturns w claim 1 error]

/-- The end of `processEventWithRetry` after a success, and the acknowledgement. -/
def finishStatements (w : Nat) (claim : Claim Payload) (now : Time) (opening : Nat) :
    List (Action Payload) :=
  [.markProcessed w claim 1 now .ok,
    .returns w claim true (.ack opening),
    .settle w claim.event (.ack opening)]

/-- The end of `processEventWithRetry` after the last failure, and the acknowledgement. -/
def failStatements (w : Nat) (claim : Claim Payload) (error payload : String) (now : Time)
    (opening : Nat) : List (Action Payload) :=
  [.saveDeadLetter w claim 1 error payload now .ok,
    .markFailed w claim 1 error now .ok,
    .returns w claim true (.ack opening),
    .settle w claim.event (.ack opening)]

/-- `ReplayDeadLetter` up to its commit. -/
def replayStatements (caller : Caller) (tx : ReplayTx) : List (Action Payload) :=
  [.replay caller tx.eventId,
    .replaySelect caller tx.eventId,
    .replayResetEvent caller tx.eventId tx.eventType tx.requestId tx.payload tx.now,
    .replayReopenOutbox caller tx,
    .replayMarkDeadLetter caller tx,
    .replayCommit caller tx none]

/-! ### One event on its way -/

namespace Sample

/-- One attempt per delivery, a processing lease of five minutes and a dispatch lease of thirty
seconds. -/
def config : Config :=
  { maxRetries := 0
    processingLease := 300
    outboxBatchSize := 10
    outboxDispatchLease := 30
    dlqAutoRetryMaxAttempts := 3 }

def event : Event String :=
  { id := "evt-1"
    type := "payment.created"
    requestId := "req-1"
    payload := "\x7b\"amount\":100\x7d" }

def body : EventJson :=
  { id := event.id
    type := event.type
    requestId := some event.requestId
    payload := event.payload }

def outboxMessage : OutboxMessage String :=
  { id := 1
    event := event
    attempts := 0
    dispatchToken := "token-1" }

def message : Message :=
  { messageId := event.id
    body := body
    opening := 1 }

/-- The `n`th claim of the event, made at `since`. -/
def claim (n : Nat) (since : Time) : Claim String :=
  { event := event
    since := since
    number := n }

def replayTx (moved : Bool) : ReplayTx :=
  { eventId := event.id
    eventType := event.type
    requestId := event.requestId
    payload := event.payload
    now := 0
    moved := moved
    inserted := none }

/-- The event is accepted and its message is in the queue; its dispatcher has not marked it. -/
def sent : List (Action String) :=
  saveStatements 0 body event event.payload 0 1 ++ publishStatements 0 0 outboxMessage body

end Sample

end WebhookProcessor
