/-
Module: WebhookProcessor.Model.Queue
Layer: Model
Purpose: `RabbitMQEventQueue` and the worker pool behind it as one transition function: the calls of
  `Publish` that hold `publishMu`, the consumer loop with `openConsumer`, `forwardDeliveries` and
  its teardown, `StopConsuming`, `Close`, the buffered `events` channel, the workers that range over
  it, and a broker that drops connections and channels at any time.  One action is one call that
  leaves the process, one channel operation or one critical section, together with the local code
  after it.
Trusted boundary: Go channels, mutexes, `sync.Once` and contexts; closing an AMQP connection
  succeeds and closes its channels.
Main exports: Amqp, Opening, Publisher, ConsumeLoop, CloseOnce, EventQueue, QueueAction, queueStep
-/
import WebhookProcessor.Model.Delivery
import WebhookProcessor.Transition.Runs

namespace WebhookProcessor

/-! ### The AMQP client -/

/-- An `*amqp.Channel`, with the connection it was opened on. -/
structure AmqpChannel where
  connection : Nat
  number : Nat
deriving Repr, DecidableEq

/-- The connections and channels of the process.  Connection `n` is the one that the `n`th
successful dial returned. -/
structure Amqp where
  dialled : Nat
  openConnections : List Nat
  channelsOpened : Nat
  openChannels : List AmqpChannel
deriving Repr, DecidableEq

namespace Amqp

def empty : Amqp :=
  { dialled := 0
    openConnections := []
    channelsOpened := 0
    openChannels := [] }

/-- A successful `amqp.DialConfig`. -/
def dial (amqp : Amqp) : Amqp :=
  { amqp with
    dialled := amqp.dialled + 1
    openConnections := amqp.dialled :: amqp.openConnections }

/-- What `Connection.Channel` returns when it succeeds. -/
def newChannel (amqp : Amqp) (connection : Nat) : AmqpChannel :=
  { connection := connection
    number := amqp.channelsOpened }

/-- A successful `Connection.Channel`. -/
def openChannel (amqp : Amqp) (connection : Nat) : Amqp :=
  { amqp with
    channelsOpened := amqp.channelsOpened + 1
    openChannels := amqp.newChannel connection :: amqp.openChannels }

/-- `Channel.Close`, or the broker's own close of a channel. -/
def closeChannel (amqp : Amqp) (channel : AmqpChannel) : Amqp :=
  { amqp with openChannels := amqp.openChannels.filter fun other => other ≠ channel }

/-- `Connection.Close`, or the loss of a connection. -/
def closeConnection (amqp : Amqp) (connection : Nat) : Amqp :=
  { amqp with
    openConnections := amqp.openConnections.filter fun other => other ≠ connection
    openChannels := amqp.openChannels.filter fun channel => channel.connection ≠ connection }

/-- `closeAMQPChannel`; a close that fails leaves the channel as it was. -/
def closeAMQPChannel (amqp : Amqp) (channel : Option AmqpChannel) (error : Option String) : Amqp :=
  match channel, error with
  | some channel, none => amqp.closeChannel channel
  | _, _ => amqp

/-- `closeAMQPConnection`. -/
def closeAMQPConnection (amqp : Amqp) : Option Nat → Amqp
  | none => amqp
  | some connection => amqp.closeConnection connection

end Amqp

/-! ### Opening a connection with a channel -/

/-- The calls that prepare a fresh channel. -/
inductive SetupCall where
  | queueDeclare
  | qos
  | consume
  | confirm
deriving Repr, DecidableEq

/-- `openConsumer` after the channel is open. -/
def openConsumerCalls : List SetupCall := [.queueDeclare, .qos, .consume]

/-- `ensurePublisherLocked` after the channel is open. -/
def ensurePublisherCalls : List SetupCall := [.queueDeclare, .confirm]

/-- The call that failed while a connection was opened, and the error it returned. -/
inductive SetupError where
  | dial (cause : String)
  | channel (cause : String)
  | call (call : SetupCall) (cause : String)
deriving Repr, DecidableEq

/-- Where `openConsumer` and the second half of `ensurePublisherLocked` can stand: before a call, or
closing what they have opened after a call has failed. -/
inductive Opening where
  | dialling
  | openingChannel (connection : Nat)
  | configuring (connection : Nat) (channel : AmqpChannel) (call : SetupCall)
      (left : List SetupCall)
  | abandoningChannel (connection : Nat) (channel : AmqpChannel) (error : SetupError)
  | abandoningConnection (connection : Nat) (error : SetupError)
deriving Repr, DecidableEq

/-- How the opening goes on after a call. -/
inductive OpeningStep where
  | goesOn (opening : Opening)
  | opened (connection : Nat) (channel : AmqpChannel)
  | failed (error : SetupError)
deriving Repr, DecidableEq

/-- The next of the calls that prepare the channel, or the end of a successful opening. -/
def Opening.configure (connection : Nat) (channel : AmqpChannel) : List SetupCall → OpeningStep
  | [] => .opened connection channel
  | call :: left => .goesOn (.configuring connection channel call left)

/-- One call of the opening with its answer, `none` where it succeeds. -/
def Opening.advance (calls : List SetupCall) (amqp : Amqp) :
    Opening → Option String → Amqp × OpeningStep
  | .dialling, none => (amqp.dial, .goesOn (.openingChannel amqp.dialled))
  | .dialling, some cause => (amqp, .failed (.dial cause))
  | .openingChannel connection, none =>
      (amqp.openChannel connection,
        Opening.configure connection (amqp.newChannel connection) calls)
  | .openingChannel connection, some cause =>
      (amqp, .goesOn (.abandoningConnection connection (.channel cause)))
  | .configuring connection channel _ left, none =>
      (amqp, Opening.configure connection channel left)
  | .configuring connection channel call _, some cause =>
      (amqp, .goesOn (.abandoningChannel connection channel (.call call cause)))
  | .abandoningChannel connection channel error, answer =>
      (amqp.closeAMQPChannel (some channel) answer,
        .goesOn (.abandoningConnection connection error))
  | .abandoningConnection connection error, _ => (amqp.closeConnection connection, .failed error)

/-! ### `Publish` -/

/-- The errors of `publish` after the lock is taken. -/
inductive PublishError where
  | setup (error : SetupError)
  | publish (cause : String)
  | unavailable
  | wait (cause : String)
  | rejected
deriving Repr, DecidableEq

/-- `err.Error()`; `queueName` is the name as `%q` prints it. -/
def PublishError.message (queueName : String) : PublishError → String
  | .setup (.dial cause) => "connect RabbitMQ publisher: connect RabbitMQ: " ++ cause
  | .setup (.channel cause) => "open RabbitMQ publisher channel: " ++ cause
  | .setup (.call .queueDeclare cause) => "declare RabbitMQ queue " ++ queueName ++ ": " ++ cause
  | .setup (.call _ cause) => "enable RabbitMQ publisher confirms: " ++ cause
  | .publish cause => "publish RabbitMQ event: " ++ cause
  | .unavailable => "RabbitMQ publisher confirmation is unavailable"
  | .wait cause => "wait for RabbitMQ publisher confirmation: " ++ cause
  | .rejected => "RabbitMQ rejected published event"

/-- The answer to `PublishWithDeferredConfirmWithContext`. -/
inductive SendAnswer where
  | sent
  | unconfirmable
  | failed (cause : String)
deriving Repr, DecidableEq

/-- The answer to `WaitContext`. -/
inductive ConfirmAnswer where
  | confirmed
  | rejected
  | failed (cause : String)
deriving Repr, DecidableEq

/-- The `publish` call that holds `publishMu`.  While it invalidates the publisher it goes on with a
new connection, or returns the error that made it invalidate. -/
inductive Publisher where
  | idle
  | checking
  | invalidatingChannel (error : Option PublishError)
  | invalidatingConnection (error : Option PublishError)
  | opening (opening : Opening)
  | publishing
  | awaitingConfirmation
  | returning (error : Option PublishError)
deriving Repr, DecidableEq

/-- `invalidatePublisherLocked` has returned. -/
def Publisher.invalidated : Option PublishError → Publisher
  | none => .opening .dialling
  | some error => .returning (some error)

/-- `publish` after the message was handed to the channel. -/
def Publisher.afterSend : SendAnswer → Publisher
  | .sent => .awaitingConfirmation
  | .unconfirmable => .invalidatingChannel (some .unavailable)
  | .failed cause => .invalidatingChannel (some (.publish cause))

/-- `publish` after the wait for the confirmation; a rejection keeps the connection. -/
def Publisher.afterWait : ConfirmAnswer → Publisher
  | .confirmed => .returning none
  | .rejected => .returning (some .rejected)
  | .failed cause => .invalidatingChannel (some (.wait cause))

/-! ### The consumer loop and the workers -/

/-- An `amqp.Delivery` that `forwardDeliveries` has received.  `number` is a history variable: how
many deliveries were received before it, on whatever channel.  (The broker's own delivery tags start
anew on each channel.) -/
structure AmqpDelivery where
  number : Nat
  body : EventJson
deriving Repr, DecidableEq

/-- An `EventDelivery`; its `ack` and `nack` settle `delivery`. -/
structure EventDelivery (Payload : Type) where
  event : Event Payload
  delivery : AmqpDelivery
deriving Repr, DecidableEq

/-- Where `consumeLoop` stands.  In `handingOff` it is inside the second select of
`forwardDeliveries`; `returning` is before the deferred calls. -/
inductive ConsumeLoop (Payload : Type) where
  | checking
  | opening (opening : Opening)
  | setting (connection : Nat) (channel : AmqpChannel)
  | forwarding (connection : Nat) (channel : AmqpChannel)
  | handingOff (connection : Nat) (channel : AmqpChannel) (delivery : EventDelivery Payload)
  | forwarded (connection : Nat) (channel : AmqpChannel)
  | clearing (connection : Nat) (channel : AmqpChannel)
  | closingChannel (connection : Nat) (channel : AmqpChannel)
  | closingConnection (connection : Nat)
  | waiting
  | returning
  | returned
deriving Repr, DecidableEq

/-- `consumeLoop` after a call of `openConsumer`; an error waits for the next try. -/
def ConsumeLoop.afterOpening {Payload : Type} : OpeningStep → ConsumeLoop Payload
  | .goesOn next => .opening next
  | .opened connection channel => .setting connection channel
  | .failed _ => .waiting

/-- A worker at the head of its `range` loop, inside `handleDelivery`, or after the loop. -/
inductive PoolWorker (Payload : Type) where
  | receiving
  | handling (delivery : EventDelivery Payload)
  | stopped
deriving Repr, DecidableEq

/-- Who makes a settle call. -/
inductive Settler where
  | forwarder
  | worker (w : Nat)
deriving Repr, DecidableEq

/-- A settle call on a delivery. -/
structure SettleEntry where
  delivery : AmqpDelivery
  settler : Settler
  call : SettleCall
deriving Repr, DecidableEq

/-! ### Shutdown -/

/-- The body of `stopOnce.Do`. -/
inductive StopOnce where
  | notCalled
  | waiting
  | returned
deriving Repr, DecidableEq

/-- An argument of `errors.Join` in `Close`. -/
inductive AmqpHandle where
  | channel (channel : Option AmqpChannel)
  | connection (connection : Option Nat)
deriving Repr, DecidableEq

/-- The body of `closeOnce.Do`. -/
inductive CloseOnce where
  | notCalled
  | stopping
  | takingConsumer
  | takingPublisher (consumer : List AmqpHandle)
  | closing (left : List AmqpHandle)
  | returned
deriving Repr, DecidableEq

/-- `closeAMQPChannel` and `closeAMQPConnection`. -/
def AmqpHandle.close (amqp : Amqp) (error : Option String) : AmqpHandle → Amqp
  | .channel target => amqp.closeAMQPChannel target error
  | .connection target => amqp.closeAMQPConnection target

/-! ### The transition function -/

/-- `RabbitMQEventQueue` with its workers.  `received`, `taken` and `settled` are history variables:
the deliveries received, the ones that a worker took from the channel, and the settle calls. -/
structure EventQueue (Payload : Type) where
  amqp : Amqp
  publishConn : Option Nat
  publishChannel : Option AmqpChannel
  publisher : Publisher
  consumerConn : Option Nat
  consumerChannel : Option AmqpChannel
  consumeLoop : ConsumeLoop Payload
  /-- `consumeContext.Err() != nil`. -/
  cancelled : Bool
  stopOnce : StopOnce
  closeOnce : CloseOnce
  /-- The buffer of the `events` channel. -/
  events : List (EventDelivery Payload)
  eventsClosed : Bool
  /-- A goroutine sent on a closed channel or closed it again. -/
  panicked : Bool
  workers : Nat → PoolWorker Payload
  received : List AmqpDelivery
  taken : List (AmqpDelivery × Nat)
  settled : List SettleEntry

/-- `QueueSize` and `WorkerCount`; `LoadConfig` refuses values that are not positive. -/
structure QueueLimits where
  capacity : Nat
  workerCount : Nat
  capacityPositive : 0 < capacity
  workerCountPositive : 0 < workerCount

inductive QueueAction (Payload : Type) where
  -- the broker
  | dropConnection (connection : Nat)
  | dropChannel (channel : AmqpChannel)
  -- publish
  | publish
  | checkPublisher
  | invalidateChannel (error : Option PublishError) (answer : Option String)
  | invalidateConnection (error : Option PublishError)
  | openPublisher (opening : Opening) (answer : Option String)
  | send (answer : SendAnswer)
  | waitConfirmation (answer : ConfirmAnswer)
  | publishReturns (error : Option PublishError)
  -- consumeLoop
  | checkContext
  | openConsumer (opening : Opening) (answer : Option String)
  | setConsumer (connection : Nat) (channel : AmqpChannel)
  | receive (connection : Nat) (channel : AmqpChannel) (body : EventJson)
  | deliveriesClosed (connection : Nat) (channel : AmqpChannel)
  | forwardCancelled (connection : Nat) (channel : AmqpChannel)
  | handOff (connection : Nat) (channel : AmqpChannel) (delivery : EventDelivery Payload)
  | handOffCancelled (connection : Nat) (channel : AmqpChannel)
      (delivery : EventDelivery Payload)
  | afterForward (connection : Nat) (channel : AmqpChannel)
  | clearConsumer (connection : Nat) (channel : AmqpChannel)
  | closeConsumerChannel (connection : Nat) (channel : AmqpChannel) (answer : Option String)
  | closeConsumerConnection (connection : Nat)
  | retryTimer
  | retryCancelled
  | closeEvents
  -- StopConsuming and Close
  | stopConsuming
  | stopReturns
  | close
  | closeStopped
  | takeConsumer
  | takePublisher (consumer : List AmqpHandle)
  | closeHandle (handle : AmqpHandle) (left : List AmqpHandle) (answer : Option String)
  | closeReturns
  -- worker
  | take (w : Nat) (delivery : EventDelivery Payload) (rest : List (EventDelivery Payload))
  | handle (w : Nat) (delivery : EventDelivery Payload) (answers : Answers) (db : Database)
      (metrics : Metrics)
  | stopWorker (w : Nat)

namespace EventQueue

variable {Payload : Type}

/-- `OpenRabbitMQEventQueue` and `startWorkers`. -/
def initial : EventQueue Payload :=
  { amqp := Amqp.empty
    publishConn := none
    publishChannel := none
    publisher := .idle
    consumerConn := none
    consumerChannel := none
    consumeLoop := .checking
    cancelled := false
    stopOnce := .notCalled
    closeOnce := .notCalled
    events := []
    eventsClosed := false
    panicked := false
    workers := fun _ => .receiving
    received := []
    taken := []
    settled := [] }

/-- The condition of `ensurePublisherLocked`: both are set and not closed. -/
def PublisherReady (s : EventQueue Payload) : Prop :=
  (∃ connection ∈ s.publishConn, connection ∈ s.amqp.openConnections) ∧
    ∃ channel ∈ s.publishChannel, channel ∈ s.amqp.openChannels

instance (s : EventQueue Payload) : Decidable s.PublisherReady :=
  inferInstanceAs (Decidable (_ ∧ _))

/-- `publish` after a call of `ensurePublisherLocked` while it opens a connection. -/
def afterPublisherCall (s : EventQueue Payload) (amqp : Amqp) : OpeningStep → EventQueue Payload
  | .goesOn opening =>
      { s with
        amqp := amqp
        publisher := .opening opening }
  | .opened connection channel =>
      { s with
        amqp := amqp
        publishConn := some connection
        publishChannel := some channel
        publisher := .publishing }
  | .failed error =>
      { s with
        amqp := amqp
        publisher := .returning (some (.setup error)) }

/-- The first call of `StopConsuming` cancels the context and waits for the loop. -/
def stop (s : EventQueue Payload) : EventQueue Payload :=
  if s.stopOnce = .notCalled then
    { s with
      cancelled := true
      stopOnce := .waiting }
  else s

/-- A settle call. -/
def settle (s : EventQueue Payload) (delivery : AmqpDelivery) (settler : Settler)
    (call : SettleCall) : EventQueue Payload :=
  { s with
    settled := s.settled ++
      [{ delivery := delivery
         settler := settler
         call := call }] }

def setWorker (s : EventQueue Payload) (w : Nat) (worker : PoolWorker Payload) :
    EventQueue Payload :=
  { s with workers := Function.update s.workers w worker }

end EventQueue

section Step

variable {Payload : Type} [DecidableEq Payload] (codec : Codec Payload) (config : LoadedConfig)
  (limits : QueueLimits) (s : EventQueue Payload)

/-- The transition function of the queue and its workers. -/
def queueStep : QueueAction Payload → Option (EventQueue Payload)
  | .dropConnection connection => some { s with amqp := s.amqp.closeConnection connection }
  | .dropChannel channel => some { s with amqp := s.amqp.closeChannel channel }
  | .publish =>
      if s.publisher = .idle then some { s with publisher := .checking } else none
  | .checkPublisher =>
      if s.publisher = .checking then
        some { s with
          publisher := if s.PublisherReady then .publishing else .invalidatingChannel none }
      else none
  | .invalidateChannel error answer =>
      if s.publisher = .invalidatingChannel error then
        some { s with
          amqp := s.amqp.closeAMQPChannel s.publishChannel answer
          publisher := .invalidatingConnection error }
      else none
  | .invalidateConnection error =>
      if s.publisher = .invalidatingConnection error then
        some { s with
          amqp := s.amqp.closeAMQPConnection s.publishConn
          publishChannel := none
          publishConn := none
          publisher := Publisher.invalidated error }
      else none
  | .openPublisher opening answer =>
      if s.publisher = .opening opening then
        let next := opening.advance ensurePublisherCalls s.amqp answer
        some (s.afterPublisherCall next.1 next.2)
      else none
  | .send answer =>
      if s.publisher = .publishing then some { s with publisher := Publisher.afterSend answer }
      else none
  | .waitConfirmation answer =>
      if s.publisher = .awaitingConfirmation then
        some { s with publisher := Publisher.afterWait answer }
      else none
  | .publishReturns error =>
      if s.publisher = .returning error then some { s with publisher := .idle } else none
  | .checkContext =>
      if s.consumeLoop = .checking then
        some { s with consumeLoop := if s.cancelled then .returning else .opening .dialling }
      else none
  | .openConsumer opening answer =>
      if s.consumeLoop = .opening opening then
        let next := opening.advance openConsumerCalls s.amqp answer
        some { s with
          amqp := next.1
          consumeLoop := ConsumeLoop.afterOpening next.2 }
      else none
  | .setConsumer connection channel =>
      if s.consumeLoop = .setting connection channel then
        some { s with
          consumerConn := some connection
          consumerChannel := some channel
          consumeLoop := .forwarding connection channel }
      else none
  -- an undecodable body is rejected at once and the loop goes on
  | .receive connection channel body =>
      if s.consumeLoop = .forwarding connection channel then
        let delivery : AmqpDelivery :=
          { number := s.received.length
            body := body }
        let noted := { s with received := s.received ++ [delivery] }
        match codec.unmarshalEvent body with
        | none => some (noted.settle delivery .forwarder (.nack false))
        | some event =>
            some { noted with
              consumeLoop := .handingOff connection channel
                { event := event
                  delivery := delivery } }
      else none
  -- the AMQP channel was closed, or the broker cancelled the consumer, as it may at any time
  | .deliveriesClosed connection channel =>
      if s.consumeLoop = .forwarding connection channel then
        some { s with consumeLoop := .forwarded connection channel }
      else none
  | .forwardCancelled connection channel =>
      if s.consumeLoop = .forwarding connection channel ∧ s.cancelled then
        some { s with consumeLoop := .forwarded connection channel }
      else none
  -- a send on a closed channel does not block, it panics
  | .handOff connection channel delivery =>
      if s.consumeLoop = .handingOff connection channel delivery then
        if s.eventsClosed then some { s with panicked := true }
        else if s.events.length < limits.capacity then
          some { s with
            events := s.events ++ [delivery]
            consumeLoop := .forwarding connection channel }
        else none
      else none
  | .handOffCancelled connection channel delivery =>
      if s.consumeLoop = .handingOff connection channel delivery ∧ s.cancelled then
        some ({ s with consumeLoop := .forwarded connection channel }.settle delivery.delivery
          .forwarder (.nack true))
      else none
  -- on shutdown the connection is left to Close
  | .afterForward connection channel =>
      if s.consumeLoop = .forwarded connection channel then
        some { s with
          consumeLoop := if s.cancelled then .returning else .clearing connection channel }
      else none
  | .clearConsumer connection channel =>
      if s.consumeLoop = .clearing connection channel then
        some { s with
          consumerConn := if s.consumerConn = some connection then none else s.consumerConn
          consumerChannel :=
            if s.consumerChannel = some channel then none else s.consumerChannel
          consumeLoop := .closingChannel connection channel }
      else none
  | .closeConsumerChannel connection channel answer =>
      if s.consumeLoop = .closingChannel connection channel then
        some { s with
          amqp := s.amqp.closeAMQPChannel (some channel) answer
          consumeLoop := .closingConnection connection }
      else none
  | .closeConsumerConnection connection =>
      if s.consumeLoop = .closingConnection connection then
        some { s with
          amqp := s.amqp.closeAMQPConnection (some connection)
          consumeLoop := .waiting }
      else none
  | .retryTimer =>
      if s.consumeLoop = .waiting then some { s with consumeLoop := .checking } else none
  | .retryCancelled =>
      if s.consumeLoop = .waiting ∧ s.cancelled then some { s with consumeLoop := .returning }
      else none
  | .closeEvents =>
      if s.consumeLoop = .returning then
        some { s with
          panicked := s.panicked || s.eventsClosed
          eventsClosed := true
          consumeLoop := .returned }
      else none
  | .stopConsuming => some s.stop
  | .stopReturns =>
      if s.stopOnce = .waiting ∧ s.consumeLoop = .returned then
        some { s with stopOnce := .returned }
      else none
  | .close =>
      if s.closeOnce = .notCalled then some { s.stop with closeOnce := .stopping } else none
  | .closeStopped =>
      if s.closeOnce = .stopping ∧ s.stopOnce = .returned then
        some { s with closeOnce := .takingConsumer }
      else none
  | .takeConsumer =>
      if s.closeOnce = .takingConsumer then
        some { s with
          consumerChannel := none
          consumerConn := none
          closeOnce := .takingPublisher
            [.channel s.consumerChannel, .connection s.consumerConn] }
      else none
  | .takePublisher consumer =>
      if s.closeOnce = .takingPublisher consumer ∧ s.publisher = .idle then
        some { s with
          publishChannel := none
          publishConn := none
          closeOnce := .closing
            (consumer ++ [.channel s.publishChannel, .connection s.publishConn]) }
      else none
  | .closeHandle handle left answer =>
      if s.closeOnce = .closing (handle :: left) then
        some { s with
          amqp := handle.close s.amqp answer
          closeOnce := .closing left }
      else none
  | .closeReturns =>
      if s.closeOnce = .closing [] then some { s with closeOnce := .returned } else none
  | .take w delivery rest =>
      if w < limits.workerCount ∧ s.workers w = .receiving ∧ s.events = delivery :: rest then
        some ({ s with
          events := rest
          taken := s.taken ++ [(delivery.delivery, w)] }.setWorker w (.handling delivery))
      else none
  -- the settle calls are those of handleDelivery, whatever its collaborators answer
  | .handle w delivery answers db metrics =>
      if w < limits.workerCount ∧ s.workers w = .handling delivery then
        let journal :=
          handleDelivery codec config answers delivery.event (Journal.start db metrics)
        some ({ s with
          settled := s.settled ++ (journal.select WorkerCall.settle?).map fun call =>
            ({ delivery := delivery.delivery
               settler := .worker w
               call := call } : SettleEntry) }.setWorker w .receiving)
      else none
  | .stopWorker w =>
      if w < limits.workerCount ∧ s.workers w = .receiving ∧ s.events = [] ∧ s.eventsClosed then
        some (s.setWorker w .stopped)
      else none

/-- States of the queue that some schedule leads to. -/
abbrev QueueReachable (state : EventQueue Payload) : Prop :=
  Transition.Reachable EventQueue.initial (queueStep codec config limits) state

/-- States of the queue that some schedule leads to whose steps all meet `allowed`. -/
abbrev QueueReachableVia
    (allowed : EventQueue Payload → QueueAction Payload → EventQueue Payload → Prop)
    (state : EventQueue Payload) : Prop :=
  Transition.ReachableVia EventQueue.initial (queueStep codec config limits) allowed state

end Step

/-! ### Undisturbed calls -/

/-- One turn of the consumer loop up to `forwardDeliveries` in which every call succeeds. -/
def openConsumerCallsOn {Payload : Type} (connection : Nat) (channel : AmqpChannel) :
    List (QueueAction Payload) :=
  [.checkContext,
    .openConsumer .dialling none,
    .openConsumer (.openingChannel connection) none,
    .openConsumer (.configuring connection channel .queueDeclare [.qos, .consume]) none,
    .openConsumer (.configuring connection channel .qos [.consume]) none,
    .openConsumer (.configuring connection channel .consume []) none,
    .setConsumer connection channel]

/-- A confirmed `Publish` that has to open its connection first. -/
def publishCallsOn {Payload : Type} (connection : Nat) (channel : AmqpChannel) :
    List (QueueAction Payload) :=
  [.publish,
    .checkPublisher,
    .invalidateChannel none none,
    .invalidateConnection none,
    .openPublisher .dialling none,
    .openPublisher (.openingChannel connection) none,
    .openPublisher (.configuring connection channel .queueDeclare [.confirm]) none,
    .openPublisher (.configuring connection channel .confirm []) none,
    .send .sent,
    .waitConfirmation .confirmed,
    .publishReturns none]

namespace Sample

/-- One worker behind a buffer for one delivery. -/
def limits : QueueLimits :=
  { capacity := 1
    workerCount := 1
    capacityPositive := Nat.one_pos
    workerCountPositive := Nat.one_pos }

/-- The channel of connection `n` where every connection has one. -/
def channel (n : Nat) : AmqpChannel :=
  { connection := n
    number := n }

end Sample

end WebhookProcessor
