/-
Module: WebhookProcessor.Proofs.Connections
Layer: Proofs
Purpose: Who owns the open AMQP connections.  Every open connection is stored in `publishConn` or
  `consumerConn`, or is in a local variable of the one call that is about to store or close it: an
  opening, the teardown of the consumer, or `Close`.  `Close` waits for the consumer loop before it
  takes what the loop has stored, so nothing is stored behind its back.
Trusted boundary: closing an AMQP connection succeeds and closes its channels
Main exports: PublishBeforeClose, Session, Links, LinkEffect, step_links, Linked, no_connection_leak
-/
import WebhookProcessor.Model.Calls
import WebhookProcessor.Model.Queue

namespace WebhookProcessor

open Transition

variable {Payload : Type}

/-- `Close` has taken the publisher's connection. -/
def CloseOnce.PublisherTaken : CloseOnce → Prop
  | .closing _ | .returned => True
  | _ => False

instance (closeOnce : CloseOnce) : Decidable closeOnce.PublisherTaken :=
  match closeOnce with
  | .closing _ | .returned => inferInstanceAs (Decidable True)
  | .notCalled | .stopping | .takingConsumer | .takingPublisher _ =>
      inferInstanceAs (Decidable False)

/-- No `Publish` after `Close`: a call gets `publishMu` only before `Close` has had it. -/
def PublishBeforeClose (before : EventQueue Payload) (action : QueueAction Payload)
    (_ : EventQueue Payload) : Prop :=
  match action with
  | .publish => ¬ before.closeOnce.PublisherTaken
  | _ => True

instance (before : EventQueue Payload) (action : QueueAction Payload)
    (after : EventQueue Payload) : Decidable (PublishBeforeClose before action after) := by
  unfold PublishBeforeClose
  split <;> infer_instance

/-! ### Connections in local variables -/

/-- The connection that the opening has dialled and neither returned nor closed. -/
def Opening.connection? : Opening → Option Nat
  | .dialling => none
  | .openingChannel connection => some connection
  | .configuring connection _ _ _ => some connection
  | .abandoningChannel connection _ _ => some connection
  | .abandoningConnection connection _ => some connection

/-- The channel that the opening prepares belongs to its connection. -/
def Opening.Consistent : Opening → Prop
  | .configuring connection channel _ _ => channel.connection = connection
  | _ => True

def OpeningStep.connection? : OpeningStep → Option Nat
  | .goesOn opening => opening.connection?
  | .opened connection _ => some connection
  | .failed _ => none

def OpeningStep.Consistent : OpeningStep → Prop
  | .goesOn opening => opening.Consistent
  | .opened connection channel => channel.connection = connection
  | .failed _ => True

def Publisher.connection? : Publisher → Option Nat
  | .opening next => next.connection?
  | _ => none

def AmqpHandle.connection? : AmqpHandle → Option Nat
  | .channel _ => none
  | .connection target => target

/-- The connections that `Close` has taken and not closed yet. -/
def CloseOnce.connections : CloseOnce → List Nat
  | .takingPublisher consumer => consumer.filterMap AmqpHandle.connection?
  | .closing left => left.filterMap AmqpHandle.connection?
  | _ => []

/-- What the consumer loop has to do with connections. -/
inductive Session where
  | unopened
  | opening (opening : Opening)
  | setting (connection : Nat)
  | serving (connection : Nat)
  | closing (connection : Nat)
  | leaving
  | returned
deriving Repr, DecidableEq

def ConsumeLoop.session : ConsumeLoop Payload → Session
  | .checking | .waiting => .unopened
  | .opening next => .opening next
  | .setting connection _ => .setting connection
  | .forwarding connection _ | .handingOff connection _ _ => .serving connection
  | .forwarded connection _ | .clearing connection _ => .serving connection
  | .closingChannel connection _ | .closingConnection connection => .closing connection
  | .returning => .leaving
  | .returned => .returned

/-- The connection that the loop has in its hands and not stored. -/
def Session.connection? : Session → Option Nat
  | .opening next => next.connection?
  | .setting connection => some connection
  | .closing connection => some connection
  | _ => none

/-- `consumeLoop` after a call of `openConsumer`, seen from its connections. -/
def Session.afterOpening : OpeningStep → Session
  | .goesOn next => .opening next
  | .opened connection _ => .setting connection
  | .failed _ => .unopened

theorem session_afterOpening (next : OpeningStep) :
    (ConsumeLoop.afterOpening next : ConsumeLoop Payload).session = Session.afterOpening next := by
  cases next <;> rfl

theorem connection?_afterOpening (next : OpeningStep) :
    (Session.afterOpening next).connection? = next.connection? := by
  cases next <;> rfl

/-! ### One call of an opening -/

@[simp] theorem openConnections_closeAMQPChannel (amqp : Amqp) (channel : Option AmqpChannel)
    (error : Option String) :
    (amqp.closeAMQPChannel channel error).openConnections = amqp.openConnections := by
  unfold Amqp.closeAMQPChannel
  split <;> rfl

theorem mem_closeAMQPConnection {amqp : Amqp} {target : Option Nat} {connection : Nat} :
    connection ∈ (amqp.closeAMQPConnection target).openConnections ↔
      connection ∈ amqp.openConnections ∧ target ≠ some connection := by
  cases target with
  | none => simp [Amqp.closeAMQPConnection]
  | some target =>
      simp only [Amqp.closeAMQPConnection, Amqp.closeConnection, List.mem_filter, ne_eq,
        decide_eq_true_eq, Option.some.injEq]
      exact and_congr_right fun _ => ⟨fun other same => other same.symm,
        fun other same => other same.symm⟩

theorem connection?_configure (connection : Nat) (channel : AmqpChannel) (calls : List SetupCall) :
    (Opening.configure connection channel calls).connection? = some connection := by
  cases calls <;> rfl

theorem consistent_configure {connection : Nat} {channel : AmqpChannel}
    (belongs : channel.connection = connection) (calls : List SetupCall) :
    (Opening.configure connection channel calls).Consistent := by
  cases calls <;> exact belongs

/-- A connection that is open after a call of the opening was open before and is not the opening's
own, or it is the opening's own still. -/
theorem Opening.mem_advance {opening : Opening} {calls : List SetupCall} {amqp : Amqp}
    {answer : Option String} {connection : Nat}
    (isOpen : connection ∈ (opening.advance calls amqp answer).1.openConnections) :
    (connection ∈ amqp.openConnections ∧ opening.connection? ≠ some connection) ∨
      (opening.advance calls amqp answer).2.connection? = some connection := by
  -- a call that changes no connection and keeps the opening's own
  have kept : ∀ {own : Nat} {next : OpeningStep}, next.connection? = some own →
      connection ∈ amqp.openConnections →
      (connection ∈ amqp.openConnections ∧ some own ≠ some connection) ∨
        next.connection? = some connection := by
    intro own next holds before
    by_cases same : own = connection
    · subst same
      exact Or.inr holds
    · exact Or.inl ⟨before, fun equal => same (Option.some.inj equal)⟩
  cases opening with
  | dialling =>
      cases answer with
      | none =>
          rcases List.mem_cons.mp isOpen with rfl | before
          · exact Or.inr rfl
          · exact Or.inl ⟨before, (Option.some_ne_none _).symm⟩
      | some cause => exact Or.inl ⟨isOpen, (Option.some_ne_none _).symm⟩
  | openingChannel own =>
      cases answer with
      | none => exact kept (connection?_configure _ _ _) isOpen
      | some cause => exact kept rfl isOpen
  | configuring own channel call left =>
      cases answer with
      | none => exact kept (connection?_configure _ _ _) isOpen
      | some cause => exact kept rfl isOpen
  | abandoningChannel own channel error =>
      have before : connection ∈ amqp.openConnections := by
        simpa [Opening.advance] using isOpen
      exact kept rfl before
  | abandoningConnection own error =>
      exact Or.inl (mem_closeAMQPConnection.mp (show connection ∈
        (amqp.closeAMQPConnection (some own)).openConnections from isOpen))

theorem Opening.consistent_advance {opening : Opening} (consistent : opening.Consistent)
    (calls : List SetupCall) (amqp : Amqp) (answer : Option String) :
    (opening.advance calls amqp answer).2.Consistent := by
  cases opening with
  | dialling =>
      cases answer with
      | none => trivial
      | some cause => trivial
  | openingChannel own =>
      cases answer with
      | none =>
          have belongs : (amqp.newChannel own).connection = own := rfl
          exact consistent_configure belongs calls
      | some cause => trivial
  | configuring own channel call left =>
      cases answer with
      | none => exact consistent_configure consistent left
      | some cause => trivial
  | abandoningChannel => trivial
  | abandoningConnection => trivial

/-! ### What a step does to the connections -/

/-- The part of the queue that connections pass through. -/
structure Links where
  openConnections : List Nat
  publishConn : Option Nat
  publishChannel : Option AmqpChannel
  publisher : Publisher
  consumerConn : Option Nat
  session : Session
  stopOnce : StopOnce
  closeOnce : CloseOnce

def EventQueue.links (s : EventQueue Payload) : Links :=
  { openConnections := s.amqp.openConnections
    publishConn := s.publishConn
    publishChannel := s.publishChannel
    publisher := s.publisher
    consumerConn := s.consumerConn
    session := s.consumeLoop.session
    stopOnce := s.stopOnce
    closeOnce := s.closeOnce }

inductive LinkEffect (s : EventQueue Payload) : QueueAction Payload → Links → Prop where
  | unchanged {action : QueueAction Payload} : LinkEffect s action s.links
  | dropped {connection : Nat} :
      LinkEffect s (.dropConnection connection)
        { s.links with openConnections := (s.amqp.closeConnection connection).openConnections }
  | entered (idle : s.publisher = .idle) :
      LinkEffect s .publish { s.links with publisher := .checking }
  | advanced {action : QueueAction Payload} {next : Publisher} (busy : s.publisher ≠ .idle)
      (before : s.publisher.connection? = none) (goesOn : ∀ opening, next ≠ .opening opening) :
      LinkEffect s action { s.links with publisher := next }
  | invalidated {error : Option PublishError}
      (phase : s.publisher = .invalidatingConnection error) :
      LinkEffect s (.invalidateConnection error)
        { s.links with
          openConnections := (s.amqp.closeAMQPConnection s.publishConn).openConnections
          publishConn := none
          publishChannel := none
          publisher := Publisher.invalidated error }
  | publisherCalled {opening : Opening} {answer : Option String}
      (phase : s.publisher = .opening opening) :
      LinkEffect s (.openPublisher opening answer)
        (s.afterPublisherCall (opening.advance ensurePublisherCalls s.amqp answer).1
          (opening.advance ensurePublisherCalls s.amqp answer).2).links
  | consumerCalled {opening : Opening} {answer : Option String}
      (phase : s.consumeLoop.session = .opening opening) :
      LinkEffect s (.openConsumer opening answer)
        { s.links with
          openConnections := (opening.advance openConsumerCalls s.amqp answer).1.openConnections
          session := Session.afterOpening (opening.advance openConsumerCalls s.amqp answer).2 }
  | began (phase : s.consumeLoop.session = .unopened) :
      LinkEffect s .checkContext { s.links with session := .opening .dialling }
  | left {action : QueueAction Payload}
      (phase : s.consumeLoop.session = .unopened ∨
        ∃ connection, s.consumeLoop.session = .serving connection) :
      LinkEffect s action { s.links with session := .leaving }
  | stored {connection : Nat} {channel : AmqpChannel}
      (phase : s.consumeLoop.session = .setting connection) :
      LinkEffect s (.setConsumer connection channel)
        { s.links with
          consumerConn := some connection
          session := .serving connection }
  | cleared {connection : Nat} {channel : AmqpChannel}
      (phase : s.consumeLoop.session = .serving connection) :
      LinkEffect s (.clearConsumer connection channel)
        { s.links with
          consumerConn := if s.consumerConn = some connection then none else s.consumerConn
          session := .closing connection }
  | tornDown {connection : Nat} (phase : s.consumeLoop.session = .closing connection) :
      LinkEffect s (.closeConsumerConnection connection)
        { s.links with
          openConnections := (s.amqp.closeAMQPConnection (some connection)).openConnections
          session := .unopened }
  | finished (phase : s.consumeLoop.session = .leaving) :
      LinkEffect s .closeEvents { s.links with session := .returned }
  | stopCalled {action : QueueAction Payload} (first : s.stopOnce = .notCalled) :
      LinkEffect s action { s.links with stopOnce := .waiting }
  | stopReturned (phase : s.consumeLoop.session = .returned) :
      LinkEffect s .stopReturns { s.links with stopOnce := .returned }
  | closeCalled (first : s.closeOnce = .notCalled) :
      LinkEffect s .close
        { s.links with
          stopOnce := s.stop.stopOnce
          closeOnce := .stopping }
  | closeStopped (phase : s.closeOnce = .stopping) (returned : s.stopOnce = .returned) :
      LinkEffect s .closeStopped { s.links with closeOnce := .takingConsumer }
  | consumerTaken (phase : s.closeOnce = .takingConsumer) :
      LinkEffect s .takeConsumer
        { s.links with
          consumerConn := none
          closeOnce := .takingPublisher
            [.channel s.consumerChannel, .connection s.consumerConn] }
  | publisherTaken {consumer : List AmqpHandle} (phase : s.closeOnce = .takingPublisher consumer)
      (idle : s.publisher = .idle) :
      LinkEffect s (.takePublisher consumer)
        { s.links with
          publishConn := none
          publishChannel := none
          closeOnce := .closing
            (consumer ++ [.channel s.publishChannel, .connection s.publishConn]) }
  | handleClosed {handle : AmqpHandle} {left : List AmqpHandle} {answer : Option String}
      (phase : s.closeOnce = .closing (handle :: left)) :
      LinkEffect s (.closeHandle handle left answer)
        { s.links with
          openConnections := (handle.close s.amqp answer).openConnections
          closeOnce := .closing left }
  | closeReturned (phase : s.closeOnce = .closing []) :
      LinkEffect s .closeReturns { s.links with closeOnce := .returned }

section Steps

variable {codec : Codec Payload} {config : LoadedConfig} {limits : QueueLimits}
  {s s' : EventQueue Payload} {action : QueueAction Payload}

/-- A step of the loop that keeps its session. -/
theorem LinkEffect.of_session {loop : ConsumeLoop Payload}
    (same : loop.session = s.consumeLoop.session) :
    LinkEffect s action { s.links with session := loop.session } := by
  rw [same]
  exact .unchanged

/-- A call of the publisher's opening changes nothing of the others. -/
theorem links_afterPublisherCall (s : EventQueue Payload) (amqp : Amqp) (next : OpeningStep) :
    (s.afterPublisherCall amqp next).links =
      { s.links with
        openConnections := amqp.openConnections
        publishConn := (s.afterPublisherCall amqp next).publishConn
        publishChannel := (s.afterPublisherCall amqp next).publishChannel
        publisher := (s.afterPublisherCall amqp next).publisher } := by
  cases next <;> rfl

theorem links_stop (s : EventQueue Payload) :
    s.stop.links = { s.links with stopOnce := s.stop.stopOnce } := by
  unfold EventQueue.stop
  split <;> rfl

variable [DecidableEq Payload]

theorem step_links (taken : queueStep codec config limits s action = some s') :
    LinkEffect s action s'.links := by
  cases action
  all_goals
    simp only [queueStep, Option.ite_none_right_eq_some, Option.some.injEq] at taken
  case dropConnection =>
      cases taken
      exact .dropped
  case dropChannel =>
      cases taken
      exact .unchanged
  case publish =>
      obtain ⟨idle, rfl⟩ := taken
      exact .entered idle
  case checkPublisher =>
      obtain ⟨phase, rfl⟩ := taken
      refine .advanced (by rw [phase]; simp) (by rw [phase]; rfl) ?_
      intro opening
      split <;> simp
  case invalidateChannel error answer =>
      obtain ⟨phase, rfl⟩ := taken
      simp only [EventQueue.links, openConnections_closeAMQPChannel]
      exact .advanced (by rw [phase]; simp) (by rw [phase]; rfl) (by simp)
  case invalidateConnection =>
      obtain ⟨phase, rfl⟩ := taken
      exact .invalidated phase
  case openPublisher =>
      obtain ⟨phase, rfl⟩ := taken
      exact .publisherCalled phase
  case send answer =>
      obtain ⟨phase, rfl⟩ := taken
      refine .advanced (by rw [phase]; simp) (by rw [phase]; rfl) ?_
      cases answer <;> simp [Publisher.afterSend]
  case waitConfirmation answer =>
      obtain ⟨phase, rfl⟩ := taken
      refine .advanced (by rw [phase]; simp) (by rw [phase]; rfl) ?_
      cases answer <;> simp [Publisher.afterWait]
  case publishReturns =>
      obtain ⟨phase, rfl⟩ := taken
      exact .advanced (by rw [phase]; simp) (by rw [phase]; rfl) (by simp)
  case checkContext =>
      obtain ⟨phase, rfl⟩ := taken
      split
      · exact .left (Or.inl (by rw [phase]; rfl))
      · exact .began (by rw [phase]; rfl)
  case openConsumer opening answer =>
      obtain ⟨phase, rfl⟩ := taken
      simp only [EventQueue.links, session_afterOpening]
      exact .consumerCalled (by rw [phase]; rfl)
  case setConsumer =>
      obtain ⟨phase, rfl⟩ := taken
      exact .stored (by rw [phase]; rfl)
  case receive connection channel body =>
      obtain ⟨phase, taken⟩ := taken
      cases decoded : codec.unmarshalEvent body with
      | none =>
          rw [decoded] at taken
          cases taken
          exact .unchanged
      | some event =>
          rw [decoded] at taken
          cases taken
          exact .of_session (by rw [phase]; rfl)
  case deliveriesClosed =>
      obtain ⟨phase, rfl⟩ := taken
      exact .of_session (by rw [phase]; rfl)
  case forwardCancelled | handOffCancelled =>
      obtain ⟨⟨phase, _⟩, rfl⟩ := taken
      exact .of_session (by rw [phase]; rfl)
  case handOff connection channel delivery =>
      obtain ⟨phase, taken⟩ := taken
      split at taken
      · cases taken
        exact .unchanged
      · obtain ⟨_, rfl⟩ := (Option.ite_none_right_eq_some.mp taken).imp id Option.some.inj
        exact .of_session (by rw [phase]; rfl)
  case afterForward connection channel =>
      obtain ⟨phase, rfl⟩ := taken
      split
      · exact .left (Or.inr ⟨connection, by rw [phase]; rfl⟩)
      · exact .of_session (by rw [phase]; rfl)
  case clearConsumer =>
      obtain ⟨phase, rfl⟩ := taken
      exact .cleared (by rw [phase]; rfl)
  case closeConsumerChannel =>
      obtain ⟨phase, rfl⟩ := taken
      simp only [EventQueue.links, openConnections_closeAMQPChannel]
      exact .of_session (by rw [phase]; rfl)
  case closeConsumerConnection =>
      obtain ⟨phase, rfl⟩ := taken
      exact .tornDown (by rw [phase]; rfl)
  case retryTimer =>
      obtain ⟨phase, rfl⟩ := taken
      exact .of_session (by rw [phase]; rfl)
  case retryCancelled =>
      obtain ⟨⟨phase, _⟩, rfl⟩ := taken
      exact .left (Or.inl (by rw [phase]; rfl))
  case closeEvents =>
      obtain ⟨phase, rfl⟩ := taken
      exact .finished (by rw [phase]; rfl)
  case stopConsuming =>
      cases taken
      unfold EventQueue.stop
      split
      · exact .stopCalled ‹_›
      · exact .unchanged
  case stopReturns =>
      obtain ⟨⟨_, phase⟩, rfl⟩ := taken
      exact .stopReturned (by rw [phase]; rfl)
  case close =>
      obtain ⟨first, rfl⟩ := taken
      show LinkEffect s .close { s.stop.links with closeOnce := .stopping }
      rw [links_stop]
      exact .closeCalled first
  case closeStopped =>
      obtain ⟨⟨phase, returned⟩, rfl⟩ := taken
      exact .closeStopped phase returned
  case takeConsumer =>
      obtain ⟨phase, rfl⟩ := taken
      exact .consumerTaken phase
  case takePublisher =>
      obtain ⟨⟨phase, idle⟩, rfl⟩ := taken
      exact .publisherTaken phase idle
  case closeHandle =>
      obtain ⟨phase, rfl⟩ := taken
      exact .handleClosed phase
  case closeReturns =>
      obtain ⟨phase, rfl⟩ := taken
      exact .closeReturned phase
  all_goals
    obtain ⟨_, rfl⟩ := taken
    exact .unchanged

/-! ### Ownership -/

/-- What `consumerConn` holds while the loop is in the session. -/
def Session.Stores (consumerConn : Option Nat) : Session → Prop
  | .serving connection => consumerConn = some connection
  | .leaving | .returned => True
  | _ => consumerConn = none

/-- `Close` is past its `StopConsuming`. -/
def CloseOnce.Stopped : CloseOnce → Prop
  | .notCalled | .stopping => False
  | _ => True

/-- `Close` has taken the consumer's connection. -/
def CloseOnce.ConsumerTaken : CloseOnce → Prop
  | .takingPublisher _ | .closing _ | .returned => True
  | _ => False

/-- Where an open connection can be: stored, or with the call that opens or closes it. -/
def Links.Owns (links : Links) (connection : Nat) : Prop :=
  links.publishConn = some connection ∨ links.consumerConn = some connection ∨
    links.publisher.connection? = some connection ∨ links.session.connection? = some connection ∨
    connection ∈ links.closeOnce.connections

namespace Links.Owns

variable {links : Links} {connection : Nat}

theorem byPublishConn (stored : links.publishConn = some connection) : links.Owns connection :=
  Or.inl stored

theorem byConsumerConn (stored : links.consumerConn = some connection) : links.Owns connection :=
  Or.inr (Or.inl stored)

theorem byPublisher (own : links.publisher.connection? = some connection) :
    links.Owns connection :=
  Or.inr (Or.inr (Or.inl own))

theorem bySession (held : links.session.connection? = some connection) : links.Owns connection :=
  Or.inr (Or.inr (Or.inr (Or.inl held)))

theorem byClose (taken : connection ∈ links.closeOnce.connections) : links.Owns connection :=
  Or.inr (Or.inr (Or.inr (Or.inr taken)))

end Links.Owns

/-- Every open connection has an owner, the publisher's channel belongs to its connection, and
`Close` takes the connections when nobody stores another one. -/
structure Linked (links : Links) : Prop where
  owned : ∀ connection ∈ links.openConnections, links.Owns connection
  paired : links.publishChannel.map AmqpChannel.connection = links.publishConn
  preparing : ∀ opening, links.publisher = .opening opening →
    links.publishConn = none ∧ opening.Consistent
  consumer : links.session.Stores links.consumerConn
  stopped : links.stopOnce = .returned → links.session = .returned
  waited : links.closeOnce.Stopped → links.stopOnce = .returned
  consumerTaken : links.closeOnce.ConsumerTaken → links.consumerConn = none
  publisherTaken : links.closeOnce.PublisherTaken →
    links.publishConn = none ∧ links.publisher = .idle

namespace Linked

variable {after : Links} (linked : Linked s.links) (effect : LinkEffect s action after)
include linked effect

omit [DecidableEq Payload] in
theorem step_owned : ∀ connection ∈ after.openConnections, after.Owns connection := by
  intro connection isOpen
  have before : connection ∈ s.amqp.openConnections →
      s.publishConn = some connection ∨ s.consumerConn = some connection ∨
        s.publisher.connection? = some connection ∨
        s.consumeLoop.session.connection? = some connection ∨
        connection ∈ s.closeOnce.connections := linked.owned connection
  cases effect with
  | unchanged => exact before isOpen
  | dropped => exact before (List.mem_of_mem_filter isOpen)
  | entered idle =>
      have owner := before isOpen
      rw [idle] at owner
      exact owner
  | advanced _ none =>
      rcases before isOpen with stored | stored | own | held | taken
      · exact .byPublishConn stored
      · exact .byConsumerConn stored
      · rw [none] at own
        cases own
      · exact .bySession held
      · exact .byClose taken
  | invalidated phase =>
      obtain ⟨was, other⟩ := mem_closeAMQPConnection.mp isOpen
      rcases before was with stored | stored | own | held | taken
      · exact absurd stored other
      · exact .byConsumerConn stored
      · rw [phase] at own
        cases own
      · exact .bySession held
      · exact .byClose taken
  | @publisherCalled opening answer phase =>
      have unset : s.publishConn = none := (linked.preparing opening phase).1
      rw [links_afterPublisherCall] at isOpen ⊢
      rcases Opening.mem_advance isOpen with ⟨was, other⟩ | own
      · rcases before was with stored | stored | own | held | taken
        · rw [unset] at stored
          cases stored
        · exact .byConsumerConn stored
        · rw [phase] at own
          exact absurd own other
        · exact .bySession held
        · exact .byClose taken
      · generalize (opening.advance ensurePublisherCalls s.amqp answer).2 = next at own
        cases next with
        | goesOn later => exact .byPublisher own
        | opened later channel => exact .byPublishConn own
        | failed error => cases own
  | @consumerCalled opening answer phase =>
      rcases Opening.mem_advance isOpen with ⟨was, other⟩ | own
      · rcases before was with stored | stored | own | held | taken
        · exact .byPublishConn stored
        · exact .byConsumerConn stored
        · exact .byPublisher own
        · rw [phase] at held
          exact absurd held other
        · exact .byClose taken
      · rw [← connection?_afterOpening] at own
        exact .bySession own
  | began phase =>
      have owner := before isOpen
      rw [phase] at owner
      exact owner
  | left phase =>
      have owner := before isOpen
      rcases phase with phase | ⟨served, phase⟩
      · rw [phase] at owner
        exact owner
      · rw [phase] at owner
        exact owner
  | stored phase =>
      have free : s.consumeLoop.session.Stores s.consumerConn := linked.consumer
      rw [phase] at free
      have owner := before isOpen
      rw [phase, show s.consumerConn = none from free] at owner
      rcases owner with stored | stored | own | held | taken
      · exact .byPublishConn stored
      · cases stored
      · exact .byPublisher own
      · exact .byConsumerConn held
      · exact .byClose taken
  | cleared phase =>
      have served : s.consumeLoop.session.Stores s.consumerConn := linked.consumer
      rw [phase] at served
      have owner := before isOpen
      rw [phase, show s.consumerConn = _ from served] at owner
      rcases owner with stored | stored | own | held | taken
      · exact .byPublishConn stored
      · exact .bySession stored
      · exact .byPublisher own
      · cases held
      · exact .byClose taken
  | tornDown phase =>
      obtain ⟨was, other⟩ := mem_closeAMQPConnection.mp isOpen
      rcases before was with stored | stored | own | held | taken
      · exact .byPublishConn stored
      · exact .byConsumerConn stored
      · exact .byPublisher own
      · rw [phase] at held
        exact absurd held other
      · exact .byClose taken
  | finished phase =>
      have owner := before isOpen
      rw [phase] at owner
      exact owner
  | stopCalled => exact before isOpen
  | stopReturned => exact before isOpen
  | closeCalled phase =>
      have owner := before isOpen
      rw [phase] at owner
      exact owner
  | closeStopped phase =>
      have owner := before isOpen
      rw [phase] at owner
      exact owner
  | consumerTaken phase =>
      have owner := before isOpen
      rw [phase] at owner
      rcases owner with stored | stored | own | held | taken
      · exact .byPublishConn stored
      · apply Links.Owns.byClose
        simp [CloseOnce.connections, AmqpHandle.connection?, stored]
      · exact .byPublisher own
      · exact .bySession held
      · cases taken
  | publisherTaken phase =>
      have owner := before isOpen
      rw [phase] at owner
      rcases owner with stored | stored | own | held | taken
      · apply Links.Owns.byClose
        simp [CloseOnce.connections, AmqpHandle.connection?, stored]
      · exact .byConsumerConn stored
      · exact .byPublisher own
      · exact .bySession held
      · apply Links.Owns.byClose
        simp only [CloseOnce.connections, List.filterMap_append, List.mem_append] at taken ⊢
        exact Or.inl taken
  | @handleClosed handle left answer phase =>
      cases handle with
      | channel target =>
          have was : connection ∈ s.amqp.openConnections := by
            simpa [AmqpHandle.close] using isOpen
          have owner := before was
          rw [phase] at owner
          exact owner
      | connection target =>
          obtain ⟨was, other⟩ := mem_closeAMQPConnection.mp isOpen
          have owner := before was
          rw [phase] at owner
          rcases owner with stored | stored | own | held | taken
          · exact .byPublishConn stored
          · exact .byConsumerConn stored
          · exact .byPublisher own
          · exact .bySession held
          · apply Links.Owns.byClose
            obtain ⟨handle, listed, same⟩ := List.mem_filterMap.mp taken
            rcases List.mem_cons.mp listed with rfl | later
            · exact absurd same other
            · exact List.mem_filterMap.mpr ⟨handle, later, same⟩
  | closeReturned phase =>
      have owner := before isOpen
      rw [phase] at owner
      exact owner

omit [DecidableEq Payload] in
theorem step_paired : after.publishChannel.map AmqpChannel.connection = after.publishConn := by
  cases effect with
  | invalidated => rfl
  | publisherTaken => rfl
  | @publisherCalled opening answer phase =>
      have consistent := Opening.consistent_advance (linked.preparing opening phase).2
        ensurePublisherCalls s.amqp answer
      generalize (opening.advance ensurePublisherCalls s.amqp answer).2 = next at consistent ⊢
      cases next with
      | opened connection channel => exact congrArg some consistent
      | goesOn later => exact linked.paired
      | failed error => exact linked.paired
  | _ => exact linked.paired

omit [DecidableEq Payload] in
theorem step_preparing (opening : Opening) (phase : after.publisher = .opening opening) :
    after.publishConn = none ∧ opening.Consistent := by
  cases effect with
  | entered => cases phase
  | advanced _ _ goesOn => exact absurd phase (goesOn opening)
  | @invalidated error =>
      refine ⟨rfl, ?_⟩
      cases error with
      | none =>
          cases phase
          trivial
      | some error => cases phase
  | @publisherCalled before answer phaseBefore =>
      obtain ⟨unset, consistent⟩ := linked.preparing before phaseBefore
      have next := Opening.consistent_advance consistent ensurePublisherCalls s.amqp answer
      rw [links_afterPublisherCall] at phase ⊢
      generalize (before.advance ensurePublisherCalls s.amqp answer).2 = later at next phase
      cases later with
      | goesOn later =>
          cases phase
          exact ⟨unset, next⟩
      | opened connection channel => cases phase
      | failed error => cases phase
  | publisherTaken => exact ⟨rfl, (linked.preparing opening phase).2⟩
  | _ => exact linked.preparing opening phase

omit [DecidableEq Payload] in
theorem step_consumer : after.session.Stores after.consumerConn := by
  have before : s.consumeLoop.session.Stores s.consumerConn := linked.consumer
  cases effect with
  | publisherCalled =>
      rw [links_afterPublisherCall]
      exact before
  | @consumerCalled opening answer phase =>
      rw [phase] at before
      generalize (opening.advance openConsumerCalls s.amqp answer).2 = next
      cases next <;> exact before
  | began phase =>
      rw [phase] at before
      exact before
  | left => trivial
  | stored => rfl
  | cleared phase =>
      rw [phase] at before
      exact if_pos before
  | tornDown phase =>
      rw [phase] at before
      exact before
  | finished => trivial
  | consumerTaken phase =>
      have returned : s.consumeLoop.session = .returned :=
        linked.stopped (linked.waited (by rw [EventQueue.links, phase]; trivial))
      show s.consumeLoop.session.Stores none
      rw [returned]
      trivial
  | _ => exact before

omit [DecidableEq Payload] in
theorem step_stopped (returned : after.stopOnce = .returned) : after.session = .returned := by
  have before : s.stopOnce = .returned → s.consumeLoop.session = .returned := linked.stopped
  cases effect with
  | publisherCalled =>
      rw [links_afterPublisherCall] at returned ⊢
      exact before returned
  | consumerCalled phase => cases phase.symm.trans (before returned)
  | began phase => cases phase.symm.trans (before returned)
  | left phase =>
      rcases phase with phase | ⟨connection, phase⟩
      · cases phase.symm.trans (before returned)
      · cases phase.symm.trans (before returned)
  | stored phase => cases phase.symm.trans (before returned)
  | cleared phase => cases phase.symm.trans (before returned)
  | tornDown phase => cases phase.symm.trans (before returned)
  | finished => rfl
  | stopCalled => cases returned
  | stopReturned phase => exact phase
  | closeCalled =>
      apply before
      simp only [EventQueue.stop] at returned
      split at returned
      · cases returned
      · exact returned
  | _ => exact before returned

omit [DecidableEq Payload] in
theorem step_waited (past : after.closeOnce.Stopped) : after.stopOnce = .returned := by
  have before : s.closeOnce.Stopped → s.stopOnce = .returned := linked.waited
  cases effect with
  | publisherCalled =>
      rw [links_afterPublisherCall] at past ⊢
      exact before past
  | stopCalled first => cases first.symm.trans (before past)
  | stopReturned => rfl
  | closeCalled => exact past.elim
  | closeStopped _ returned => exact returned
  | consumerTaken phase => exact before (by rw [phase]; trivial)
  | publisherTaken phase => exact before (by rw [phase]; trivial)
  | handleClosed phase => exact before (by rw [phase]; trivial)
  | closeReturned phase => exact before (by rw [phase]; trivial)
  | _ => exact before past

omit [DecidableEq Payload] in
theorem step_consumerTaken (past : after.closeOnce.ConsumerTaken) : after.consumerConn = none := by
  have before : s.closeOnce.ConsumerTaken → s.consumerConn = none := linked.consumerTaken
  cases effect with
  | publisherCalled =>
      rw [links_afterPublisherCall] at past ⊢
      exact before past
  | stored phase =>
      -- the loop has returned before anything is taken
      have returned : s.consumeLoop.session = .returned := by
        apply linked.stopped
        apply linked.waited
        change s.closeOnce.ConsumerTaken at past
        change s.closeOnce.Stopped
        generalize s.closeOnce = closeOnce at past
        cases closeOnce with
        | notCalled => exact past
        | stopping => exact past
        | _ => trivial
      cases phase.symm.trans returned
  | cleared =>
      show (if s.consumerConn = _ then none else s.consumerConn) = none
      rw [before past, ite_self]
  | closeCalled => exact past.elim
  | closeStopped => exact past.elim
  | consumerTaken => rfl
  | publisherTaken phase => exact before (by rw [phase]; trivial)
  | handleClosed phase => exact before (by rw [phase]; trivial)
  | closeReturned phase => exact before (by rw [phase]; trivial)
  | _ => exact before past

omit [DecidableEq Payload] in
theorem step_publisherTaken (early : action = .publish → ¬ s.closeOnce.PublisherTaken)
    (past : after.closeOnce.PublisherTaken) :
    after.publishConn = none ∧ after.publisher = .idle := by
  have before : s.closeOnce.PublisherTaken → s.publishConn = none ∧ s.publisher = .idle :=
    linked.publisherTaken
  cases effect with
  | entered => exact absurd past (early rfl)
  | advanced busy => exact absurd (before past).2 busy
  | invalidated phase => cases phase.symm.trans (before past).2
  | publisherCalled phase =>
      rw [links_afterPublisherCall] at past
      cases phase.symm.trans (before past).2
  | closeCalled => exact past.elim
  | closeStopped => exact past.elim
  | consumerTaken => exact past.elim
  | publisherTaken _ idle => exact ⟨rfl, idle⟩
  | handleClosed phase => exact before (by rw [phase]; trivial)
  | closeReturned phase => exact before (by rw [phase]; trivial)
  | _ => exact before past

end Linked

/-- The connections are linked in the queue's state. -/
def QueueLinked (s : EventQueue Payload) : Prop := Linked s.links

theorem queueLinked (reached : QueueReachableVia codec config limits PublishBeforeClose s) :
    QueueLinked s := by
  refine reached.invariant ?_ ?_
  · constructor
    · intro connection isOpen
      cases isOpen
    · rfl
    · intro opening phase
      cases phase
    · rfl
    · intro returned
      cases returned
    · exact False.elim
    · exact False.elim
    · exact False.elim
  · intro before action after _ linked taken early
    have effect := step_links taken
    have publishes : action = .publish → ¬ before.closeOnce.PublisherTaken := by
      rintro rfl
      exact early
    exact
      { owned := Linked.step_owned linked effect
        paired := Linked.step_paired linked effect
        preparing := Linked.step_preparing linked effect
        consumer := Linked.step_consumer linked effect
        stopped := Linked.step_stopped linked effect
        waited := Linked.step_waited linked effect
        consumerTaken := Linked.step_consumerTaken linked effect
        publisherTaken := Linked.step_publisherTaken linked effect publishes }

/-! ### No leak -/

/-- The loop is neither opening a consumer nor tearing one down. -/
def ConsumeLoop.Steady : ConsumeLoop Payload → Prop
  | .opening _ | .setting _ _ | .clearing _ _ | .closingChannel _ _ | .closingConnection _ => False
  | _ => True

/-- No `Publish` or `Close` call, no opening and no teardown of the consumer is in progress. -/
structure EventQueue.Quiescent (s : EventQueue Payload) : Prop where
  publisher : s.publisher = .idle
  close : s.closeOnce = .notCalled ∨ s.closeOnce = .returned
  loop : s.consumeLoop.Steady

/-- `publishConn` and `publishChannel` are both nil or both set, the channel on the connection. -/
def EventQueue.PublisherPaired (s : EventQueue Payload) : Prop :=
  (s.publishConn = none ∧ s.publishChannel = none) ∨
    ∃ connection channel, s.publishConn = some connection ∧ s.publishChannel = some channel ∧
      channel.connection = connection

omit [DecidableEq Payload] in
theorem Linked.publisherPaired (linked : Linked s.links) : s.PublisherPaired := by
  have paired : s.publishChannel.map AmqpChannel.connection = s.publishConn := linked.paired
  cases found : s.publishChannel with
  | none =>
      rw [found] at paired
      exact Or.inl ⟨paired.symm, found⟩
  | some channel =>
      rw [found] at paired
      exact Or.inr ⟨channel.connection, channel, paired.symm, found, rfl⟩

omit [DecidableEq Payload] in
theorem ConsumeLoop.Steady.connection? {loop : ConsumeLoop Payload} (steady : loop.Steady) :
    loop.session.connection? = none := by
  cases loop with
  | opening => exact steady.elim
  | setting => exact steady.elim
  | clearing => exact steady.elim
  | closingChannel => exact steady.elim
  | closingConnection => exact steady.elim
  | _ => rfl

omit [DecidableEq Payload] in
theorem Linked.stored_of_quiescent (linked : Linked s.links) (quiescent : s.Quiescent)
    {connection : Nat} (isOpen : connection ∈ s.amqp.openConnections) :
    s.publishConn = some connection ∨ s.consumerConn = some connection := by
  have owner : s.publishConn = some connection ∨ s.consumerConn = some connection ∨
      s.publisher.connection? = some connection ∨
      s.consumeLoop.session.connection? = some connection ∨
      connection ∈ s.closeOnce.connections := linked.owned connection isOpen
  rcases owner with stored | stored | own | held | taken
  · exact Or.inl stored
  · exact Or.inr stored
  · rw [quiescent.publisher] at own
    cases own
  · rw [quiescent.loop.connection?] at held
    cases held
  · rcases quiescent.close with phase | phase
    · rw [phase] at taken
      cases taken
    · rw [phase] at taken
      cases taken

omit [DecidableEq Payload] in
theorem Linked.closed_of_returned (linked : Linked s.links) (returned : s.closeOnce = .returned)
    (connection : Nat) : connection ∉ s.amqp.openConnections := by
  intro isOpen
  have past : s.links.closeOnce.PublisherTaken := by
    rw [EventQueue.links, returned]
    trivial
  have gone : s.consumerConn = none := by
    apply linked.consumerTaken
    rw [EventQueue.links, returned]
    trivial
  have ended : s.consumeLoop.session = .returned := by
    apply linked.stopped
    apply linked.waited
    rw [EventQueue.links, returned]
    trivial
  obtain ⟨unset, idle⟩ := linked.publisherTaken past
  have owner := linked.owned connection isOpen
  simp [Links.Owns, EventQueue.links, returned, gone, ended, show s.publishConn = none from unset,
    show s.publisher = .idle from idle, Publisher.connection?, Session.connection?,
    CloseOnce.connections] at owner

/-- Over every schedule with no `Publish` after `Close`: whenever no call is in the middle of
opening or closing one, every connection ever opened is closed or stored, the publisher's channel
belongs to its connection, and after `Close` has returned all of them are closed. -/
theorem no_connection_leak (reached : QueueReachableVia codec config limits PublishBeforeClose s) :
    (s.Quiescent →
      (∀ connection < s.amqp.dialled, connection ∉ s.amqp.openConnections ∨
        s.publishConn = some connection ∨ s.consumerConn = some connection) ∧
      s.PublisherPaired) ∧
    (s.closeOnce = .returned →
      ∀ connection < s.amqp.dialled, connection ∉ s.amqp.openConnections) := by
  have linked : Linked s.links := queueLinked reached
  constructor
  · intro quiescent
    refine ⟨?_, linked.publisherPaired⟩
    intro connection _
    by_cases isOpen : connection ∈ s.amqp.openConnections
    · exact Or.inr (linked.stored_of_quiescent quiescent isOpen)
    · exact Or.inl isOpen
  · intro returned connection _
    exact linked.closed_of_returned returned connection

end Steps

/-- The consumer is connected, the publisher publishes, the consumer loses its connection and opens
another one, and the queue is closed. -/
def reconnectRun : List (QueueAction String) :=
  openConsumerCallsOn 0 (Sample.channel 0) ++ publishCallsOn 1 (Sample.channel 1) ++
    [.dropConnection 0,
      .deliveriesClosed 0 (Sample.channel 0),
      .afterForward 0 (Sample.channel 0),
      .clearConsumer 0 (Sample.channel 0),
      .closeConsumerChannel 0 (Sample.channel 0) none,
      .closeConsumerConnection 0,
      .retryTimer] ++
    openConsumerCallsOn 2 (Sample.channel 2) ++
    [.close,
      .forwardCancelled 2 (Sample.channel 2),
      .afterForward 2 (Sample.channel 2),
      .closeEvents,
      .stopReturns,
      .closeStopped,
      .takeConsumer,
      .takePublisher [.channel (some (Sample.channel 2)), .connection (some 2)],
      .closeHandle (.channel (some (Sample.channel 2)))
        [.connection (some 2), .channel (some (Sample.channel 1)), .connection (some 1)] none,
      .closeHandle (.connection (some 2))
        [.channel (some (Sample.channel 1)), .connection (some 1)] none,
      .closeHandle (.channel (some (Sample.channel 1))) [.connection (some 1)] none,
      .closeHandle (.connection (some 1)) [] none,
      .closeReturns]

set_option maxRecDepth 4000 in
theorem no_connection_leak_of_reconnectRun :
    ∃ s, run (queueStep Codec.text (readConfig fun _ => none) Sample.limits) EventQueue.initial
        reconnectRun = some s ∧
      s.amqp.dialled = 3 ∧
      ∀ connection < s.amqp.dialled, connection ∉ s.amqp.openConnections := by
  have ran : (run (queueStep Codec.text (readConfig fun _ => none) Sample.limits)
      EventQueue.initial reconnectRun).map (fun s => (s.closeOnce, s.amqp.dialled)) =
        some (.returned, 3) := by
    decide +kernel
  obtain ⟨s, reaches, both⟩ := Option.map_eq_some_iff.mp ran
  obtain ⟨returned, dialled⟩ := Prod.mk.inj both
  have early : Along (queueStep Codec.text (readConfig fun _ => none) Sample.limits)
      PublishBeforeClose EventQueue.initial reconnectRun := by
    decide +kernel
  exact ⟨s, reaches, dialled, (no_connection_leak (.of_run .start early reaches)).2 returned⟩

end WebhookProcessor
