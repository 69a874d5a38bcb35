/-
Module: WebhookProcessor.Proofs.Publication
Layer: Proofs
Purpose: Concurrent dispatchers publish an outbox row at most once per opening, as long as every
  `DispatchPending` call ends before its reservation expires.  A claimed message belongs to one
  dispatcher, whose token its row carries, and every opening of a row pays for one message.
Trusted boundary: one clock for all replicas; dispatch tokens are pairwise distinct
Main exports: DispatchTimely, FaultlessDispatch, HandsReserved, PublicationsPaid,
  published_at_most_once_per_opening
-/
import WebhookProcessor.Model.Calls
import WebhookProcessor.Proofs.ClaimedBatches
import WebhookProcessor.Proofs.HistoryEffects
import WebhookProcessor.Proofs.Transactions

namespace WebhookProcessor

open Transition

variable {Payload : Type}

/-- No reservation of a running `DispatchPending` call has expired. -/
def DispatchTimely (config : Config) (s : System Payload) : Prop :=
  ∀ d time, (s.dispatchers d).claimedAt? = some time →
    s.clock < time + config.outboxDispatchLease

/-- Tokens are drawn afresh, no database call of a dispatcher fails, no dispatcher crashes and a
`Publish` that returns an error has not enqueued the message. -/
def FaultlessDispatch (before : System Payload) (action : Action Payload) : Prop :=
  match action with
  | .claimPendingOutbox _ _ _ token _ outcome => outcome = .ok ∧ token ∉ before.history.tokens
  | .markOutboxPublished _ _ _ _ _ _ outcome => outcome = .ok
  | .markOutboxFailed _ _ _ _ outcome => outcome = .ok
  | .publishUnconfirmed _ _ _ _ _ _ => False
  | .crashDispatcher _ => False
  | _ => True

instance (before : System Payload) (action : Action Payload) :
    Decidable (FaultlessDispatch before action) := by
  apply Action.casesOn (motive := fun action => Decidable (FaultlessDispatch before action)) action
  all_goals
    intros
    delta FaultlessDispatch
    infer_instance

/-- The row that a claimed message stands for is reserved for its dispatcher. -/
structure HandsReserved (s : System Payload) : Prop where
  row : ∀ d, ∀ message ∈ (s.dispatchers d).hand,
    ∃ row time, s.db.outboxFor? message.event.id = some row ∧
      row.ReservedFor message.id message.dispatchToken ∧ row.dispatchingAt = some time ∧
      (s.dispatchers d).claimedAt? = some time
  drawn : ∀ d, ∀ message ∈ (s.dispatchers d).hand, message.dispatchToken ∈ s.history.tokens
  apart : ∀ d e, ∀ message ∈ (s.dispatchers d).hand, ∀ other ∈ (s.dispatchers e).hand,
    message.dispatchToken = other.dispatchToken → d = e
  distinct : ∀ d, ((s.dispatchers d).hand.map OutboxMessage.id).Nodup

variable [DecidableEq Payload] {codec : Codec Payload} {config : Config} {s s' : System Payload}
  {action : Action Payload}

namespace HandsReserved

omit [DecidableEq Payload] in
/-- No row in a dispatcher's hands can be claimed again. -/
theorem not_claimable (reserved : HandsReserved s) (timely : DispatchTimely config s) {d : Nat}
    {message : OutboxMessage Payload} (held : message ∈ (s.dispatchers d).hand) {row : OutboxRow}
    (found : s.db.outboxFor? message.event.id = some row) {now : Time} (sampled : now ≤ s.clock) :
    ¬ row.Claimable now config.outboxDispatchLease := by
  obtain ⟨own, time, foundOwn, _, dispatching, claimedAt⟩ := reserved.row d message held
  have onTime := timely d time claimedAt
  cases found.symm.trans foundOwn
  rintro ⟨_, unreserved | expired⟩
  · simp [dispatching] at unreserved
  · rw [dispatching, atOrBefore_some] at expired
    unfold Time at *
    omega

omit [DecidableEq Payload] in
/-- Two claimed messages whose rows carry the same token are in the same hands. -/
theorem holder_unique (reserved : HandsReserved s) {d e : Nat}
    {message other : OutboxMessage Payload} (held : message ∈ (s.dispatchers d).hand)
    (otherHeld : other ∈ (s.dispatchers e).hand) {row : OutboxRow}
    (found : s.db.outboxFor? message.event.id = some row)
    (reservedFor : row.ReservedFor other.id other.dispatchToken) :
    d = e ∧ message.id = other.id := by
  obtain ⟨own, _, foundOwn, ⟨ownId, _, ownToken⟩, _⟩ := reserved.row d message held
  cases found.symm.trans foundOwn
  obtain ⟨otherId, _, otherToken⟩ := reservedFor
  have sameToken := Option.some.inj (ownToken.symm.trans otherToken)
  exact ⟨reserved.apart d e message held other otherHeld sameToken, ownId.symm.trans otherId⟩

/-- The rows of a claim carry its token and its time. -/
private theorem row_of_claim {d limit : Nat} {now : Time} {token : String} {order : List Nat}
    (taken : step codec config s (.claimPendingOutbox d limit now token order .ok) = some s')
    {batch : List (OutboxMessage Payload)}
    (scanned : scanClaimed codec token (s.db.claimPendingOutbox limit config.outboxDispatchLease now
      token).1 order = some batch)
    {message : OutboxMessage Payload} (member : message ∈ batch) :
    ∃ row, s'.db.outboxFor? message.event.id = some row ∧
      row.ReservedFor message.id message.dispatchToken ∧ row.dispatchingAt = some now := by
  obtain ⟨sameToken, row, candidate, sameId, sameEvent, _⟩ := mem_claimed scanned member
  have unpublished := (s.db.mem_outboxCandidates candidate).2.1.1
  simp only [step, Option.ite_none_right_eq_some, Option.some.injEq] at taken
  obtain ⟨_, rfl⟩ := taken
  refine ⟨row.reserve token now, ?_, ⟨sameId.symm, unpublished, by rw [sameToken]; rfl⟩, rfl⟩
  rw [sameEvent]
  exact s.db.outboxFor?_of_candidate candidate token

/-- A dispatcher that keeps a message keeps the time of its claim, and has not just marked it. -/
private theorem claimedAt?_of_kept (reserved : HandsReserved s)
    (taken : step codec config s action = some s') {d : Nat} {message : OutboxMessage Payload}
    (held : message ∈ (s.dispatchers d).hand) (kept : message ∈ (s'.dispatchers d).hand) :
    (s'.dispatchers d).claimedAt? = (s.dispatchers d).claimedAt? ∧
      ∀ claimedAt other opening rest now outcome,
        action = .markOutboxPublished d claimedAt other opening rest now outcome →
        other.id ≠ message.id := by
  have effect := step_dispatcher taken d
  generalize s'.dispatchers d = dispatcher at effect kept
  cases effect with
  | unchanged other =>
      refine ⟨rfl, ?_⟩
      rintro _ _ _ _ _ _ rfl
      exact absurd rfl other
  | claimed idle =>
      rw [idle] at held
      cases held
  | claimedNothing => cases kept
  | confirmed phase => exact ⟨by rw [phase]; rfl, by rintro _ _ _ _ _ _ ⟨⟩⟩
  | refused phase => exact ⟨by rw [phase]; rfl, by rintro _ _ _ _ _ _ ⟨⟩⟩
  | unconfirmed phase => exact ⟨by rw [phase]; rfl, by rintro _ _ _ _ _ _ ⟨⟩⟩
  | @marked claimedAt marked opening rest now phase =>
      rw [Dispatcher.hand_loop] at kept
      have distinct := reserved.distinct d
      rw [phase] at distinct ⊢
      have fresh := (List.nodup_cons.mp distinct).1
      refine ⟨?_, ?_⟩
      · cases rest with
        | nil => cases kept
        | cons next later => rfl
      · intro _ other _ _ _ _ same marksSame
        cases same
        exact fresh (List.mem_map.mpr ⟨message, kept, marksSame.symm⟩)
  | markMissed => cases kept
  | released => cases kept
  | crashed => cases kept

private theorem step_row (reserved : HandsReserved s) (timely : DispatchTimely config s)
    (taken : step codec config s action = some s') (d : Nat) (message : OutboxMessage Payload)
    (member : message ∈ (s'.dispatchers d).hand) :
    ∃ row time, s'.db.outboxFor? message.event.id = some row ∧
      row.ReservedFor message.id message.dispatchToken ∧ row.dispatchingAt = some time ∧
      (s'.dispatchers d).claimedAt? = some time := by
  rcases hand_of_step taken member with held | ⟨limit, now, token, order, batch, rfl, _, _, _,
    scanned, claimed⟩
  · obtain ⟨row, time, found, reservedFor, dispatching, claimedAt⟩ := reserved.row d message held
    obtain ⟨sameTime, notMarked⟩ := reserved.claimedAt?_of_kept taken held member
    rw [claimedAt] at sameTime
    have effect := step_outbox taken message.event.id
    generalize s'.db.outboxFor? message.event.id = after at effect
    cases effect with
    | unchanged => exact ⟨row, time, found, reservedFor, dispatching, sameTime⟩
    | accepted _ _ absent => simp [found] at absent
    | created _ _ _ absent => simp [found] at absent
    | reserved _ sampled foundRow candidate =>
        have claimable := (s.db.mem_outboxCandidates candidate).2.1
        exact absurd claimable (reserved.not_claimable timely held foundRow sampled)
    | @published e _ other _ _ _ _ _ phase _ foundRow holds =>
        have otherHeld : other ∈ (s.dispatchers e).hand := by
          rw [phase]
          exact List.mem_cons_self
        obtain ⟨rfl, sameId⟩ := reserved.holder_unique held otherHeld foundRow holds
        exact absurd sameId.symm (notMarked _ _ _ _ _ _ rfl)
    | @released e _ other _ _ _ phase _ foundRow holds =>
        have otherHeld : other ∈ (s.dispatchers e).hand := by
          rw [phase]
          exact List.mem_cons_self
        obtain ⟨rfl, _⟩ := reserved.holder_unique held otherHeld foundRow holds
        -- the dispatcher that releases a row leaves its loop
        have left := step_dispatcher taken d
        generalize s'.dispatchers d = dispatcher at left member
        cases left with
        | unchanged acting => exact absurd rfl acting
        | released => cases member
    | @reopened _ _ _ old _ _ _ foundRow =>
        cases found.symm.trans foundRow
        exact ⟨row.reopen, time, rfl, ⟨reservedFor.1, rfl, reservedFor.2.2⟩, dispatching, sameTime⟩
  · obtain ⟨row, found, reservedFor, dispatching⟩ := row_of_claim taken scanned claimed
    refine ⟨row, now, found, reservedFor, dispatching, ?_⟩
    have effect := step_dispatcher taken d
    generalize s'.dispatchers d = dispatcher at effect member
    cases effect with
    | unchanged acting => exact absurd rfl acting
    | @claimed _ _ _ _ batch' =>
        cases batch' with
        | nil => cases member
        | cons => rfl
    | claimedNothing => cases member

private theorem step_drawn (reserved : HandsReserved s)
    (taken : step codec config s action = some s') (d : Nat) (message : OutboxMessage Payload)
    (member : message ∈ (s'.dispatchers d).hand) :
    message.dispatchToken ∈ s'.history.tokens := by
  rw [step_tokens taken]
  rcases hand_of_step taken member with held | ⟨limit, now, token, order, batch, rfl, _, _, _,
    scanned, claimed⟩
  · exact List.mem_append_left _ (reserved.drawn d message held)
  · rw [(mem_claimed scanned claimed).1]
    exact List.mem_append_right _ (List.mem_singleton_self token)

private theorem step_apart (reserved : HandsReserved s)
    (taken : step codec config s action = some s') (faultless : FaultlessDispatch s action)
    (d e : Nat) (message : OutboxMessage Payload) (member : message ∈ (s'.dispatchers d).hand)
    (other : OutboxMessage Payload) (otherMember : other ∈ (s'.dispatchers e).hand)
    (same : message.dispatchToken = other.dispatchToken) : d = e := by
  rcases hand_of_step taken member with held | ⟨limit, now, token, order, batch, rfl, _, _, _,
    scanned, claimed⟩
  · rcases hand_of_step taken otherMember with otherHeld | ⟨_, _, token, _, _, rfl, _, _, _,
      scanned, claimed⟩
    · exact reserved.apart d e message held other otherHeld same
    · have drawn := reserved.drawn d message held
      rw [same, (mem_claimed scanned claimed).1] at drawn
      exact absurd drawn faultless.2
  · rcases hand_of_step taken otherMember with otherHeld | ⟨_, _, _, _, _, acts, _⟩
    · have drawn := reserved.drawn e other otherHeld
      rw [← same, (mem_claimed scanned claimed).1] at drawn
      exact absurd drawn faultless.2
    · exact (Action.claimPendingOutbox.inj acts).1

private theorem step_distinct (reserved : HandsReserved s)
    (taken : step codec config s action = some s') (d : Nat) :
    ((s'.dispatchers d).hand.map OutboxMessage.id).Nodup := by
  have before := reserved.distinct d
  have effect := step_dispatcher taken d
  generalize s'.dispatchers d = dispatcher at effect
  cases effect with
  | unchanged => exact before
  | claimed _ _ returned scanned =>
      rw [Dispatcher.hand_loop]
      exact (ids_claimed scanned returned).nodup_iff.mpr (s.db.outboxCandidates_nodup _ _ _)
  | confirmed phase =>
      rw [phase] at before
      exact before
  | refused => exact List.nodup_singleton _
  | unconfirmed => exact List.nodup_singleton _
  | marked phase =>
      rw [phase] at before
      rw [Dispatcher.hand_loop]
      exact (List.nodup_cons.mp before).2
  | claimedNothing => exact List.nodup_nil
  | markMissed => exact List.nodup_nil
  | released => exact List.nodup_nil
  | crashed => exact List.nodup_nil

theorem of_step (reserved : HandsReserved s) (timely : DispatchTimely config s)
    (taken : step codec config s action = some s') (faultless : FaultlessDispatch s action) :
    HandsReserved s' :=
  { row := reserved.step_row timely taken
    drawn := reserved.step_drawn taken
    apart := reserved.step_apart taken faultless
    distinct := reserved.step_distinct taken }

end HandsReserved

/-! ### Every opening pays for one message -/

/-- The number of messages ever enqueued for the event. -/
def enqueuedFor (s : System Payload) (id : EventId) : Nat :=
  s.history.enqueued.countP fun message => message.messageId = id

/-- A dispatcher has published the event's row and not marked it yet. -/
def InDoubt (s : System Payload) (id : EventId) : Prop :=
  ∃ d claimedAt message opening rest,
    s.dispatchers d = .published claimedAt message opening rest ∧ message.event.id = id

/-- The messages of an event never outnumber its openings, and an unpublished row that is not in
doubt has one in reserve. -/
structure PublicationsPaid (s : System Payload) : Prop where
  paid : ∀ id, enqueuedFor s id ≤ s.history.openings id
  credit : ∀ id row, s.db.outboxFor? id = some row → row.publishedAt = none → ¬ InDoubt s id →
    enqueuedFor s id < s.history.openings id

theorem step_enqueuedFor (taken : step codec config s action = some s') (id : EventId) :
    enqueuedFor s' id = enqueuedFor s id +
      (action.sends s.history.openings).countP fun message => message.messageId = id := by
  rw [enqueuedFor, step_enqueued taken, List.countP_append]
  rfl

/-- A sent message is in doubt until it is marked. -/
private theorem inDoubt_of_send (taken : step codec config s action = some s')
    (faultless : FaultlessDispatch s action) {sent : Message}
    (member : sent ∈ action.sends s.history.openings) : InDoubt s' sent.messageId := by
  cases action
  all_goals simp only [Action.sends, List.mem_singleton, List.not_mem_nil] at member
  case publishConfirmed d claimedAt message rest body =>
      simp only [step, Option.ite_none_right_eq_some, Option.some.injEq] at taken
      obtain ⟨_, rfl⟩ := taken
      cases member
      exact ⟨d, claimedAt, message, s.history.openings message.event.id, rest,
        by simp [System.setDispatcher], rfl⟩
  case publishUnconfirmed => exact faultless.elim

omit [DecidableEq Payload] in
private theorem countP_sends_eq_zero {id : EventId}
    (unsent : ¬ ∃ message ∈ action.sends s.history.openings, message.messageId = id) :
    (action.sends s.history.openings).countP (fun message => message.messageId = id) = 0 := by
  rw [List.countP_eq_zero]
  intro message member same
  exact unsent ⟨message, member, by simpa using same⟩

namespace HandsReserved

omit [DecidableEq Payload] in
/-- While a dispatcher publishes a message, nobody else has its row in doubt. -/
theorem not_inDoubt (reserved : HandsReserved s) {d : Nat} {claimedAt : Time}
    {message : OutboxMessage Payload} {rest : List (OutboxMessage Payload)}
    (phase : s.dispatchers d = .publishing claimedAt message rest) :
    ¬ InDoubt s message.event.id := by
  rintro ⟨e, _, other, _, _, otherPhase, sameEvent⟩
  have held : message ∈ (s.dispatchers d).hand := by
    rw [phase]
    exact List.mem_cons_self
  have otherHeld : other ∈ (s.dispatchers e).hand := by
    rw [otherPhase]
    exact List.mem_cons_self
  obtain ⟨row, _, found, reservedFor, _⟩ := reserved.row e other otherHeld
  rw [sameEvent] at found
  obtain ⟨rfl, _⟩ := reserved.holder_unique held otherHeld found reservedFor
  rw [phase] at otherPhase
  cases otherPhase

/-- A row stops being in doubt only by being marked as published. -/
theorem inDoubt_of_step (reserved : HandsReserved s)
    (taken : step codec config s action = some s') (faultless : FaultlessDispatch s action)
    {id : EventId} (doubt : InDoubt s id) :
    InDoubt s' id ∨ ∀ row, s'.db.outboxFor? id = some row → row.publishedAt ≠ none := by
  obtain ⟨d, claimedAt, message, opening, rest, phase, rfl⟩ := doubt
  have held : message ∈ (s.dispatchers d).hand := by
    rw [phase]
    exact List.mem_cons_self
  obtain ⟨row, _, found, reservedFor, _⟩ := reserved.row d message held
  have effect := step_dispatcher taken d
  generalize after : s'.dispatchers d = dispatcher at effect
  cases effect with
  | unchanged => exact Or.inl ⟨d, claimedAt, message, opening, rest, after.trans phase, rfl⟩
  | marked markedPhase =>
      rw [phase] at markedPhase
      cases markedPhase
      refine Or.inr fun row' found' => ?_
      simp only [step, Option.ite_none_right_eq_some, Option.some.injEq] at taken
      obtain ⟨_, rfl⟩ := taken
      simp only [System.setDispatcher, Outcome.effective_ok, if_true,
        Database.outboxFor?_markOutboxPublished, found, Option.map_some,
        reservedFor, Option.some.injEq] at found'
      rw [← found']
      exact Option.some_ne_none _
  | markMissed missedPhase missed =>
      rw [phase] at missedPhase
      cases missedPhase
      have stored : row ∈ s.db.outbox.rows := (s.db.outboxFor?_eq_some_iff.mp found).1
      exact absurd ⟨faultless, row, stored, reservedFor⟩ missed
  | crashed => exact faultless.elim
  | claimed idle =>
      rw [phase] at idle
      cases idle
  | claimedNothing idle =>
      rw [phase] at idle
      cases idle
  | confirmed publishing =>
      rw [phase] at publishing
      cases publishing
  | refused publishing =>
      rw [phase] at publishing
      cases publishing
  | unconfirmed publishing =>
      rw [phase] at publishing
      cases publishing
  | released rejected =>
      rw [phase] at rejected
      cases rejected

end HandsReserved

namespace PublicationsPaid

omit [DecidableEq Payload] in
/-- Sending a message uses up the reserve of its row. -/
private theorem of_send (paid : PublicationsPaid s) (reserved : HandsReserved s) {d : Nat}
    {claimedAt : Time} {message : OutboxMessage Payload} {rest : List (OutboxMessage Payload)}
    (phase : s.dispatchers d = .publishing claimedAt message rest) :
    enqueuedFor s message.event.id < s.history.openings message.event.id := by
  have held : message ∈ (s.dispatchers d).hand := by
    rw [phase]
    exact List.mem_cons_self
  obtain ⟨row, _, found, reservedFor, _⟩ := reserved.row d message held
  exact paid.credit _ row found reservedFor.2.1 (reserved.not_inDoubt phase)

private theorem step_paid (paid : PublicationsPaid s) (reserved : HandsReserved s)
    (taken : step codec config s action = some s') (id : EventId) :
    enqueuedFor s' id ≤ s'.history.openings id := by
  have sends := step_enqueuedFor taken id
  have opens := step_openings taken id
  have before := paid.paid id
  by_cases sent : ∃ message ∈ action.sends s.history.openings, message.messageId = id
  · obtain ⟨message, member, rfl⟩ := sent
    obtain ⟨d, _, held, _, phase, sameEvent, _, _⟩ := sent_of_step taken member
    have reserve := paid.of_send reserved phase
    rw [← sameEvent] at reserve
    have single : (action.sends s.history.openings).length ≤ 1 := by
      cases action <;> simp [Action.sends]
    have atMost := List.countP_le_length (l := action.sends s.history.openings)
      (p := fun sent => sent.messageId = message.messageId)
    omega
  · rw [countP_sends_eq_zero sent] at sends
    omega

private theorem step_credit (reached : Reachable codec config s) (paid : PublicationsPaid s)
    (reserved : HandsReserved s) (taken : step codec config s action = some s')
    (faultless : FaultlessDispatch s action) (id : EventId) (row : OutboxRow)
    (found : s'.db.outboxFor? id = some row) (unpublished : row.publishedAt = none)
    (settled : ¬ InDoubt s' id) : enqueuedFor s' id < s'.history.openings id := by
  have sends := step_enqueuedFor taken id
  have opens := step_openings taken id
  have unsent : ¬ ∃ message ∈ action.sends s.history.openings, message.messageId = id := by
    rintro ⟨message, member, rfl⟩
    exact settled (inDoubt_of_send taken faultless member)
  rw [countP_sends_eq_zero unsent] at sends
  by_cases opened : action.opens? = some id
  · rw [if_pos opened] at opens
    have before := paid.paid id
    omega
  · rw [if_neg opened] at opens
    -- without an opening the row was unpublished before, and settled
    have settledBefore : ¬ InDoubt s id := by
      intro doubt
      rcases reserved.inDoubt_of_step taken faultless doubt with still | published
      · exact settled still
      · exact published row found unpublished
    have before : ∃ old, s.db.outboxFor? id = some old ∧ old.publishedAt = none := by
      have effect := step_outbox taken id
      rw [found] at effect
      generalize same : some row = after at effect
      cases effect with
      | unchanged => exact ⟨row, same.symm, unpublished⟩
      | accepted _ sameEvent => exact absurd (congrArg some sameEvent) opened
      | reopened _ _ sameEvent => exact absurd (congrArg some sameEvent) opened
      | created phase inserts =>
          have updates := (outboxSound reached).neverInserts _ _ (by rw [phase]; rfl)
          simp [updates] at inserts
      | reserved _ _ old =>
          cases same
          exact ⟨_, old, unpublished⟩
      | published =>
          cases same
          cases unpublished
      | released _ _ old =>
          cases same
          exact ⟨_, old, unpublished⟩
    obtain ⟨old, foundOld, unpublishedOld⟩ := before
    have reserve := paid.credit id old foundOld unpublishedOld settledBefore
    omega

end PublicationsPaid

/-- The side conditions of a step: the reservations hold and no dispatcher meets a fault. -/
def DispatchedInTime (config : Config) (before : System Payload) (action : Action Payload)
    (after : System Payload) : Prop :=
  DispatchTimely config after ∧ FaultlessDispatch before action

private theorem timely_of_reached
    (reached : ReachableVia codec config (DispatchedInTime config) s) :
    DispatchTimely config s := by
  cases reached with
  | start =>
      intro d time claimedAt
      cases claimedAt
  | step _ _ meets => exact meets.1

private theorem handsReserved
    (reached : ReachableVia codec config (DispatchedInTime config) s) : HandsReserved s := by
  refine reached.invariant ?_ ?_
  · constructor
    · intro d message member
      cases member
    · intro d message member
      cases member
    · intro d e message member
      cases member
    · intro d
      exact List.nodup_nil
  · intro before action after earlier reserved taken meets
    exact reserved.of_step (timely_of_reached earlier) taken meets.2

private theorem publicationsPaid
    (reached : ReachableVia codec config (DispatchedInTime config) s) : PublicationsPaid s := by
  refine reached.invariant ?_ ?_
  · constructor
    · intro id
      exact Nat.le_refl 0
    · intro id row found
      cases found
  · intro before action after earlier paid taken meets
    have reserved := handsReserved earlier
    exact
      { paid := paid.step_paid reserved taken
        credit := paid.step_credit earlier.reachable reserved taken meets.2 }

/-- If every `DispatchPending` call ends before its reservation expires and no dispatcher meets a
fault, no event has more messages than its outbox row has openings. -/
theorem published_at_most_once_per_opening
    (reached : ReachableVia codec config (DispatchedInTime config) s) (id : EventId) :
    (s.history.enqueued.filter fun message => message.messageId = id).length ≤
      s.history.openings id := by
  rw [← List.countP_eq_length_filter]
  exact (publicationsPaid reached).paid id

/-! ### Two dispatchers at work -/

/-- No dispatcher from number `n` on has ever been started. -/
def DispatchersIdleFrom (n : Nat) (s : System Payload) : Prop :=
  ∀ d, n ≤ d → s.dispatchers d = .idle

/-- With finitely many dispatchers the side conditions can be checked along a concrete run. -/
theorem along_dispatchedInTime_of_bounded (n : Nat) {actions : List (Action Payload)}
    (checked : Along (step codec config) (fun before action after =>
      (∀ d ∈ action.dispatcher?, d < n) ∧
      (∀ d < n, ∀ time ∈ (after.dispatchers d).claimedAt?,
        after.clock < time + config.outboxDispatchLease) ∧
      FaultlessDispatch before action) System.initial actions) :
    Along (step codec config) (DispatchedInTime config) System.initial actions := by
  have noneStarted : DispatchersIdleFrom n (System.initial : System Payload) := fun _ _ => rfl
  refine checked.imp_of_invariant ?_ noneStarted
  rintro before action after idle taken ⟨bounded, onTime, faultless⟩
  have stillIdle : DispatchersIdleFrom n after := by
    intro d beyond
    have other : action.dispatcher? ≠ some d := fun acting =>
      absurd (bounded d acting) (Nat.not_lt.mpr beyond)
    rw [step_dispatcher_other taken other]
    exact idle d beyond
  refine ⟨stillIdle, fun d time claimedAt => ?_, faultless⟩
  by_cases within : d < n
  · exact onTime d within time claimedAt
  · rw [stillIdle d (Nat.not_lt.mp within)] at claimedAt
    cases claimedAt

/-- Dispatcher 0 has sent the message and is about to mark it when dispatcher 1 looks for pending
rows; then the event fails and is replayed, and dispatcher 1 sends it again. -/
def twoDispatchersRun : List (Action String) :=
  Sample.sent ++
    [.tick 20,
      .claimPendingOutbox 1 10 20 "token-2" [] .ok,
      .markOutboxPublished 0 0 Sample.outboxMessage 1 [] 20 .ok] ++
    attemptStatements 0 Sample.message (Sample.claim 1 0) (some "timeout") ++
    failStatements 0 (Sample.claim 1 0) "timeout" Sample.event.payload 0 1 ++
    replayStatements (.http 0) (Sample.replayTx true) ++
    publishStatements 1 20 { Sample.outboxMessage with dispatchToken := "token-3" } Sample.body

set_option maxRecDepth 4000 in
theorem published_at_most_once_per_opening_of_twoDispatchersRun :
    ∃ s, run (step Codec.text Sample.config) System.initial twoDispatchersRun = some s ∧
      s.history.openings Sample.event.id = 2 ∧
      (s.history.enqueued.filter fun message => message.messageId = Sample.event.id).length ≤
        s.history.openings Sample.event.id := by
  have ran : (run (step Codec.text Sample.config) System.initial twoDispatchersRun).map
      (fun s => s.history.openings Sample.event.id) = some 2 := by
    decide +kernel
  obtain ⟨s, reaches, opened⟩ := Option.map_eq_some_iff.mp ran
  have meets : Along (step Codec.text Sample.config) (DispatchedInTime Sample.config)
      System.initial twoDispatchersRun :=
    along_dispatchedInTime_of_bounded 2 (by decide +kernel)
  exact ⟨s, reaches, opened, published_at_most_once_per_opening (.of_run .start meets reaches) _⟩

end WebhookProcessor
