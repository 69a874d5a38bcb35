/-
Module: WebhookProcessor.Proofs.DeliveryRuns
Layer: Proofs
Purpose: The two models of `handleDelivery` agree.  A worker of the concurrent model that nobody
  disturbs takes, statement by statement, the course that the sequential `handleDelivery` computes:
  the same database, the same calls of the processor and the same settlement.
Trusted boundary: none
Main exports: Mirrors, Follows, handleDelivery_run
-/
import WebhookProcessor.Proofs.ActorEffects
import WebhookProcessor.Proofs.Deliveries

namespace WebhookProcessor

open Transition

variable {Payload : Type}

/-- No other session commits anything during the call or holds a row of the event, and every `now`
it samples has passed. -/
structure Answers.Alone (answers : Answers) (s : System Payload) (id : EventId) : Prop where
  between : answers.between = fun db => db
  beforeMarkProcessed : answers.markProcessed.others = Interference.quiet
  beforeAdd : answers.add.others = Interference.quiet
  beforeMarkFailed : answers.markFailed.others = Interference.quiet
  claimedAt : answers.claimedAt ≤ s.clock
  markedProcessedAt : answers.markProcessed.now ≤ s.clock
  addedAt : answers.add.now ≤ s.clock
  markedFailedAt : answers.markFailed.now ≤ s.clock
  eventFree : s.db.locks (.event id) = none
  deadLetterFree : s.db.locks (.deadLetter id) = none

/-- The system stands where the journal does, with worker `w` in `phase`; only the worker and what
it writes have changed since `start`. -/
structure Mirrors (start s : System Payload) (w : Nat) (journal : Journal Payload)
    (phase : WorkerPhase Payload) : Prop where
  db : s.db = journal.db
  worker : s.workers w = { start.workers w with phase := phase }
  attempted : s.history.attempted =
    start.history.attempted ++ (journal.select WorkerCall.processed? ++ phase.attempted)
  openings : s.history.openings = start.history.openings
  ready : s.ready = start.ready
  clock : s.clock = start.clock
  locks : s.db.locks = start.db.locks

/-- An UPDATE that matches no row changes nothing. -/
theorem Database.claimEvent_of_unmatched (db : Database) {id : EventId} {lease now : Time}
    (unmatched : ¬ db.ClaimMatches id lease now) : db.claimEvent id lease now = db := by
  have unchanged : ∀ row ∈ db.events.rows, ¬ (row.id = id ∧ row.Claimable now lease) := by
    rintro row member ⟨same, claimable⟩
    exact unmatched ⟨row, member, same, claimable⟩
  exact congrArg (fun events => { db with events := events })
    (db.events.updateWhere_eq_self unchanged)

section Runs

variable [DecidableEq Payload] (codec : Codec Payload) (config : LoadedConfig)
  (start : System Payload) (w : Nat)

/-- Worker `w` alone takes the system from `start` to where the journal stands. -/
def Follows (journal : Journal Payload) (phase : WorkerPhase Payload) : Prop :=
  ∃ actions s, run (step codec config.toConfig) start actions = some s ∧
    (∀ action ∈ actions, action.worker? = some w) ∧ Mirrors start s w journal phase

variable {codec} {config} {start} {w} {journal : Journal Payload} {phase : WorkerPhase Payload}

omit [DecidableEq Payload] in
/-- A statement that reaches the store, outside a call of the processor. -/
theorem Mirrors.execute {s : System Payload} (mirrors : Mirrors start s w journal phase)
    (before : phase.attempted = []) {call : WorkerCall Payload} (silent : call.processed? = none)
    {db : Database} (sameLocks : db.locks = s.db.locks) {history : History Payload}
    (sameAttempted : history.attempted = s.history.attempted)
    (sameOpenings : history.openings = s.history.openings) {phase' : WorkerPhase Payload}
    (after : phase'.attempted = []) :
    Mirrors start ({ s with db := db, history := history }.setPhase w phase') w
      (journal.execute call db) phase' := by
  constructor
  · rfl
  · simp [System.setPhase, System.setWorker, mirrors.worker]
  · simpa [System.setPhase, System.setWorker, before, after, silent, sameAttempted]
      using mirrors.attempted
  · exact sameOpenings.trans mirrors.openings
  · exact mirrors.ready
  · exact mirrors.clock
  · exact sameLocks.trans mirrors.locks

theorem toInt_maxAttempts (nonneg : 0 ≤ config.maxRetries)
    (fits : config.maxRetries.toInt + 1 < 2 ^ 63) :
    (config.maxRetries + 1).toInt = config.toConfig.maxRetries + 1 := by
  have value := Int64.le_iff_toInt_le.mp nonneg
  rw [Int64.toInt_zero] at value
  have sum : (config.maxRetries + 1).toInt = config.maxRetries.toInt + 1 := by
    apply Machine.toInt_add_of_fits
    constructor
    · show -2 ^ 63 ≤ config.maxRetries.toInt + 1
      omega
    · exact fits
  rw [sum, show config.toConfig.maxRetries = config.maxRetries.toInt.toNat from rfl]
  omega

/-- The UPDATE of `ClaimForProcessing`. -/
theorem follows_claimUpdate (metrics : Metrics) {event : Event Payload} {answers : Answers}
    (alone : answers.Alone start event.id)
    (received : (start.workers w).phase = .received event) (claimed : Option Bool) :
    Follows codec config start w
      ((Journal.start start.db metrics).execute (.claimUpdate event.id claimed)
        (if answers.claimUpdate.Effective then
          start.db.claimEvent event.id config.processingLease.toInt answers.claimedAt
        else start.db))
      (afterClaim event answers.claimedAt (start.history.claims event.id + 1) answers.claimUpdate
        (start.db.ClaimMatches event.id config.processingLease.toInt answers.claimedAt)) := by
  have taken : step codec config.toConfig start
      (.claimForProcessing w event answers.claimedAt answers.claimUpdate) = _ :=
    if_pos ⟨received, alone.claimedAt, fun _ => alone.eventFree⟩
  refine ⟨[_], _, (run_cons taken []).trans rfl, ?_, ?_⟩
  · intro action member
    rw [List.mem_singleton.mp member]
    rfl
  · have written : (if answers.claimUpdate.Effective ∧
          start.db.ClaimMatches event.id config.processingLease.toInt answers.claimedAt then
          start.db.claimEvent event.id config.processingLease.toInt answers.claimedAt
        else start.db) =
        if answers.claimUpdate.Effective then
          start.db.claimEvent event.id config.processingLease.toInt answers.claimedAt
        else start.db := by
      by_cases matched :
          start.db.ClaimMatches event.id config.processingLease.toInt answers.claimedAt
      · simp only [matched, and_true]
      · simp only [matched, and_false, start.db.claimEvent_of_unmatched matched, ite_self]
    constructor
    · exact written
    · simp [System.setPhase, System.setWorker, LoadedConfig.toConfig]
    · simp [System.setPhase, System.setWorker, LoadedConfig.toConfig, Journal.start,
        Journal.select, Journal.execute, WorkerCall.processed?]
    · rfl
    · rfl
    · rfl
    · simp only [System.setPhase, System.setWorker]
      split
      · rfl
      · rfl

namespace Follows

/-- One more step of the worker. -/
theorem extend (follows : Follows codec config start w journal phase)
    (action : Action Payload) (own : action.worker? = some w) {journal' : Journal Payload}
    {phase' : WorkerPhase Payload}
    (taken : ∀ s, Mirrors start s w journal phase →
      ∃ s', step codec config.toConfig s action = some s' ∧
        Mirrors start s' w journal' phase') :
    Follows codec config start w journal' phase' := by
  obtain ⟨actions, s, ran, owned, mirrors⟩ := follows
  obtain ⟨s', steps, mirrors'⟩ := taken s mirrors
  refine ⟨actions ++ [action], s', run_trans ran ((run_cons steps []).trans rfl), ?_, mirrors'⟩
  intro other member
  rcases List.mem_append.mp member with earlier | last
  · exact owned other earlier
  · rw [List.mem_singleton.mp last]
    exact own

/-- What the concurrent model does not see leaves it where it stands. -/
theorem unseen (follows : Follows codec config start w journal phase) (journal' : Journal Payload)
    (sameDb : journal'.db = journal.db)
    (sameCalls : journal'.select WorkerCall.processed? = journal.select WorkerCall.processed?) :
    Follows codec config start w journal' phase := by
  obtain ⟨actions, s, ran, owned, mirrors⟩ := follows
  refine ⟨actions, s, ran, owned, ?_⟩
  constructor
  · rw [sameDb]
    exact mirrors.db
  · exact mirrors.worker
  · rw [sameCalls]
    exact mirrors.attempted
  · exact mirrors.openings
  · exact mirrors.ready
  · exact mirrors.clock
  · exact mirrors.locks

variable {answers : Answers} {claim : Claim Payload} {attempt : Int64} {n : Nat}

/-- The processor returns. -/
theorem processorReturns (follows : Follows codec config start w journal (.attempting claim n))
    (error : Option String) :
    Follows codec config start w (runProcessor answers claim.event attempt journal)
      (afterAttempt config.toConfig claim n error) := by
  apply follows.extend (.processorReturns w claim n error) rfl
  intro s mirrors
  have phase : (s.workers w).phase = .attempting claim n := by rw [mirrors.worker]
  refine ⟨_, if_pos phase, ?_⟩
  constructor
  · exact mirrors.db
  · simp [System.setPhase, System.setWorker, mirrors.worker]
  · simp [System.setPhase, System.setWorker, mirrors.attempted, runProcessor, WorkerPhase.attempted,
      WorkerCall.processed?]
  · exact mirrors.openings
  · exact mirrors.ready
  · exact mirrors.clock
  · exact mirrors.locks

/-- `processEventWithRetry` returns. -/
theorem returns {written : Bool} {settlement : Settlement}
    (follows : Follows codec config start w journal (.returning claim written settlement)) :
    Follows codec config start w journal (.settling claim.event settlement) := by
  apply follows.extend (.returns w claim written settlement) rfl
  intro s mirrors
  have phase : (s.workers w).phase = .returning claim written settlement := by rw [mirrors.worker]
  refine ⟨_, if_pos phase, ?_⟩
  constructor
  · exact mirrors.db
  · simp [System.setPhase, System.setWorker, mirrors.worker]
  · exact mirrors.attempted
  · exact mirrors.openings
  · exact mirrors.ready
  · exact mirrors.clock
  · exact mirrors.locks

/-- The end of `processEventWithRetry`: a persisted terminal status is acknowledged. -/
def ending (start : System Payload) (event : Event Payload) (persisted : Bool) :
    WorkerPhase Payload :=
  .settling event (if persisted then .ack (start.history.openings event.id) else .requeue)

theorem markProcessed (follows : Follows codec config start w journal (.succeeded claim n))
    (number : attempt.toInt = n) (alone : answers.Alone start claim.event.id) :
    Follows codec config start w
      (journal.markProcessed answers.markProcessed claim.event.id attempt).1
      (ending start claim.event
        (journal.markProcessed answers.markProcessed claim.event.id attempt).2) := by
  suffices written : Follows codec config start w
      (journal.markProcessed answers.markProcessed claim.event.id attempt).1
      (.returning claim (decide answers.markProcessed.outcome.Effective)
        (if (journal.markProcessed answers.markProcessed claim.event.id attempt).2 then
          .ack (start.history.openings claim.event.id) else .requeue)) from written.returns
  apply follows.extend (.markProcessed w claim n answers.markProcessed.now
    answers.markProcessed.outcome) rfl
  intro s mirrors
  have phase : (s.workers w).phase = .succeeded claim n := by rw [mirrors.worker]
  have sampled : answers.markProcessed.now ≤ s.clock := mirrors.clock ▸ alone.markedProcessedAt
  have free : s.db.locks (.event claim.event.id) = none := mirrors.locks ▸ alone.eventFree
  refine ⟨_, if_pos ⟨phase, sampled, fun _ => free⟩, ?_⟩
  simp only [Journal.markProcessed, alone.beforeMarkProcessed, Interference.quiet, id_eq,
    ← mirrors.db, number, Int.toNat_natCast, decide_eq_true_eq, ← mirrors.openings]
  apply mirrors.execute rfl rfl _ rfl rfl rfl
  split
  · rfl
  · rfl

/-- A payload that does not marshal ends like a statement that fails. -/
theorem addDeadLetter {error : String}
    (follows : Follows codec config start w journal (.exhausted claim n error))
    (number : attempt.toInt = n) (alone : answers.Alone start claim.event.id) :
    Follows codec config start w
      (journal.addDeadLetter codec answers.add claim.event error attempt).1
      (if answers.Added codec claim.event then .deadLettered claim n error
      else .returning claim false .requeue) := by
  cases marshalled : codec.marshal claim.event.payload with
  | none =>
      apply follows.extend (.saveDeadLetter w claim n error "" answers.add.now .failed) rfl
      intro s mirrors
      have phase : (s.workers w).phase = .exhausted claim n error := by rw [mirrors.worker]
      have sampled : answers.add.now ≤ s.clock := mirrors.clock ▸ alone.addedAt
      refine ⟨_, if_pos ⟨phase, sampled, fun effective => absurd rfl effective⟩, ?_⟩
      simp only [Journal.addDeadLetter, marshalled, alone.beforeAdd, Interference.quiet, id_eq,
        ← mirrors.db, Answers.Added]
      simp only [ne_eq, not_true_eq_false, false_and, if_false, reduceCtorEq]
      exact mirrors.execute rfl rfl rfl rfl rfl rfl
  | some payload =>
      apply follows.extend (.saveDeadLetter w claim n error payload answers.add.now
        answers.add.outcome) rfl
      intro s mirrors
      have phase : (s.workers w).phase = .exhausted claim n error := by rw [mirrors.worker]
      have sampled : answers.add.now ≤ s.clock := mirrors.clock ▸ alone.addedAt
      have free : s.db.locks (.deadLetter claim.event.id) = none :=
        mirrors.locks ▸ alone.deadLetterFree
      refine ⟨_, if_pos ⟨phase, sampled, fun _ => ⟨marshalled, free⟩⟩, ?_⟩
      have added : answers.Added codec claim.event ↔ answers.add.outcome = .ok := by
        simp [Answers.Added, marshalled]
      simp only [Journal.addDeadLetter, marshalled, alone.beforeAdd, Interference.quiet, id_eq,
        ← mirrors.db, number, Int.toNat_natCast, added]
      apply mirrors.execute rfl rfl _ rfl rfl _
      · split
        · rfl
        · rfl
      · split
        · rfl
        · rfl

theorem markFailed {error : String}
    (follows : Follows codec config start w journal (.deadLettered claim n error))
    (number : attempt.toInt = n) (alone : answers.Alone start claim.event.id) :
    Follows codec config start w
      (journal.markFailed answers.markFailed claim.event.id attempt error).1
      (ending start claim.event
        (journal.markFailed answers.markFailed claim.event.id attempt error).2) := by
  suffices written : Follows codec config start w
      (journal.markFailed answers.markFailed claim.event.id attempt error).1
      (.returning claim (decide answers.markFailed.outcome.Effective)
        (if (journal.markFailed answers.markFailed claim.event.id attempt error).2 then
          .ack (start.history.openings claim.event.id) else .requeue)) from written.returns
  apply follows.extend (.markFailed w claim n error answers.markFailed.now
    answers.markFailed.outcome) rfl
  intro s mirrors
  have phase : (s.workers w).phase = .deadLettered claim n error := by rw [mirrors.worker]
  have sampled : answers.markFailed.now ≤ s.clock := mirrors.clock ▸ alone.markedFailedAt
  have free : s.db.locks (.event claim.event.id) = none := mirrors.locks ▸ alone.eventFree
  refine ⟨_, if_pos ⟨phase, sampled, fun _ => free⟩, ?_⟩
  simp only [Journal.markFailed, alone.beforeMarkFailed, Interference.quiet, id_eq,
    ← mirrors.db, number, Int.toNat_natCast, decide_eq_true_eq, ← mirrors.openings]
  refine mirrors.execute rfl rfl ?_ ?_ ?_ rfl
  · split
    · rfl
    · rfl
  · rfl
  · rfl

/-- The branch of a processor that returned no error. -/
theorem succeed (follows : Follows codec config start w journal (.succeeded claim n))
    (number : attempt.toInt = n) (alone : answers.Alone start claim.event.id) :
    Follows codec config start w (succeed answers claim.event attempt journal).1
      (ending start claim.event (succeed answers claim.event attempt journal).2.2) := by
  have counted : Follows codec config start w (journal.withMetrics Metrics.incEventsProcessed)
      (.succeeded claim n) := follows.unseen _ rfl rfl
  exact counted.markProcessed number alone

/-- The branch of the last attempt. -/
theorem giveUp {error : String}
    (follows : Follows codec config start w journal (.exhausted claim n error))
    (number : attempt.toInt = n) (alone : answers.Alone start claim.event.id) :
    Follows codec config start w (giveUp codec answers claim.event attempt error journal).1
      (ending start claim.event
        (giveUp codec answers claim.event attempt error journal).2.2) := by
  have counted : Follows codec config start w
      (journal.withMetrics Metrics.incEventsFailedPermanent) (.exhausted claim n error) :=
    follows.unseen _ rfl rfl
  have letter := counted.addDeadLetter number alone
  simp only [giveUp_eq, addDeadLetter_added]
  by_cases added : answers.Added codec claim.event
  · simp only [added, decide_true, if_true] at letter ⊢
    exact letter.markFailed number alone
  · simp only [added, decide_false, if_false, Bool.false_eq_true] at letter ⊢
    exact letter.returns

/-- Every attempt that is left. -/
theorem attemptLoop (exactly : (config.maxRetries + 1).toInt = config.toConfig.maxRetries + 1)
    (alone : answers.Alone start claim.event.id) (rounds : Nat)
    (follows : Follows codec config start w journal (.attempting claim n))
    (number : attempt.toInt = n) (within : n ≤ config.toConfig.maxRetries + 1)
    (enough : config.toConfig.maxRetries + 1 < n + rounds) :
    ∃ result, (attemptLoop codec config answers claim.event rounds attempt journal).2 =
        some result ∧
      Follows codec config start w
        (attemptLoop codec config answers claim.event rounds attempt journal).1
        (ending start claim.event result.2) := by
  induction rounds generalizing attempt n journal with
  | zero => omega
  | succ rounds inductionHypothesis =>
      have inside : attempt ≤ config.maxRetries + 1 := Int64.le_iff_toInt_le.mpr (by omega)
      have last : attempt = config.maxRetries + 1 ↔ n = config.toConfig.maxRetries + 1 := by
        rw [← Int64.toInt_inj]
        omega
      have returned : Follows codec config start w
          (runProcessor answers claim.event attempt journal)
          (afterAttempt config.toConfig claim n (answers.processor attempt)) :=
        follows.processorReturns _
      rw [WebhookProcessor.attemptLoop, if_pos inside]
      cases answer : answers.processor attempt with
      | none =>
          rw [answer] at returned
          exact ⟨_, rfl, Follows.succeed returned number alone⟩
      | some error =>
          rw [answer, afterAttempt] at returned
          by_cases ended : attempt = config.maxRetries + 1
          · simp only [if_pos ended]
            rw [if_pos (last.mp ended)] at returned
            exact ⟨_, rfl, Follows.giveUp returned number alone⟩
          · simp only [if_neg ended]
            have goesOn := mt last.mpr ended
            rw [if_neg goesOn] at returned
            have below : attempt.toInt < (config.maxRetries + 1).toInt := by omega
            have next := toInt_succ_of_lt below
            apply inductionHypothesis
            · exact returned.unseen _ rfl (by simp [retryLater, WorkerCall.processed?])
            · omega
            · omega
            · omega

theorem processEventWithRetry (nonneg : 0 ≤ config.maxRetries)
    (fits : config.maxRetries.toInt + 1 < 2 ^ 63) (alone : answers.Alone start claim.event.id)
    (follows : Follows codec config start w journal (.attempting claim 1)) :
    Follows codec config start w
      (processEventWithRetry codec config answers claim.event journal).1
      (ending start claim.event
        (processEventWithRetry codec config answers claim.event journal).2.2) := by
  have exactly := toInt_maxAttempts nonneg fits
  have first : (1 : Int64).toInt = (1 : Nat) := rfl
  obtain ⟨result, ends, followed⟩ := follows.attemptLoop exactly alone
    (config.maxRetries + 1).toInt.toNat first (Nat.le_add_left 1 _) (by omega)
  have returned : (WebhookProcessor.processEventWithRetry codec config answers claim.event
      journal).2 = result := by
    change Option.getD _ _ = result
    rw [ends]
    rfl
  rw [returned]
  exact followed

/-- The SELECT of `ClaimForProcessing`, and what `handleDelivery` makes of its answer. -/
theorem readClaimStatus {event : Event Payload} (alone : answers.Alone start event.id)
    (follows : Follows codec config start w journal (.unclaimed event)) :
    Follows codec config start w (journal.readClaimStatus answers event.id).1
      (.settling event (match (journal.readClaimStatus answers event.id).2 with
        | some result => settlementOf (start.history.openings event.id) result
        | none => .requeue)) := by
  apply follows.extend (.readClaimStatus w event answers.claimSelect) rfl
  intro s mirrors
  have phase : (s.workers w).phase = .unclaimed event := by rw [mirrors.worker]
  refine ⟨_, if_pos phase, ?_⟩
  rw [Journal.readClaimStatus, alone.between]
  by_cases answered : answers.claimSelect = Outcome.ok
  · simp only [if_pos answered, ← mirrors.db, ← mirrors.openings]
    exact mirrors.execute rfl rfl rfl rfl rfl rfl
  · simp only [if_neg answered, ← mirrors.db]
    exact mirrors.execute rfl rfl rfl rfl rfl rfl

/-- `Ack` or `Nack`: only a requeued delivery goes back to the queue. -/
theorem settle {event : Event Payload} {settlement : Settlement}
    (follows : Follows codec config start w journal (.settling event settlement)) :
    ∃ actions s', run (step codec config.toConfig) start actions = some s' ∧
      (∀ action ∈ actions, action.worker? = some w) ∧ s'.db = journal.db ∧
      s'.history.attempted =
        start.history.attempted ++ journal.select WorkerCall.processed? ∧
      s'.workers w = Worker.idle ∧
      s'.ready = start.ready ++
        if settlement = Settlement.requeue then (start.workers w).delivery.toList else [] := by
  obtain ⟨actions, s, ran, owned, mirrors⟩ := follows
  have phase : (s.workers w).phase = .settling event settlement := by rw [mirrors.worker]
  have taken : step codec config.toConfig s (.settle w event settlement) = _ := if_pos phase
  refine ⟨actions ++ [.settle w event settlement], _,
    run_trans ran ((run_cons taken []).trans rfl), ?_, ?_⟩
  · intro action member
    rcases List.mem_append.mp member with earlier | last
    · exact owned action earlier
    · rw [List.mem_singleton.mp last]
      rfl
  · refine ⟨mirrors.db, ?_, Function.update_self _ _ _, ?_⟩
    · simpa [System.setWorker, WorkerPhase.attempted] using mirrors.attempted
    · by_cases requeued : settlement = Settlement.requeue
      · simp [System.setWorker, requeued, mirrors.ready, mirrors.worker]
      · simp [System.setWorker, requeued, mirrors.ready]

end Follows

/-- The settle call and the settlement of the concurrent model say the same. -/
def SettleCall.Means (call : SettleCall) (settlement : Settlement) : Prop :=
  call = .nack true ↔ settlement = .requeue

theorem means_ending (persisted : Bool) (opening : Nat) :
    SettleCall.Means (if persisted then .ack else .nack true)
      (if persisted then .ack opening else .requeue) := by
  cases persisted with
  | false => simp [SettleCall.Means]
  | true => simp [SettleCall.Means]

theorem claimResultOf_ne_claimed (status : Option EventStatus) :
    Database.claimResultOf status ≠ .claimed := by
  cases status with
  | none => simp [Database.claimResultOf]
  | some status =>
      cases status with
      | _ => simp [Database.claimResultOf]

omit [DecidableEq Payload] in
theorem readClaimStatus_ne_claimed (journal : Journal Payload) (answers : Answers)
    (id : EventId) : (journal.readClaimStatus answers id).2 ≠ some .claimed := by
  unfold Journal.readClaimStatus
  split
  · exact fun same => claimResultOf_ne_claimed _ (Option.some.inj same)
  · exact (Option.some_ne_none _).symm

/-- The branches of a delivery whose event was not claimed. -/
theorem Follows.unclaimed {event : Event Payload} {answers : Answers} {earlier : Journal Payload}
    (alone : answers.Alone start event.id)
    (follows : Follows codec config start w journal (.unclaimed event))
    (unmatched : earlier.claimForProcessing config answers event.id =
      journal.readClaimStatus answers event.id) :
    ∃ before call settlement,
      handleDelivery codec config answers event earlier = before.record (.settle call) ∧
      Follows codec config start w before (.settling event settlement) ∧
      call.Means settlement := by
  have read := follows.readClaimStatus alone
  have unclaimed := readClaimStatus_ne_claimed journal answers event.id
  rw [handleDelivery, unmatched]
  generalize journal.readClaimStatus answers event.id = answer at read unclaimed
  obtain ⟨after, result⟩ := answer
  cases result with
  | none => exact ⟨_, _, _, rfl, read, by simp [SettleCall.Means]⟩
  | some result =>
      cases result with
      | claimed => exact absurd rfl unclaimed
      | missing => exact ⟨_, _, _, rfl, read, by simp [SettleCall.Means, settlementOf]⟩
      | final =>
          have counted := read.unseen (after.withMetrics Metrics.incEventsSkippedDuplicate) rfl rfl
          exact ⟨_, _, _, rfl, counted, by simp [SettleCall.Means, settlementOf]⟩
      | inProgress =>
          have slept := read.unseen (after.record (.sleep config.processingRequeueDelay)) rfl
            (by simp [WorkerCall.processed?])
          exact ⟨_, _, _, rfl, slept, by simp [SettleCall.Means, settlementOf]⟩

/-- Up to its settle call, `handleDelivery` is followed statement by statement. -/
theorem follows_handleDelivery (nonneg : 0 ≤ config.maxRetries)
    (fits : config.maxRetries.toInt + 1 < 2 ^ 63) {event : Event Payload} {answers : Answers}
    (alone : answers.Alone start event.id)
    (received : (start.workers w).phase = .received event) (metrics : Metrics) :
    ∃ before call settlement,
      handleDelivery codec config answers event (Journal.start start.db metrics) =
        before.record (.settle call) ∧
      Follows codec config start w before (.settling event settlement) ∧
      call.Means settlement := by
  by_cases updated : answers.claimUpdate = .ok
  · by_cases matched :
        start.db.ClaimMatches event.id config.processingLease.toInt answers.claimedAt
    · have claimed : Follows codec config start w _ _ :=
        follows_claimUpdate metrics alone received (some true)
      simp only [updated, afterClaim, if_pos matched, if_pos Outcome.effective_ok] at claimed
      have followed := claimed.processEventWithRetry nonneg fits alone
      rw [handleDelivery, claimForProcessing_claimed updated matched]
      exact ⟨_, _, _, rfl, followed, means_ending _ _⟩
    · have claimed : Follows codec config start w _ _ :=
        follows_claimUpdate metrics alone received (some false)
      simp only [updated, afterClaim, if_neg matched, if_pos Outcome.effective_ok] at claimed
      apply claimed.unclaimed alone
      unfold Journal.claimForProcessing
      simp [updated, matched, Journal.start, Outcome.effective_ok]
  · have claimed : Follows codec config start w _ _ :=
      follows_claimUpdate metrics alone received none
    have refused : afterClaim event answers.claimedAt (start.history.claims event.id + 1)
        answers.claimUpdate (start.db.ClaimMatches event.id config.processingLease.toInt
          answers.claimedAt) = .settling event .requeue := by
      cases outcome : answers.claimUpdate with
      | ok => exact absurd outcome updated
      | failed => rfl
      | lost => rfl
    rw [refused] at claimed
    refine ⟨_, .nack true, .requeue, ?_, claimed, by simp [SettleCall.Means]⟩
    rw [handleDelivery, Journal.claimForProcessing]
    simp only [if_neg updated]
    rfl

/-- A worker that nobody disturbs does what `handleDelivery` computes, whatever the processor and
the store answer: it leaves the same database, calls the processor with the same events and
settles the delivery in the same way. -/
theorem handleDelivery_run (nonneg : 0 ≤ config.maxRetries)
    (fits : config.maxRetries.toInt + 1 < 2 ^ 63) {event : Event Payload} {answers : Answers}
    (alone : answers.Alone start event.id)
    (received : (start.workers w).phase = .received event) (metrics : Metrics) :
    ∃ actions s' call, run (step codec config.toConfig) start actions = some s' ∧
      (∀ action ∈ actions, action.worker? = some w) ∧
      s'.db = (handleDelivery codec config answers event (Journal.start start.db metrics)).db ∧
      s'.history.attempted = start.history.attempted ++
        (handleDelivery codec config answers event (Journal.start start.db metrics)).select
          WorkerCall.processed? ∧
      (handleDelivery codec config answers event
        (Journal.start start.db metrics)).log.getLast?.map Entry.call = some (.settle call) ∧
      s'.workers w = Worker.idle ∧
      s'.ready = start.ready ++
        if call = .nack true then (start.workers w).delivery.toList else [] := by
  obtain ⟨before, call, settlement, ends, follows, means⟩ :=
    follows_handleDelivery nonneg fits alone received metrics
  obtain ⟨actions, s', ran, owned, database, attempted, idle, ready⟩ := follows.settle
  refine ⟨actions, s', call, ran, owned, ?_, ?_, ?_, idle, ?_⟩
  · rw [ends]
    exact database
  · rw [ends]
    simpa [WorkerCall.processed?] using attempted
  · rw [ends]
    simp [Journal.record, Journal.execute]
  · rw [ready]
    simp only [SettleCall.Means] at means
    simp only [means]

end Runs

end WebhookProcessor
