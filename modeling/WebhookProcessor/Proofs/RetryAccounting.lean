/-
Module: WebhookProcessor.Proofs.RetryAccounting
Layer: Proofs
Purpose: What a unit of the automatic retry budget buys.  A worker opens the dead letter in one
  statement and fails the event in a later one, and the retry claim looks at the dead letter only.
  A scheduler that claims between the two statements spends an attempt on an event that is still
  processing: its replay is refused and nothing is retried.  In a run without disturbances in which
  the SELECT of every automatic replay finds its event failed, each attempt spent is a replay.
Trusted boundary: one clock for all replicas
Main exports: Action.Undisturbed, CleanStep, SelectsFailed, OnTrack, AllUsed,
  retry_budget_spent_on_replays
-/
import WebhookProcessor.Proofs.ExclusiveProcessing
import WebhookProcessor.Proofs.RetryBudget

namespace WebhookProcessor

open Transition

variable {Payload : Type}

/-- No crash, cancellation, database error or manual replay, and no method that the service does
not call.  Duplicate submissions, broker failures and lost connections are no disturbance. -/
def Action.Undisturbed : Action Payload → Prop
  | .failSave _ _ | .replayFail _ _ _ | .replay _ _ => False
  | .crashDispatcher _ | .crashWorker _ | .crashScheduler _ => False
  | .claimRetryableDeadLetters _ _ _ | .rescheduleDeadLetterRetry _ _ _ => False
  | .commitSave _ _ _ _ _ outcome => outcome = .ok
  | .replayCommit _ _ error => error = none
  | .claimPendingOutbox _ _ _ _ _ outcome => outcome = .ok
  | .markOutboxPublished _ _ _ _ _ _ outcome => outcome = .ok
  | .markOutboxFailed _ _ _ _ outcome => outcome = .ok
  | .claimForProcessing _ _ _ outcome => outcome = .ok
  | .readClaimStatus _ _ outcome => outcome = .ok
  | .markProcessed _ _ _ _ outcome => outcome = .ok
  | .saveDeadLetter _ _ _ _ _ _ outcome => outcome = .ok
  | .markFailed _ _ _ _ _ outcome => outcome = .ok
  | .claimRetryable _ _ _ outcome => outcome = .ok
  | .reschedule _ _ _ _ _ _ outcome => outcome = .ok
  | _ => True

instance (action : Action Payload) : Decidable action.Undisturbed := by
  apply Action.casesOn (motive := fun action => Decidable action.Undisturbed) action
  all_goals
    intros
    delta Action.Undisturbed
    infer_instance

/-- An undisturbed step after which every worker still has its processing lease. -/
structure CleanStep (config : Config) (before : System Payload) (action : Action Payload)
    (after : System Payload) : Prop where
  undisturbed : action.Undisturbed
  punctual : Punctual config WorkerPhase.active after

/-- The SELECT of an automatic replay finds the event failed. -/
def SelectsFailed (before : System Payload) (action : Action Payload)
    (_ : System Payload) : Prop :=
  match action with
  | .replaySelect (.scheduler _) id => before.db.status? id = some .failed
  | _ => True

instance (before : System Payload) (action : Action Payload) (after : System Payload) :
    Decidable (SelectsFailed before action after) := by
  unfold SelectsFailed
  split <;> infer_instance

/-- Every step is clean and no automatic replay comes too early. -/
structure TimelyStep (config : Config) (before : System Payload) (action : Action Payload)
    (after : System Payload) : Prop where
  clean : CleanStep config before action after
  selects : SelectsFailed before action after

/-! ### What an open dead letter says about its event -/

/-- The event is failed, or a worker has saved its dead letter and is about to fail it. -/
def Failing (s : System Payload) (id : EventId) : Prop :=
  s.db.status? id = some .failed ∨
    ∃ w claim attempt error,
      (s.workers w).phase = .deadLettered claim attempt error ∧ claim.event.id = id

/-- The claims of the automatic retry are in order: an item in a scheduler's hands is the only one
of its event, its dead letter is open and taken off the schedule, and the replay will succeed. -/
structure OnTrack (s : System Payload) : Prop where
  manual : ∀ caller : Caller, caller.Manual → s.replays caller = .idle
  letter : ∀ id row, s.db.deadLetter? id = some row → row.replayedAt = none → Failing s id
  awaitedOpen : ∀ n, ∀ item ∈ s.awaited n, ∃ row, s.db.deadLetter? item.eventId = some row ∧
    row.replayedAt = none ∧ row.nextRetryAt = none
  awaitedOnce : ∀ n m item other, item ∈ s.awaited n → other ∈ s.awaited m →
    item.eventId = other.eventId → n = m ∧ item = other
  selected : ∀ n id, (s.replays (.scheduler n)).found? = some id → s.db.status? id = some .failed
  moved : ∀ n tx, (s.replays (.scheduler n)).tx? = some tx → tx.moved = true
  unrefused : ∀ n id error, s.replays (.scheduler n) ≠ .failed id error
  onCourse : ∀ n item error rest, s.schedulers n ≠ .rescheduling item error rest

section Steps

variable [DecidableEq Payload] {codec : Codec Payload} {config : Config} {s s' : System Payload}
  {action : Action Payload}

/-- A failed event stays failed until a replay commits. -/
theorem failed_of_step (held : ClaimsHeld s) (taken : step codec config s action = some s')
    {id : EventId} (failed : s.db.status? id = some .failed) :
    s'.db.status? id = some .failed ∨
      ∃ caller tx error, action = .replayCommit caller tx error ∧
        s.replays caller = .deadLetterMarked tx ∧ tx.eventId = id := by
  obtain ⟨row, present, rowFailed⟩ := s.db.status?_eq_some_iff.mp failed
  have effect := step_event taken id
  unfold Database.status?
  generalize s'.db.event? id = after at effect
  cases effect with
  | unchanged => exact Or.inl failed
  | accepted => exact Or.inl (by simp [present, rowFailed])
  | claimed _ _ _ _ found claimable =>
      rw [present] at found
      cases found
      rcases claimable with queued | ⟨processing, _⟩
      · simp [rowFailed] at queued
      · simp [rowFailed] at processing
  | finished phase _ _ same =>
      obtain ⟨own, found, processing, _⟩ := held.row _ _ (by rw [phase]; rfl)
      rw [same, present] at found
      cases found
      simp [rowFailed] at processing
  | failed => exact Or.inl rfl
  | requeued phase _ same => exact Or.inr ⟨_, _, _, rfl, phase, same⟩

/-- Once `SaveDeadLetter` has run for an event it stays on its way to failed until a replay
commits. -/
theorem Failing.of_step {id : EventId} (failing : Failing s id) (held : ClaimsHeld s)
    (taken : step codec config s action = some s') (undisturbed : action.Undisturbed) :
    Failing s' id ∨
      ∃ caller tx error, action = .replayCommit caller tx error ∧ tx.eventId = id := by
  rcases failing with failed | ⟨w, claim, attempt, error, phase, same⟩
  · rcases failed_of_step held taken failed with still | ⟨caller, tx, answer, commits, _, same⟩
    · exact Or.inl (Or.inl still)
    · exact Or.inr ⟨caller, tx, answer, commits, same⟩
  · refine Or.inl ?_
    obtain ⟨row, found, _⟩ := held.row w claim (by rw [phase]; rfl)
    have effect := step_worker taken w
    generalize after : s'.workers w = worker at effect
    -- the only statement that this worker can execute is `MarkFailed`
    cases effect with
    | unchanged => exact Or.inr ⟨w, claim, attempt, error, by rw [after]; exact phase, same⟩
    | disconnected => exact Or.inr ⟨w, claim, attempt, error, by rw [after]; exact phase, same⟩
    | failed writing =>
        cases phase.symm.trans writing
        simp only [step, Option.ite_none_right_eq_some, Option.some.injEq] at taken
        obtain ⟨_, rfl⟩ := taken
        refine Or.inl ?_
        rw [← same]
        simp only [System.setPhase, System.setWorker, Outcome.effective_ok, if_true]
        exact Database.status?_markFailed (by rw [found]; exact Option.some_ne_none _) _ _ _
    | failedError _ failure => exact absurd undisturbed failure
    | delivered idle =>
        rw [idle] at phase
        cases phase
    | crashed => exact undisturbed.elim
    | claimed other => cases phase.symm.trans other
    | unclaimed other => cases phase.symm.trans other
    | claimError other => cases phase.symm.trans other
    | statusRead other => cases phase.symm.trans other
    | statusError other => cases phase.symm.trans other
    | attempted other => cases phase.symm.trans other
    | processed other => cases phase.symm.trans other
    | processedError other => cases phase.symm.trans other
    | deadLettered other => cases phase.symm.trans other
    | deadLetterError other => cases phase.symm.trans other
    | returned other => cases phase.symm.trans other
    | settled other => cases phase.symm.trans other

omit [DecidableEq Payload] in
/-- A worker that is about to save the dead letter of an event excludes that the event is failing
already. -/
theorem not_failing_of_exhausted (held : ClaimsHeld s) {w : Nat} {claim : Claim Payload}
    {attempt : Nat} {error : String}
    (phase : (s.workers w).phase = .exhausted claim attempt error) :
    ¬ Failing s claim.event.id := by
  have active : (s.workers w).phase.active = some claim := by
    rw [phase]
    rfl
  rintro (failed | ⟨v, other, otherAttempt, otherError, otherPhase, same⟩)
  · obtain ⟨row, found, processing, _⟩ := held.row w claim active
    rw [Database.status?, found] at failed
    simp [processing] at failed
  · have writer := held.unique w v claim other active (by rw [otherPhase]; rfl) same.symm
    rw [← writer, phase] at otherPhase
    cases otherPhase

/-- A claim takes the dead letter off the schedule. -/
theorem letter_of_claim {n : Nat} {now : Time} {order : List EventId} {outcome : Outcome}
    (taken : step codec config s (.claimRetryable n now order outcome) = some s')
    {item : RetryableDeadLetterDetail}
    (claimed : item ∈
      (Action.claimRetryable n now order outcome : Action Payload).retries config s) :
    ∃ row, s.db.deadLetter? item.eventId = some row ∧
      row.Retryable config.dlqAutoRetryMaxAttempts now ∧
      s'.db.deadLetter? item.eventId = some row.spend := by
  have written : s'.db =
      (s.db.claimRetryableDeadLetterDetails 10 config.dlqAutoRetryMaxAttempts now).2 := by
    simp only [step, Option.ite_none_right_eq_some, Option.some.injEq] at taken
    obtain ⟨_, rfl⟩ := taken
    rfl
  rw [written]
  rcases s.db.claimRetryable_cases 10 config.dlqAutoRetryMaxAttempts now item.eventId with
    ⟨row, found, retryable, _, spent⟩ | ⟨none, _⟩
  · exact ⟨row, found, retryable, spent⟩
  · have member : item ∈ (s.db.claimRetryableDeadLetterDetails 10 config.dlqAutoRetryMaxAttempts
        now).1.filter fun other => other.eventId = item.eventId :=
      List.mem_filter.mpr ⟨claimed, decide_eq_true rfl⟩
    rw [none] at member
    cases member

/-! ### The steps of the invariant -/

namespace OnTrack

variable (track : OnTrack s)
include track

theorem step_manual (taken : step codec config s action = some s')
    (undisturbed : action.Undisturbed) (caller : Caller) (manual : caller.Manual) :
    s'.replays caller = .idle := by
  have idle := track.manual caller manual
  have effect := step_replay taken caller
  generalize s'.replays caller = call at effect
  cases effect with
  | unchanged => exact idle
  | begun => exact undisturbed.elim
  | selected phase => cases idle.symm.trans phase
  | eventReset phase => cases idle.symm.trans phase
  | outboxReopened phase => cases idle.symm.trans phase
  | outboxMissing phase => cases idle.symm.trans phase
  | outboxInserted phase => cases idle.symm.trans phase
  | deadLetterMarked phase => cases idle.symm.trans phase
  | committed phase => cases idle.symm.trans phase
  | commitLost phase => cases idle.symm.trans phase
  | failed => exact undisturbed.elim
  | scheduled self =>
      rw [self] at manual
      exact manual.elim
  | crashed => rfl

theorem step_letter (held : ClaimsHeld s) (taken : step codec config s action = some s')
    (undisturbed : action.Undisturbed) (id : EventId) (row : DeadLetterRow)
    (found : s'.db.deadLetter? id = some row) (isOpen : row.replayedAt = none) :
    Failing s' id := by
  -- a letter that was open before: its event was failing, and no replay has closed the letter
  have kept : ∀ old, s.db.deadLetter? id = some old → old.replayedAt = none → Failing s' id := by
    intro old foundOld openOld
    rcases (track.letter id old foundOld openOld).of_step held taken undisturbed with
      still | ⟨caller, tx, answer, rfl, rfl⟩
    · exact still
    · exact absurd isOpen (closed_of_commit taken found)
  have effect := step_deadLetter taken id
  rw [found] at effect
  generalize same : some row = after at effect
  cases effect with
  | unchanged => exact kept row same.symm isOpen
  | @saved w claim attempt error payload now outcome phase _ _ _ sameEvent =>
      refine Or.inr ⟨w, claim, attempt, error, ?_, sameEvent⟩
      have worker := step_worker taken w
      generalize s'.workers w = next at worker
      cases worker with
      | unchanged other => exact absurd rfl other
      | deadLettered => rfl
      | deadLetterError _ failure => exact absurd undisturbed failure
  | spent _ _ foundOld =>
      cases same
      exact kept _ foundOld isOpen
  | spentDirectly => exact undisturbed.elim
  | rescheduled _ _ _ foundOld openOld => exact kept _ foundOld openOld
  | rescheduledDirectly => exact undisturbed.elim
  | replayed =>
      cases same
      cases isOpen

/-- The head of the list that a committing scheduler works on is the only item of its event. -/
theorem gone_of_commit (reached : Reachable codec config s) (items : ItemsHeld s) {caller : Caller}
    {tx : ReplayTx} (taken : step codec config s (.replayCommit caller tx none) = some s')
    (phase : s.replays caller = .deadLetterMarked tx) {n : Nat} {item : RetryableDeadLetterDetail}
    (before : item ∈ s.awaited n) (same : tx.eventId = item.eventId) : item ∉ s'.awaited n := by
  intro awaited
  cases caller with
  | http request => cases (track.manual (.http request) trivial).symm.trans phase
  | cli process => cases (track.manual (.cli process) trivial).symm.trans phase
  | scheduler m =>
      have effect := step_awaited reached taken m
      generalize left : s'.awaited m = rest at effect
      cases effect with
      | unchanged stays => exact stays rfl
      | @committed _ head _ _ first sameHead =>
          have inHand : head ∈ s.awaited m := by
            rw [first]
            exact List.mem_cons_self
          obtain ⟨rfl, rfl⟩ := track.awaitedOnce m n head item inHand before
            (sameHead.trans same)
          have once := items.nodup m
          rw [first] at once
          rw [left] at awaited
          exact (List.nodup_cons.mp once).1 awaited

theorem step_awaitedOpen (reached : Reachable codec config s) (held : ClaimsHeld s)
    (items : ItemsHeld s) (taken : step codec config s action = some s')
    (undisturbed : action.Undisturbed) (n : Nat) (item : RetryableDeadLetterDetail)
    (awaited : item ∈ s'.awaited n) :
    ∃ row, s'.db.deadLetter? item.eventId = some row ∧ row.replayedAt = none ∧
      row.nextRetryAt = none := by
  rcases awaited_of_step_mem reached taken awaited with before | ⟨now, order, rfl, claimed⟩
  · obtain ⟨row, found, isOpen, unscheduled⟩ := track.awaitedOpen n item before
    have effect := step_deadLetter taken item.eventId
    generalize s'.db.deadLetter? item.eventId = after at effect
    cases effect with
    | unchanged => exact ⟨row, found, isOpen, unscheduled⟩
    | saved phase _ _ _ same =>
        have failing := track.letter item.eventId row found isOpen
        rw [← same] at failing
        exact absurd failing (not_failing_of_exhausted held phase)
    | spent _ _ foundOther candidate =>
        cases found.symm.trans foundOther
        obtain ⟨_, ⟨_, due, _⟩, _⟩ := s.db.mem_retryCandidates candidate
        rw [unscheduled] at due
        exact due.elim
    | spentDirectly => exact undisturbed.elim
    | rescheduled phase => exact absurd phase (track.onCourse _ _ _ _)
    | rescheduledDirectly => exact undisturbed.elim
    | replayed phase same =>
        cases undisturbed
        exact absurd awaited (track.gone_of_commit reached items taken phase before same)
  · obtain ⟨row, _, ⟨isOpen, _⟩, spent⟩ := letter_of_claim taken claimed
    exact ⟨row.spend, spent, isOpen, rfl⟩

theorem step_awaitedOnce (reached : Reachable codec config s)
    (taken : step codec config s action = some s') (n m : Nat)
    (item other : RetryableDeadLetterDetail) (first : item ∈ s'.awaited n)
    (second : other ∈ s'.awaited m) (same : item.eventId = other.eventId) :
    n = m ∧ item = other := by
  -- the dead letter of an item in hand is not on the schedule, so it is not claimed again
  have excluded : ∀ k l old fresh now order, old ∈ s.awaited k →
      action = .claimRetryable l now order .ok → fresh ∈ action.retries config s →
      old.eventId ≠ fresh.eventId := by
    rintro k l old fresh now order before rfl claimed sameEvent
    obtain ⟨row, found, _, unscheduled⟩ := track.awaitedOpen k old before
    obtain ⟨own, foundOwn, ⟨_, due, _⟩, _⟩ := letter_of_claim taken claimed
    rw [← sameEvent, found] at foundOwn
    cases foundOwn
    rw [unscheduled] at due
    exact due.elim
  rcases awaited_of_step_mem reached taken first with before | ⟨now, order, claims, claimed⟩
  · rcases awaited_of_step_mem reached taken second with
      otherBefore | ⟨now, order, claims, claimed⟩
    · exact track.awaitedOnce n m item other before otherBefore same
    · exact absurd same (excluded n m item other now order before claims claimed)
  · rcases awaited_of_step_mem reached taken second with
      otherBefore | ⟨_, _, alsoClaims, otherClaimed⟩
    · exact absurd same.symm (excluded m n other item now order otherBefore claims claimed)
    · subst claims
      have sameScheduler := (Action.claimRetryable.inj alsoClaims).1
      exact ⟨sameScheduler,
        List.inj_on_of_nodup_map (claimedIds_nodup s now) claimed otherClaimed same⟩

/-- While a scheduler replays an event, only its own commit takes the event out of failed. -/
theorem failed_of_found (reached : Reachable codec config s) (held : ClaimsHeld s)
    (taken : step codec config s action = some s') {n : Nat} {id : EventId}
    (found : (s.replays (.scheduler n)).found? = some id)
    (goesOn : ∀ tx error, action ≠ .replayCommit (.scheduler n) tx error) :
    s'.db.status? id = some .failed := by
  rcases failed_of_step held taken (track.selected n id found) with
    still | ⟨caller, tx, answer, rfl, phase, same⟩
  · exact still
  · have running : (s.replays (.scheduler n)).inFlight = some id := by
      generalize s.replays (.scheduler n) = call at found
      cases call with
      | selected => exact found
      | eventReset => exact found
      | outboxMissing => exact found
      | outboxReopened => exact found
      | deadLetterMarked => exact found
      | _ => cases found
    cases caller with
    | http request => cases (track.manual (.http request) trivial).symm.trans phase
    | cli process => cases (track.manual (.cli process) trivial).symm.trans phase
    | scheduler m =>
        have otherRunning : (s.replays (.scheduler m)).inFlight = some tx.eventId := by
          rw [phase]
          rfl
        obtain ⟨item, inHand, sameItem⟩ := awaited_of_running reached running
        obtain ⟨other, otherInHand, sameOther⟩ := awaited_of_running reached otherRunning
        obtain ⟨sameScheduler, _⟩ := track.awaitedOnce n m item other inHand otherInHand
          (by rw [sameItem, sameOther, same])
        rw [sameScheduler] at goesOn
        exact absurd rfl (goesOn tx answer)

theorem step_selected (reached : Reachable codec config s) (held : ClaimsHeld s)
    (taken : step codec config s action = some s') (n : Nat) (id : EventId)
    (found : (s'.replays (.scheduler n)).found? = some id) : s'.db.status? id = some .failed := by
  have effect := step_replay taken (.scheduler n)
  generalize s'.replays (.scheduler n) = call at effect found
  -- a later statement of the same transaction
  have continues : (s.replays (.scheduler n)).found? = some id →
      (∀ tx error, action ≠ .replayCommit (.scheduler n) tx error) →
        s'.db.status? id = some .failed :=
    track.failed_of_found reached held taken
  cases effect with
  | unchanged other =>
      apply continues found
      rintro tx answer rfl
      exact other rfl
  | begun manual => exact manual.elim
  | @selected target phase =>
      rcases s.db.selectForReplay_cases target with ⟨row, present, failed, selected⟩ | ⟨_, refused⟩
      · rw [selected] at found
        cases found
        have stored : s.db.status? id = some .failed :=
          s.db.status?_eq_some_iff.mpr ⟨row, present, failed⟩
        simp only [step, Option.ite_none_right_eq_some, Option.some.injEq] at taken
        obtain ⟨_, rfl⟩ := taken
        exact stored
      · rw [refused] at found
        cases found
  | eventReset phase => exact continues (by rw [phase]; exact found) (by simp)
  | outboxReopened phase => exact continues (by rw [phase]; exact found) (by simp)
  | outboxMissing phase => exact continues (by rw [phase]; exact found) (by simp)
  | outboxInserted phase => exact continues (by rw [phase]; exact found) (by simp)
  | deadLetterMarked phase => exact continues (by rw [phase]; exact found) (by simp)
  | committed => cases found
  | commitLost => cases found
  | failed => cases found
  | scheduled => cases found
  | crashed => cases found

theorem step_moved (taken : step codec config s action = some s') (n : Nat) (tx : ReplayTx)
    (running : (s'.replays (.scheduler n)).tx? = some tx) : tx.moved = true := by
  have effect := step_replay taken (.scheduler n)
  generalize s'.replays (.scheduler n) = call at effect running
  have before : (s.replays (.scheduler n)).tx? = some tx → tx.moved = true := track.moved n tx
  cases effect with
  | unchanged => exact before running
  | begun manual => exact manual.elim
  | selected => simp [Database.tx?_selectForReplay] at running
  | eventReset phase =>
      cases running
      exact decide_eq_true (track.selected n _ (by rw [phase]; rfl))
  | outboxReopened phase => exact before (by rw [phase]; exact running)
  | outboxMissing phase => exact before (by rw [phase]; exact running)
  | @outboxInserted old phase =>
      cases running
      have moved : old.moved = true := track.moved n old (by rw [phase]; rfl)
      exact moved
  | deadLetterMarked phase => exact before (by rw [phase]; exact running)
  | committed => cases running
  | commitLost => cases running
  | failed => cases running
  | scheduled => cases running
  | crashed => cases running

/-- The SELECT of an automatic replay finds the event failed and its dead letter in place. -/
theorem step_unrefused (reached : Reachable codec config s)
    (taken : step codec config s action = some s') (undisturbed : action.Undisturbed)
    (selects : SelectsFailed s action s') (n : Nat) (id : EventId) (error : ReplayError) :
    s'.replays (.scheduler n) ≠ .failed id error := by
  intro refused
  have effect := step_replay taken (.scheduler n)
  rw [refused] at effect
  generalize returned : ReplayCall.failed id error = call at effect
  cases effect with
  | unchanged => exact track.unrefused n id error returned.symm
  | begun manual => exact manual.elim
  | @selected target phase =>
      obtain ⟨item, inHand, rfl⟩ := awaited_of_running reached
        (show (s.replays (.scheduler n)).inFlight = some target by rw [phase]; rfl)
      obtain ⟨letter, foundLetter, _⟩ := track.awaitedOpen n item inHand
      obtain ⟨row, found, failed⟩ := s.db.status?_eq_some_iff.mp selects
      simp only [Database.selectForReplay, found, foundLetter, failed, if_true] at returned
      cases returned
  | failed => exact undisturbed
  | eventReset => cases returned
  | outboxReopened => cases returned
  | outboxMissing => cases returned
  | outboxInserted => cases returned
  | deadLetterMarked => cases returned
  | committed => cases returned
  | commitLost => cases undisturbed
  | scheduled => cases returned
  | crashed => cases returned

theorem step_onCourse (taken : step codec config s action = some s') (n : Nat)
    (item : RetryableDeadLetterDetail) (error : ReplayError)
    (rest : List RetryableDeadLetterDetail) : s'.schedulers n ≠ .rescheduling item error rest := by
  intro phase
  have effect := step_scheduler taken n
  rw [phase] at effect
  generalize target : Scheduler.rescheduling item error rest = next at effect
  -- the head of the loop over the items is never a reschedule
  have fromLoop : ∀ items, Scheduler.rescheduling item error rest ≠ Scheduler.loop items := by
    intro items
    cases items with
    | nil => simp [Scheduler.loop]
    | cons head tail => simp [Scheduler.loop]
  cases effect with
  | unchanged => exact track.onCourse n item error rest target.symm
  | claimed => exact fromLoop _ target
  | claimLost => cases target
  | replaying => cases target
  | replayed => exact fromLoop _ target
  | replayFailed _ returned => exact track.unrefused n _ _ returned
  | rescheduled => exact fromLoop _ target
  | crashed => cases target

theorem of_step (reached : Reachable codec config s) (held : ClaimsHeld s) (items : ItemsHeld s)
    (taken : step codec config s action = some s') (timely : TimelyStep config s action s') :
    OnTrack s' :=
  { manual := track.step_manual taken timely.clean.undisturbed
    letter := track.step_letter held taken timely.clean.undisturbed
    awaitedOpen := track.step_awaitedOpen reached held items taken timely.clean.undisturbed
    awaitedOnce := track.step_awaitedOnce reached taken
    selected := track.step_selected reached held taken
    moved := track.step_moved taken
    unrefused := track.step_unrefused reached taken timely.clean.undisturbed timely.selects
    onCourse := track.step_onCourse taken }

end OnTrack

omit [DecidableEq Payload] in
theorem onTrack_initial : OnTrack (System.initial : System Payload) := by
  constructor
  · intro caller _
    rfl
  · intro id row found
    cases found
  · intro n item awaited
    cases awaited
  · intro n m item other awaited
    cases awaited
  · intro n id found
    cases found
  · intro n tx running
    cases running
  · intro n id error refused
    cases refused
  · intro n item error rest phase
    cases phase

omit [DecidableEq Payload] in
theorem Action.Undisturbed.serviceOnly (undisturbed : action.Undisturbed) :
    ServiceOnly s action s' := by
  cases action with
  | claimRetryableDeadLetters => exact undisturbed
  | _ => trivial

theorem itemsHeld_of_timely (reached : ReachableVia codec config (TimelyStep config) s) :
    ItemsHeld s :=
  itemsHeld (reached.mono fun _ _ _ timely => timely.clean.undisturbed.serviceOnly)

theorem onTrack (reached : ReachableVia codec config (TimelyStep config) s) : OnTrack s := by
  refine reached.invariant onTrack_initial ?_
  intro before action after earlier track taken timely
  exact track.of_step earlier.reachable
    (claimsHeld (earlier.mono fun _ _ _ timely => timely.clean.punctual))
    (itemsHeld_of_timely earlier) taken timely

/-! ### Every claim is in a scheduler's hands or has replayed its event -/

/-- The claims of each event are the ones its automatic replays have used up and the ones that
schedulers still hold. -/
def AllUsed (s : System Payload) : Prop :=
  ∀ id, ∃ used, UsedUp s id used ∧
    ∀ item ∈ s.claimsOf id, item ∈ used ∨ ∃ n, item ∈ s.awaited n

/-- In a run on track an item leaves its scheduler's hands only by the commit of its replay. -/
theorem OnTrack.awaited_of_step (track : OnTrack s) (reached : Reachable codec config s)
    (taken : step codec config s action = some s') (undisturbed : action.Undisturbed) {n : Nat}
    {item : RetryableDeadLetterDetail} (inHand : item ∈ s.awaited n) :
    item ∈ s'.awaited n ∨
      ∃ tx rest, action = .replayCommit (.scheduler n) tx none ∧ tx.moved = true ∧
        s.awaited n = item :: rest ∧ tx.eventId = item.eventId := by
  have effect := step_awaited reached taken n
  generalize s'.awaited n = items at effect
  cases effect with
  | unchanged => exact Or.inl inHand
  | claimed idle =>
      rw [System.awaited_of_idle idle] at inHand
      cases inHand
  | committed phase first same =>
      rw [first] at inHand
      rcases List.mem_cons.mp inHand with rfl | later
      · exact Or.inr ⟨_, _, rfl, track.moved n _ (by rw [phase]; rfl), first, same.symm⟩
      · exact Or.inl later
  | rescheduled phase => exact absurd phase (track.onCourse _ _ _ _)
  | crashed => exact undisturbed.elim

/-- A claim whose answer arrives puts every claimed item into the scheduler's hands. -/
theorem awaited_of_retries (reached : Reachable codec config s)
    (taken : step codec config s action = some s') (undisturbed : action.Undisturbed)
    {item : RetryableDeadLetterDetail} (claimed : item ∈ action.retries config s) :
    ∃ n, item ∈ s'.awaited n := by
  cases action with
  | claimRetryable n now order outcome =>
      cases undisturbed
      refine ⟨n, ?_⟩
      have effect := step_awaited reached taken n
      generalize s'.awaited n = items at effect
      cases effect with
      | unchanged stays => exact absurd rfl stays
      | claimed _ returned =>
          exact (orderItems_perm (claimedIds_nodup s now) returned).mem_iff.mpr claimed
  | _ => cases claimed

theorem AllUsed.of_step (allUsed : AllUsed s) (track : OnTrack s) (items : ItemsHeld s)
    (reached : Reachable codec config s) (taken : step codec config s action = some s')
    (undisturbed : action.Undisturbed) (unique : s'.history.autoClaims.Nodup) : AllUsed s' := by
  intro id
  obtain ⟨used, usedUp, covered⟩ := allUsed id
  obtain ⟨later, next, grown, committed⟩ := usedUp.of_step reached items taken unique
  refine ⟨later, next, ?_⟩
  intro item member
  rw [claimsOf_of_step taken] at member
  rcases List.mem_append.mp member with old | fresh
  · rcases covered item old with done | ⟨n, inHand⟩
    · exact Or.inl (grown done)
    · rcases track.awaited_of_step reached taken undisturbed inHand with
        still | ⟨tx, rest, rfl, moved, first, same⟩
      · exact Or.inr ⟨n, still⟩
      · obtain ⟨head, tail, alsoFirst, spent⟩ := committed n tx none rfl moved
          (same.trans (System.mem_claimsOf.mp old).2)
        cases first.symm.trans alsoFirst
        exact Or.inl spent
  · exact Or.inr (awaited_of_retries reached taken undisturbed (List.mem_filter.mp fresh).1)

theorem allUsed (reached : ReachableVia codec config (TimelyStep config) s) : AllUsed s := by
  refine reached.invariant ?_ ?_
  · intro id
    refine ⟨[], usedUp_initial id, ?_⟩
    intro item member
    cases member
  · intro before action after earlier inv taken timely
    have service : ReachableVia codec config ServiceOnly after :=
      (earlier.step taken timely).mono fun _ _ _ timely => timely.clean.undisturbed.serviceOnly
    exact inv.of_step (onTrack earlier) (itemsHeld_of_timely earlier) earlier.reachable taken
      timely.clean.undisturbed (attemptsCounted service).nodup

/-- In a clean run in which the SELECT of every automatic replay finds its event failed, whenever no
scheduler is inside `retry` the attempts spent on a dead letter are the times that a scheduler has
moved its event from failed to queued. -/
theorem retry_budget_spent_on_replays (reached : ReachableVia codec config (TimelyStep config) s)
    (outside : ∀ n, s.schedulers n = .idle) :
    ∀ row ∈ s.db.deadLetters.rows, row.replayAttempts = s.history.autoReplays row.eventId := by
  intro row member
  have service : ReachableVia codec config ServiceOnly s :=
    reached.mono fun _ _ _ timely => timely.clean.undisturbed.serviceOnly
  have spent : s.db.attemptsSpent row.eventId = row.replayAttempts := by
    rw [Database.attemptsSpent, s.db.deadLetter?_of_mem member]
    rfl
  have counted := attemptsCounted service
  have claims : (s.claimsOf row.eventId).length = row.replayAttempts := by
    have lengths := congrArg List.length (counted.numbered row.eventId)
    rwa [List.length_map, List.length_range', spent] at lengths
  obtain ⟨used, usedUp, covered⟩ := allUsed reached row.eventId
  have allInUsed : s.claimsOf row.eventId ⊆ used := by
    intro item claimed
    rcases covered item claimed with done | ⟨n, inHand⟩
    · exact done
    · rw [System.awaited_of_idle (outside n)] at inHand
      cases inHand
  have once : (s.claimsOf row.eventId).Nodup := counted.nodup.filter _
  have atMost := (usedUp.nodup.subperm usedUp.claimed).length_le
  have atLeast := (once.subperm allInUsed).length_le
  rw [usedUp.counted] at atMost atLeast
  omega

end Steps

/-! ### A scheduler between the two writes of a worker -/

/-- Punctuality and the other conditions of a concrete run, checked step by step. -/
private theorem along_cleanStep {actions : List (Action String)}
    (undisturbed : Along (step Codec.text Sample.config) (fun _ action _ => action.Undisturbed)
      System.initial actions)
    (punctual : Along (step Codec.text Sample.config)
      (fun _ _ after => Punctual Sample.config WorkerPhase.active after) System.initial actions) :
    Along (step Codec.text Sample.config) (CleanStep Sample.config) System.initial actions :=
  (undisturbed.and punctual).imp fun _ _ _ both => ⟨both.1, both.2⟩

set_option maxRecDepth 4000 in
theorem retry_budget_spent_on_replays_of_retriedRun :
    ∃ s, run (step Codec.text Sample.config) System.initial retriedRun = some s ∧
      s.db.deadLetters.rows.map DeadLetterRow.replayAttempts = [1] ∧
      ∀ row ∈ s.db.deadLetters.rows, row.replayAttempts = s.history.autoReplays row.eventId := by
  have ran : (run (step Codec.text Sample.config) System.initial retriedRun).map
      (fun s => (s.schedulers 0, s.db.deadLetters.rows.map DeadLetterRow.replayAttempts)) =
        some (.idle, [1]) := by
    decide +kernel
  obtain ⟨s, reaches, both⟩ := Option.map_eq_some_iff.mp ran
  obtain ⟨outside, attempts⟩ := Prod.mk.inj both
  have clean : Along (step Codec.text Sample.config) (CleanStep Sample.config) System.initial
      retriedRun :=
    along_cleanStep (by decide +kernel) (along_punctual_of_bounded 1 rfl (by decide +kernel))
  have selects : Along (step Codec.text Sample.config) SelectsFailed System.initial retriedRun := by
    decide +kernel
  have timely : Along (step Codec.text Sample.config) (TimelyStep Sample.config) System.initial
      retriedRun :=
    (clean.and selects).imp fun _ _ _ both => ⟨both.1, both.2⟩
  exact ⟨s, reaches, attempts, retry_budget_spent_on_replays (.of_run .start timely reaches)
    (schedulers_idle_of_run (by decide) reaches outside)⟩

/-- The scheduler claims and replays after worker 0 has saved the dead letter and before it marks
the event failed. -/
def earlyRetryRun : List (Action String) :=
  Sample.sent ++ attemptStatements 0 Sample.message (Sample.claim 1 0) (some "timeout") ++
    [.saveDeadLetter 0 (Sample.claim 1 0) 1 "timeout" Sample.event.payload 0 .ok,
      .claimRetryable 0 0 [Sample.event.id] .ok,
      .schedulerReplay 0 Sample.item [],
      .replaySelect (.scheduler 0) Sample.event.id,
      .schedulerReplayFailed 0 Sample.item [] (.deadLetterNotFailed .processing),
      .reschedule 0 Sample.item (.deadLetterNotFailed .processing) [] 0 60 .ok,
      .markFailed 0 (Sample.claim 1 0) 1 "timeout" 0 .ok,
      .returns 0 (Sample.claim 1 0) true (.ack 1),
      .settle 0 Sample.event (.ack 1)]

set_option maxRecDepth 4000 in
/-- The early replay is refused: one of the three attempts is spent and the event was never
retried. -/
theorem retry_budget_spent_without_replay :
    ¬ ∀ s : System String, ReachableVia Codec.text Sample.config (CleanStep Sample.config) s →
      (∀ n, s.schedulers n = .idle) →
      ∀ row ∈ s.db.deadLetters.rows, row.replayAttempts = s.history.autoReplays row.eventId := by
  intro accounted
  have ran : (run (step Codec.text Sample.config) System.initial earlyRetryRun).map
      (fun s => (s.schedulers 0, s.db.deadLetters.rows.map fun row =>
        (row.replayAttempts, s.history.autoReplays row.eventId))) = some (.idle, [(1, 0)]) := by
    decide +kernel
  obtain ⟨s, reaches, both⟩ := Option.map_eq_some_iff.mp ran
  obtain ⟨outside, rows⟩ := Prod.mk.inj both
  obtain ⟨row, only, columns⟩ := List.map_eq_singleton_iff.mp rows
  obtain ⟨attempts, replays⟩ := Prod.mk.inj columns
  have clean : Along (step Codec.text Sample.config) (CleanStep Sample.config) System.initial
      earlyRetryRun :=
    along_cleanStep (by decide +kernel) (along_punctual_of_bounded 1 rfl (by decide +kernel))
  have equal := accounted s (.of_run .start clean reaches)
    (schedulers_idle_of_run (by decide) reaches outside) row (by rw [only]; simp)
  rw [attempts, replays] at equal
  cases equal

end WebhookProcessor
