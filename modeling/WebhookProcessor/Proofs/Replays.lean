/-
Module: WebhookProcessor.Proofs.Replays
Layer: Proofs
Purpose: Concurrent `ReplayDeadLetter` calls, statement by statement.  The call checks the status in
  a SELECT without a row lock, and nobody looks at how many rows its UPDATE of `events` matched, so
  a call that was overtaken between the two statements still commits and reports success.  Where
  every UPDATE finds its event failed, the calls are linearizable.
Trusted boundary: none
Main exports: ReplayFindsFailed, ReplayAtomic, SameTables, replays_linearizable
-/
import WebhookProcessor.Model.Calls
import WebhookProcessor.Proofs.HistoryEffects
import WebhookProcessor.Proofs.Transactions

namespace WebhookProcessor

open Transition

variable {Payload : Type}

/-- The UPDATE of `events` in a replay finds the event as failed as the SELECT did. -/
def ReplayFindsFailed (before : System Payload) (action : Action Payload)
    (_ : System Payload) : Prop :=
  match action with
  | .replayResetEvent _ id _ _ _ _ => before.db.status? id = some .failed
  | _ => True

instance (before : System Payload) (action : Action Payload) (after : System Payload) :
    Decidable (ReplayFindsFailed before action after) := by
  apply Action.casesOn (motive := fun action =>
    Decidable (ReplayFindsFailed before action after)) action
  all_goals
    intros
    delta ReplayFindsFailed
    infer_instance

/-- The committed tables are the same. -/
structure SameTables (s s' : System Payload) : Prop where
  events : s'.db.events = s.db.events
  outbox : s'.db.outbox = s.db.outbox
  deadLetters : s'.db.deadLetters = s.db.deadLetters

/-- A call that returns success has itself moved the event from failed to queued, in one step; a
step of a call that moves no event leaves the tables as they were. -/
def ReplayAtomic (before : System Payload) (action : Action Payload)
    (after : System Payload) : Prop :=
  ∀ caller, action.caller? = some caller →
    (∀ id, after.replays caller = .succeeded id →
      before.db.status? id = some .failed ∧ after.db.status? id = some .queued) ∧
    ((∀ id, ¬ (before.db.status? id = some .failed ∧ after.db.status? id = some .queued)) →
      SameTables before after)

/-- Every open replay whose UPDATE of `events` has run has moved the event. -/
def AllMoved (s : System Payload) : Prop :=
  ∀ caller tx, (s.replays caller).tx? = some tx → tx.moved = true

variable [DecidableEq Payload] {codec : Codec Payload} {config : Config} {s s' : System Payload}
  {action : Action Payload}

theorem AllMoved.of_step (allMoved : AllMoved s) (taken : step codec config s action = some s')
    (findsFailed : ReplayFindsFailed s action s') : AllMoved s' := by
  intro caller tx running
  have effect := step_replay taken caller
  generalize s'.replays caller = call at effect running
  have before : (s.replays caller).tx? = some tx → tx.moved = true := allMoved caller tx
  cases effect with
  | unchanged => exact before running
  | selected => simp [Database.tx?_selectForReplay] at running
  | eventReset =>
      cases running
      exact decide_eq_true findsFailed
  | outboxReopened phase => exact before (by rw [phase]; exact running)
  | outboxMissing phase => exact before (by rw [phase]; exact running)
  | @outboxInserted old phase =>
      cases running
      have moved : old.moved = true := allMoved caller old (by rw [phase]; rfl)
      exact moved
  | deadLetterMarked phase => exact before (by rw [phase]; exact running)
  | begun => cases running
  | committed => cases running
  | commitLost => cases running
  | failed => cases running
  | scheduled => cases running
  | crashed => cases running

theorem allMoved (reached : ReachableVia codec config ReplayFindsFailed s) : AllMoved s := by
  refine reached.invariant ?_ ?_
  · intro caller tx running
    cases running
  · intro before action after _ inv taken findsFailed
    exact inv.of_step taken findsFailed

/-- The commit of a replay that moved the event. -/
theorem commit_moves (reached : Reachable codec config s) {caller : Caller} {tx : ReplayTx}
    {error : Option String} (taken : step codec config s (.replayCommit caller tx error) = some s')
    (moved : tx.moved = true) :
    s.db.status? tx.eventId = some .failed ∧ s'.db.status? tx.eventId = some .queued := by
  simp only [step, Option.ite_none_right_eq_some, Option.some.injEq] at taken
  obtain ⟨phase, rfl⟩ := taken
  have failed := movedFailed reached caller tx (by rw [phase]; rfl) moved
  obtain ⟨row, found, _⟩ := s.db.status?_eq_some_iff.mp failed
  refine ⟨failed, ?_⟩
  change ((s.db.commitReplay tx).event? tx.eventId).map EventRow.status = some .queued
  rw [Database.event?_commitReplay, if_pos ⟨rfl, moved⟩, found]
  rfl

/-- Only the commit changes the committed tables. -/
theorem sameTables_of_caller (taken : step codec config s action = some s') {caller : Caller}
    (acting : action.caller? = some caller) :
    SameTables s s' ∨ ∃ tx error, action = .replayCommit caller tx error := by
  cases action
  all_goals simp only [Action.caller?, reduceCtorEq, Option.some.injEq] at acting
  case replayCommit c tx error =>
      subst acting
      exact Or.inr ⟨tx, error, rfl⟩
  all_goals
    simp only [step, Option.ite_none_right_eq_some, Option.some.injEq] at taken
    obtain ⟨_, rfl⟩ := taken
    refine Or.inl ?_
    first
    | exact ⟨rfl, rfl, rfl⟩
    | (dsimp only [System.setReplay]
       split <;> exact ⟨rfl, rfl, rfl⟩)

/-- Only the commit makes a call succeed. -/
theorem commit_of_succeeded (taken : step codec config s action = some s') {caller : Caller}
    (acting : action.caller? = some caller) {id : EventId}
    (succeeded : s'.replays caller = .succeeded id) :
    ∃ tx, action = .replayCommit caller tx none ∧ s.replays caller = .deadLetterMarked tx ∧
      tx.eventId = id := by
  have effect := step_replay taken caller
  rw [succeeded] at effect
  generalize returned : ReplayCall.succeeded id = call at effect
  cases effect with
  | unchanged other => exact absurd acting other
  | @committed tx phase =>
      cases returned
      exact ⟨tx, rfl, phase, rfl⟩
  | @selected target =>
      rcases s.db.selectForReplay_cases target with ⟨_, _, _, selected⟩ | ⟨_, failed⟩
      · rw [selected] at returned
        cases returned
      · rw [failed] at returned
        cases returned
  | _ => cases returned

theorem replayAtomic_of_allMoved (reached : Reachable codec config s) (moved : AllMoved s)
    (taken : step codec config s action = some s') : ReplayAtomic s action s' := by
  intro caller acting
  constructor
  · intro id succeeded
    obtain ⟨tx, rfl, phase, rfl⟩ := commit_of_succeeded taken acting succeeded
    exact commit_moves reached taken (moved caller tx (by rw [phase]; rfl))
  · intro unmoved
    rcases sameTables_of_caller taken acting with same | ⟨tx, error, rfl⟩
    · exact same
    · have phase : s.replays caller = .deadLetterMarked tx := by
        simp only [step, Option.ite_none_right_eq_some] at taken
        exact taken.1
      have commits := commit_moves reached taken (moved caller tx (by rw [phase]; rfl))
      exact absurd commits (unmoved tx.eventId)

/-! ### Counting -/

/-- One if the event is failed now. -/
def failedNow (s : System Payload) (id : EventId) : Nat :=
  if s.db.status? id = some .failed then 1 else 0

omit [DecidableEq Payload] in
private theorem failedNow_le (s : System Payload) (id : EventId) : failedNow s id ≤ 1 := by
  unfold failedNow
  split <;> omega

omit [DecidableEq Payload] in
private theorem failedNow_eq_zero {id : EventId} {row : EventRow}
    (found : s.db.event? id = some row) (other : row.status ≠ .failed) : failedNow s id = 0 := by
  simp [failedNow, Database.status?, found, other]

/-- An event becomes failed only by a step that counts as a failure. -/
theorem step_failedNow (taken : step codec config s action = some s') (id : EventId) :
    failedNow s' id ≤ failedNow s id + if action.fails? s = some id then 1 else 0 := by
  have effect := step_event taken id
  generalize found : s'.db.event? id = after at effect
  have kept : after = s.db.event? id → failedNow s' id = failedNow s id := by
    intro same
    have status : s'.db.status? id = s.db.status? id := by
      rw [Database.status?, Database.status?, found, same]
    rw [failedNow, failedNow, status]
  cases effect with
  | unchanged =>
      rw [kept rfl]
      omega
  | accepted =>
      cases before : s.db.event? id with
      | none =>
          rw [before] at found
          rw [failedNow_eq_zero found fun same => by cases same]
          omega
      | some row =>
          rw [kept (by rw [before]; rfl)]
          omega
  | claimed =>
      rw [failedNow_eq_zero found fun same => by cases same]
      omega
  | finished =>
      rw [failedNow_eq_zero found fun same => by cases same]
      omega
  | requeued =>
      rw [failedNow_eq_zero found fun same => by cases same]
      omega
  | @failed w claim attempt error now outcome _ _ effective _ same =>
      subst same
      have bound := failedNow_le s' claim.event.id
      by_cases already : s.db.status? claim.event.id = some .failed
      · have one : failedNow s claim.event.id = 1 := if_pos already
        omega
      · have counts : (Action.markFailed w claim attempt error now outcome).fails? s =
            some claim.event.id := if_pos ⟨effective, already⟩
        rw [if_pos counts]
        omega

/-- Every committed replay has used up one failure, and a standing failure is still unused. -/
def ReplaysCounted (s : System Payload) : Prop :=
  ∀ id, s.history.replays id + failedNow s id ≤ s.history.failures id

theorem replaysCounted (reached : ReachableVia codec config ReplayFindsFailed s) :
    ReplaysCounted s := by
  refine reached.invariant ?_ ?_
  · intro id
    simp [failedNow, System.initial, History.empty, Database.status?]
  · intro before action after earlier inv taken _meets id
    have counted := inv id
    have replays := step_replays taken id
    have failures := step_failures taken id
    have failing := step_failedNow taken id
    by_cases replayed : action.replays? = some id
    · -- the commit takes the failure away that it counts
      rw [if_pos replayed] at replays
      cases action
      all_goals simp only [Action.replays?, reduceCtorEq, Option.some.injEq] at replayed
      case replayCommit caller tx error =>
          subst replayed
          have phase : before.replays caller = .deadLetterMarked tx := by
            simp only [step, Option.ite_none_right_eq_some] at taken
            exact taken.1
          have moved := allMoved earlier caller tx (by rw [phase]; rfl)
          obtain ⟨failed, queued⟩ := commit_moves earlier.reachable taken moved
          have one : failedNow before tx.eventId = 1 := if_pos failed
          have zero : failedNow after tx.eventId = 0 := if_neg (by rw [queued]; decide)
          omega
    · rw [if_neg replayed] at replays
      omega

/-- In a run whose replays always find the event failed when they reset it, every call is atomic
and every failure is replayed at most once. -/
theorem replays_linearizable (reached : ReachableVia codec config ReplayFindsFailed s) :
    (∀ action s', step codec config s action = some s' → ReplayAtomic s action s') ∧
      ∀ id, s.history.replays id ≤ s.history.failures id := by
  constructor
  · intro action s' taken
    exact replayAtomic_of_allMoved reached.reachable (allMoved reached) taken
  · intro id
    have counted := replaysCounted reached id
    omega

/-- The event has failed once. -/
def failedRun : List (Action String) :=
  Sample.sent ++ attemptStatements 0 Sample.message (Sample.claim 1 0) (some "timeout") ++
    failStatements 0 (Sample.claim 1 0) "timeout" Sample.event.payload 0 1

set_option maxRecDepth 4000 in
theorem replays_linearizable_of_replayed_run :
    ∃ s, run (step Codec.text Sample.config) System.initial
        (failedRun ++ replayStatements (.cli 0) (Sample.replayTx true)) = some s ∧
      s.history.replays Sample.event.id = 1 ∧
      s.history.replays Sample.event.id ≤ s.history.failures Sample.event.id := by
  have ran : (run (step Codec.text Sample.config) System.initial
      (failedRun ++ replayStatements (.cli 0) (Sample.replayTx true))).map
        (fun s => s.history.replays Sample.event.id) = some 1 := by
    decide +kernel
  obtain ⟨s, reaches, counted⟩ := Option.map_eq_some_iff.mp ran
  have meets : Along (step Codec.text Sample.config) ReplayFindsFailed System.initial
      (failedRun ++ replayStatements (.cli 0) (Sample.replayTx true)) := by
    decide +kernel
  exact ⟨s, reaches, counted, (replays_linearizable (.of_run .start meets reaches)).2 _⟩

/-- Both the HTTP handler and the CLI command have read the event as failed; the CLI command
commits its replay before the handler resets the event. -/
def overtakenReplayRun : List (Action String) :=
  failedRun ++
    [.replay (.http 0) Sample.event.id,
      .replaySelect (.http 0) Sample.event.id] ++
    replayStatements (.cli 0) (Sample.replayTx true) ++
    [.replayResetEvent (.http 0) Sample.event.id Sample.event.type Sample.event.requestId
        Sample.event.payload 0,
      .replayReopenOutbox (.http 0) (Sample.replayTx false),
      .replayMarkDeadLetter (.http 0) (Sample.replayTx false)]

set_option maxRecDepth 4000 in
/-- The handler's call succeeds although it found the event queued and moved nothing. -/
theorem replay_succeeds_without_moving :
    ¬ ∀ (s s' : System String) (action : Action String),
      Reachable Codec.text Sample.config s → step Codec.text Sample.config s action = some s' →
        ReplayAtomic s action s' := by
  intro atomic
  have outcome :
      ((run (step Codec.text Sample.config) System.initial overtakenReplayRun).bind fun before =>
        (step Codec.text Sample.config before
          (.replayCommit (.http 0) (Sample.replayTx false) none)).map fun after =>
            (before.db.status? Sample.event.id, after.replays (.http 0))) =
        some (some .queued, .succeeded Sample.event.id) := by
    decide +kernel
  obtain ⟨before, ran, rest⟩ := Option.bind_eq_some_iff.mp outcome
  obtain ⟨after, taken, both⟩ := Option.map_eq_some_iff.mp rest
  obtain ⟨queued, succeeded⟩ := Prod.mk.inj both
  have moved := ((atomic before after _ (Reachable.of_run ran) taken) (.http 0) rfl).1 _ succeeded
  rw [queued] at moved
  cases moved.1

end WebhookProcessor
