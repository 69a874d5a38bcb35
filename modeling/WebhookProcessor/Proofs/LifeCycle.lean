/-
Module: WebhookProcessor.Proofs.LifeCycle
Layer: Proofs
Purpose: The life cycle of an event's status over whole runs.  Acceptance, claims and replays keep
  to it in every interleaving.  `MarkProcessed` and `MarkFailed` have no status in their WHERE, so
  a worker that lost its lease can overwrite a status that is no longer `processing`; a run keeps
  to the life cycle exactly when none of these writes comes out of turn.
Trusted boundary: none
Main exports: LifeCycleChange, LifeCycleKept, TerminalWriteInTurn,
  life_cycle_kept_iff_terminal_writes_in_turn
-/
import WebhookProcessor.Model.Calls
import WebhookProcessor.Proofs.Transactions

namespace WebhookProcessor

open Transition

/-- The changes of an event's row that the life cycle allows, at a moment when the clock shows
`clock`. -/
inductive LifeCycleChange (config : Config) (clock : Time) :
    Option EventRow → Option EventRow → Prop where
  | accepted {row : EventRow} (queued : row.status = .queued) :
      LifeCycleChange config clock none (some row)
  | claimed {old new : EventRow} (queued : old.status = .queued)
      (processing : new.status = .processing) :
      LifeCycleChange config clock (some old) (some new)
  | reclaimed {old new : EventRow} (processing : old.status = .processing)
      (again : new.status = .processing)
      (expired : atOrBefore old.processingStartedAt (clock - config.processingLease)) :
      LifeCycleChange config clock (some old) (some new)
  | processed {old new : EventRow} (processing : old.status = .processing)
      (done : new.status = .processed) : LifeCycleChange config clock (some old) (some new)
  | failed {old new : EventRow} (processing : old.status = .processing)
      (gaveUp : new.status = .failed) : LifeCycleChange config clock (some old) (some new)
  | replayed {old new : EventRow} (gaveUp : old.status = .failed)
      (queued : new.status = .queued) : LifeCycleChange config clock (some old) (some new)

/-- Neither the status nor, while processing, the start of the processing changes. -/
def StatusKept (old new : Option EventRow) : Prop :=
  old.map EventRow.status = new.map EventRow.status ∧
    (old.map EventRow.status = some .processing →
      old.bind EventRow.processingStartedAt = new.bind EventRow.processingStartedAt)

theorem StatusKept.refl (row : Option EventRow) : StatusKept row row :=
  ⟨rfl, fun _ => rfl⟩

variable {Payload : Type}

/-- The step changes every event's status only as the life cycle allows. -/
def LifeCycleKept (config : Config) (before : System Payload) (_ : Action Payload)
    (after : System Payload) : Prop :=
  ∀ id, StatusKept (before.db.event? id) (after.db.event? id) ∨
    LifeCycleChange config before.clock (before.db.event? id) (after.db.event? id)

/-- The event and the status that an executed `MarkProcessed` or `MarkFailed` writes. -/
def Action.terminalWrite? : Action Payload → Option (EventId × EventStatus)
  | .markProcessed _ claim _ _ outcome =>
      if outcome.Effective then some (claim.event.id, .processed) else none
  | .markFailed _ claim _ _ _ outcome =>
      if outcome.Effective then some (claim.event.id, .failed) else none
  | _ => none

/-- A terminal write finds the event still processing, or already as it would leave it. -/
def TerminalWriteInTurn (before : System Payload) (action : Action Payload)
    (_ : System Payload) : Prop :=
  ∀ write ∈ action.terminalWrite?, ∀ row ∈ before.db.event? write.1,
    row.status = .processing ∨ row.status = write.2

instance (before : System Payload) (action : Action Payload) (after : System Payload) :
    Decidable (TerminalWriteInTurn before action after) :=
  inferInstanceAs (Decidable (∀ write ∈ action.terminalWrite?, _))

variable [DecidableEq Payload] {codec : Codec Payload} {config : Config} {s s' : System Payload}
  {action : Action Payload}

theorem lifeCycleKept_of_inTurn (reached : Reachable codec config s)
    (taken : step codec config s action = some s') (inTurn : TerminalWriteInTurn s action s') :
    LifeCycleKept config s action s' := by
  intro id
  have effect := step_event taken id
  generalize s'.db.event? id = after at effect
  cases effect with
  | unchanged => exact Or.inl (StatusKept.refl _)
  | accepted phase same =>
      have absent : s.db.event? id = none :=
        (saveKeysFree reached).event _ id (by rw [phase, ← same]; exact Or.inl rfl)
      rw [absent]
      exact Or.inr (.accepted rfl)
  | claimed _ sampled _ _ found claimable =>
      rw [found]
      rcases claimable with queued | ⟨processing, expired⟩
      · exact Or.inr (.claimed queued rfl)
      · exact Or.inr (.reclaimed processing rfl
          (atOrBefore_mono (Int.sub_le_sub_right sampled _) expired))
  | finished _ effective _ same found =>
      subst same
      rw [found]
      rcases inTurn _ (if_pos effective) _ found with processing | processed
      · exact Or.inr (.processed processing rfl)
      · exact Or.inl ⟨congrArg some processed, fun processing => by simp [processed] at processing⟩
  | failed _ effective _ same found =>
      subst same
      rw [found]
      rcases inTurn _ (if_pos effective) _ found with processing | failed
      · exact Or.inr (.failed processing rfl)
      · exact Or.inl ⟨congrArg some failed, fun processing => by simp [failed] at processing⟩
  | requeued phase moved same found =>
      subst same
      have failed := movedFailed reached _ _ (by rw [phase]; rfl) moved
      rw [Database.status?, found] at failed
      rw [found]
      exact Or.inr (.replayed (Option.some.inj failed) rfl)

/-- A change to a terminal status starts from `processing`, unless the event had it before. -/
private theorem terminal_from {clock : Time} {old new : EventRow} {target : EventStatus}
    (terminal : target = .processed ∨ target = .failed) (ends : new.status = target)
    (kept : StatusKept (some old) (some new) ∨ LifeCycleChange config clock (some old) (some new)) :
    old.status = .processing ∨ old.status = target := by
  rcases kept with ⟨same, _⟩ | change
  · exact Or.inr ((Option.some.inj same).trans ends)
  · cases change with
    | processed processing => exact Or.inl processing
    | failed processing => exact Or.inl processing
    | reclaimed processing => exact Or.inl processing
    | claimed _ processing =>
        rw [processing] at ends
        simp [← ends] at terminal
    | replayed _ queued =>
        rw [queued] at ends
        simp [← ends] at terminal

/-- A terminal write leaves the row of its event in the status it writes. -/
theorem event?_of_terminalWrite (taken : step codec config s action = some s')
    {write : EventId × EventStatus} (writes : write ∈ action.terminalWrite?) {row : EventRow}
    (found : s.db.event? write.1 = some row) :
    (write.2 = .processed ∨ write.2 = .failed) ∧
      ∃ new, s'.db.event? write.1 = some new ∧ new.status = write.2 := by
  cases action
  all_goals simp only [Action.terminalWrite?, Option.mem_def, Option.ite_none_right_eq_some,
    Option.some.injEq, reduceCtorEq] at writes
  case markProcessed w claim attempt now outcome =>
      obtain ⟨effective, rfl⟩ := writes
      simp only [step, Option.ite_none_right_eq_some, Option.some.injEq] at taken
      obtain ⟨_, rfl⟩ := taken
      refine ⟨Or.inl rfl, row.finish attempt now, ?_, rfl⟩
      simp only [System.setPhase, System.setWorker, effective, if_true,
        Database.event?_markProcessed, found, Option.map_some]
  case markFailed w claim attempt error now outcome =>
      obtain ⟨effective, rfl⟩ := writes
      simp only [step, Option.ite_none_right_eq_some, Option.some.injEq] at taken
      obtain ⟨_, rfl⟩ := taken
      refine ⟨Or.inr rfl, row.fail attempt error now, ?_, rfl⟩
      simp only [System.setPhase, System.setWorker, effective, if_true,
        Database.event?_markFailed, found, Option.map_some]

theorem inTurn_of_lifeCycleKept (taken : step codec config s action = some s')
    (kept : LifeCycleKept config s action s') : TerminalWriteInTurn s action s' := by
  intro write writes row found
  have change := kept write.1
  obtain ⟨terminal, new, foundNew, ends⟩ := event?_of_terminalWrite taken writes found
  rw [Option.mem_def.mp found, foundNew] at change
  exact terminal_from terminal ends change

omit [DecidableEq Payload] in
/-- Nothing in the life cycle leads out of `processed`. -/
theorem LifeCycleKept.processed (kept : LifeCycleKept config s action s') {id : EventId}
    (processed : s.db.status? id = some .processed) : s'.db.status? id = some .processed := by
  obtain ⟨row, found, status⟩ := s.db.status?_eq_some_iff.mp processed
  rcases kept id with ⟨same, _⟩ | change
  · exact same.symm.trans processed
  · rw [found] at change
    generalize s'.db.event? id = after at change
    cases change <;> simp_all

/-- A run keeps to the life cycle exactly when every terminal write comes in turn, and then an
event that has been processed stays processed. -/
theorem life_cycle_kept_iff_terminal_writes_in_turn (codec : Codec Payload) (config : Config)
    (actions : List (Action Payload)) :
    (Along (step codec config) (LifeCycleKept config) System.initial actions ↔
      Along (step codec config) TerminalWriteInTurn System.initial actions) ∧
    (Along (step codec config) TerminalWriteInTurn System.initial actions →
      ∀ earlier later middle final, actions = earlier ++ later →
        run (step codec config) System.initial earlier = some middle →
        run (step codec config) middle later = some final →
        ∀ id, middle.db.status? id = some .processed → final.db.status? id = some .processed) := by
  have agree : Along (step codec config) (LifeCycleKept config) System.initial actions ↔
      Along (step codec config) TerminalWriteInTurn System.initial actions := by
    refine along_congr ?_ actions .start
    intro before action after reached taken
    exact ⟨inTurn_of_lifeCycleKept taken, lifeCycleKept_of_inTurn reached taken⟩
  refine ⟨agree, ?_⟩
  rintro inTurn earlier later middle final rfl ranEarlier ranLater id processed
  have kept := (agree.mpr inTurn).later ranEarlier
  exact kept.preserves (fun _ _ _ change => change.processed) ranLater processed

/-- The event is processed in one delivery. -/
def processedRun : List (Action String) :=
  Sample.sent ++ attemptStatements 0 Sample.message (Sample.claim 1 0) none ++
    finishStatements 0 (Sample.claim 1 0) 0 1

set_option maxRecDepth 4000 in
theorem life_cycle_kept_of_processedRun :
    Along (step Codec.text Sample.config) (LifeCycleKept Sample.config) System.initial
      processedRun :=
  (life_cycle_kept_iff_terminal_writes_in_turn Codec.text Sample.config processedRun).1.mpr
    (by decide +kernel)

/-- Worker 0 claims the event and is still working when its lease expires; worker 1 reclaims the
event and finishes it; then the processor of worker 0 gives up. -/
def overtakenRun : List (Action String) :=
  Sample.sent ++
    [.deliver 0 0 Sample.message Sample.event,
      .claimForProcessing 0 Sample.event 0 .ok,
      .loseConnection 0 Sample.message,
      .tick 400] ++
    attemptStatements 1 Sample.message (Sample.claim 2 400) none ++
    finishStatements 1 (Sample.claim 2 400) 400 1 ++
    [.processorReturns 0 (Sample.claim 1 0) 1 (some "timeout"),
      .saveDeadLetter 0 (Sample.claim 1 0) 1 "timeout" Sample.event.payload 400 .ok]

set_option maxRecDepth 4000 in
/-- The `MarkFailed` of the overtaken worker turns a processed event into a failed one. -/
theorem life_cycle_broken_by_overtaken_worker :
    ¬ ∀ actions : List (Action String),
      Along (step Codec.text Sample.config) (LifeCycleKept Sample.config) System.initial
        actions := by
  intro kept
  have statuses :
      ((run (step Codec.text Sample.config) System.initial overtakenRun).bind fun before =>
        (step Codec.text Sample.config before
          (.markFailed 0 (Sample.claim 1 0) 1 "timeout" 400 .ok)).map fun after =>
            (before.db.status? Sample.event.id, after.db.status? Sample.event.id)) =
        some (some .processed, some .failed) := by
    decide +kernel
  obtain ⟨before, ran, rest⟩ := Option.bind_eq_some_iff.mp statuses
  obtain ⟨after, taken, both⟩ := Option.map_eq_some_iff.mp rest
  obtain ⟨processed, failed⟩ := Prod.mk.inj both
  have stays := ((kept (overtakenRun ++ [_])).last ran taken).processed processed
  rw [failed] at stays
  cases stays

end WebhookProcessor
