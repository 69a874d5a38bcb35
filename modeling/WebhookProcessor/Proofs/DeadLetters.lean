/-
Module: WebhookProcessor.Proofs.DeadLetters
Layer: Proofs
Purpose: Whether `dead_letters` agrees with the status of the events.  A worker that gives up writes
  the two tables in two separate statements, neither of which checks that the worker still owns
  the event, and a later success does not look at the dead letter.  The tables agree in every state
  of a run in which these statements come from the current claim and a success finds no dead letter
  left open.
Trusted boundary: none
Main exports: OpenLetter, Current, WritesUnderClaim, LettersAgree, dead_letters_agree_with_status
-/
import WebhookProcessor.Proofs.ExclusiveProcessing
import WebhookProcessor.Proofs.Replays

namespace WebhookProcessor

open Transition

/-- The event has a dead letter that has not been replayed. -/
def OpenLetter (db : Database) (id : EventId) : Prop :=
  ∃ row ∈ db.deadLetter? id, row.replayedAt = none

instance (db : Database) (id : EventId) : Decidable (OpenLetter db id) :=
  inferInstanceAs (Decidable (∃ row ∈ db.deadLetter? id, _))

variable {Payload : Type}

/-- The event is processing, and under this very claim. -/
def Current (s : System Payload) (claim : Claim Payload) : Prop :=
  s.db.status? claim.event.id = some .processing ∧
    s.history.claims claim.event.id = claim.number

instance (s : System Payload) (claim : Claim Payload) : Decidable (Current s claim) :=
  inferInstanceAs (Decidable (_ ∧ _))

/-- A worker gives up only under its current claim, a success finds no open dead letter, and a
replay resets an event that is still failed. -/
def WritesUnderClaim (before : System Payload) (action : Action Payload)
    (_ : System Payload) : Prop :=
  match action with
  | .saveDeadLetter _ claim _ _ _ _ outcome => outcome.Effective → Current before claim
  | .markFailed _ claim _ _ _ outcome => outcome.Effective → Current before claim
  | .markProcessed _ claim _ _ outcome =>
      outcome.Effective → ¬ OpenLetter before.db claim.event.id
  | .replayResetEvent _ id _ _ _ _ => before.db.status? id = some .failed
  | _ => True

instance (before : System Payload) (action : Action Payload) (after : System Payload) :
    Decidable (WritesUnderClaim before action after) := by
  apply Action.casesOn (motive := fun action =>
    Decidable (WritesUnderClaim before action after)) action
  all_goals
    intros
    delta WritesUnderClaim
    infer_instance

/-- The agreement of the two tables, and what the claims contribute to it. -/
structure LettersAgree (s : System Payload) : Prop where
  numbered : ∀ w claim, (s.workers w).phase.active = some claim →
    claim.number ≤ s.history.claims claim.event.id
  failed : ∀ id, s.db.status? id = some .failed → OpenLetter s.db id
  processed : ∀ id, s.db.status? id = some .processed → ¬ OpenLetter s.db id
  saved : ∀ w claim attempt error, (s.workers w).phase = .deadLettered claim attempt error →
    Current s claim → OpenLetter s.db claim.event.id

variable [DecidableEq Payload] {codec : Codec Payload} {config : Config} {s s' : System Payload}
  {action : Action Payload}

/-! ### Open dead letters -/

/-- Only the commit of a replay closes a dead letter. -/
theorem openLetter_of_before (taken : step codec config s action = some s') {id : EventId}
    (isOpen : OpenLetter s.db id) :
    OpenLetter s'.db id ∨
      ∃ caller tx error, action = .replayCommit caller tx error ∧ tx.eventId = id := by
  obtain ⟨row, found, unreplayed⟩ := isOpen
  have effect := step_deadLetter taken id
  unfold OpenLetter
  generalize s'.db.deadLetter? id = after at effect
  cases effect with
  | unchanged => exact Or.inl ⟨row, found, unreplayed⟩
  | saved =>
      rw [Option.mem_def.mp found]
      exact Or.inl ⟨_, rfl, rfl⟩
  | replayed _ same => exact Or.inr ⟨_, _, _, rfl, same⟩
  | spent _ _ old =>
      cases found.symm.trans old
      exact Or.inl ⟨_, rfl, unreplayed⟩
  | spentDirectly old =>
      cases found.symm.trans old
      exact Or.inl ⟨_, rfl, unreplayed⟩
  | rescheduled _ _ _ old =>
      cases found.symm.trans old
      exact Or.inl ⟨_, rfl, unreplayed⟩
  | rescheduledDirectly old =>
      cases found.symm.trans old
      exact Or.inl ⟨_, rfl, unreplayed⟩

/-- Only `SaveDeadLetter` opens one. -/
theorem openLetter_before (taken : step codec config s action = some s') {id : EventId}
    (isOpen : OpenLetter s'.db id) :
    OpenLetter s.db id ∨ ∃ w claim attempt error payload now outcome,
      action = .saveDeadLetter w claim attempt error payload now outcome ∧
        outcome.Effective ∧ claim.event.id = id := by
  obtain ⟨row, found, unreplayed⟩ := isOpen
  have effect := step_deadLetter taken id
  rw [Option.mem_def.mp found] at effect
  generalize same : some row = after at effect
  cases effect with
  | unchanged => exact Or.inl ⟨row, same.symm, unreplayed⟩
  | saved _ effective _ _ sameEvent =>
      exact Or.inr ⟨_, _, _, _, _, _, _, rfl, effective, sameEvent⟩
  | replayed =>
      cases same
      cases unreplayed
  | spent _ _ old =>
      cases same
      exact Or.inl ⟨_, old, unreplayed⟩
  | spentDirectly old =>
      cases same
      exact Or.inl ⟨_, old, unreplayed⟩
  | rescheduled _ _ _ old =>
      cases same
      exact Or.inl ⟨_, old, unreplayed⟩
  | rescheduledDirectly old =>
      cases same
      exact Or.inl ⟨_, old, unreplayed⟩

/-- `SaveDeadLetter` leaves an open dead letter. -/
theorem openLetter_of_save {w : Nat} {claim : Claim Payload} {attempt : Nat}
    {error payload : String} {now : Time} {outcome : Outcome}
    (taken : step codec config s (.saveDeadLetter w claim attempt error payload now outcome) =
      some s') (effective : outcome.Effective) : OpenLetter s'.db claim.event.id := by
  simp only [step, Option.ite_none_right_eq_some, Option.some.injEq] at taken
  obtain ⟨_, rfl⟩ := taken
  simp only [OpenLetter, System.setPhase, System.setWorker, effective, if_true,
    Database.deadLetter?_saveDeadLetter, Option.mem_def, Option.some.injEq, exists_eq_left']
  cases s.db.deadLetter? claim.event.id <;> rfl

/-! ### Claims -/

/-- A claim that is current after a step was current before, unless the step made it. -/
theorem current_before (taken : step codec config s action = some s') {claim : Claim Payload}
    (numbered : claim.number ≤ s.history.claims claim.event.id) (current : Current s' claim) :
    Current s claim := by
  obtain ⟨processing, number⟩ := current
  have counted := step_claims taken claim.event.id
  have unclaimed : action.claims? config s ≠ some claim.event.id := by
    intro claims
    rw [if_pos claims] at counted
    omega
  rw [if_neg unclaimed] at counted
  refine ⟨?_, counted.symm.trans number⟩
  have effect := step_event taken claim.event.id
  rw [Database.status?] at processing
  generalize s'.db.event? claim.event.id = after at effect processing
  cases effect with
  | unchanged => exact processing
  | accepted =>
      rw [Database.status?]
      cases before : s.db.event? claim.event.id with
      | none => simp [before, queuedEventRow] at processing
      | some row => simpa [before] using processing
  | claimed _ _ effective same found claimable =>
      exact absurd (by simp [Action.claims?, effective, same, Database.claimMatches_iff, found,
        claimable]) unclaimed
  | finished => cases processing
  | failed => cases processing
  | requeued => cases processing

/-! ### One step -/

namespace LettersAgree

private theorem step_numbered (agree : LettersAgree s)
    (taken : step codec config s action = some s') (w : Nat) (claim : Claim Payload)
    (active : (s'.workers w).phase.active = some claim) :
    claim.number ≤ s'.history.claims claim.event.id := by
  have counted := step_claims taken claim.event.id
  have effect := step_worker taken w
  generalize s'.workers w = worker at effect active
  have before : (s.workers w).phase.active = some claim →
      claim.number ≤ s'.history.claims claim.event.id := by
    intro wasActive
    have bound := agree.numbered w claim wasActive
    omega
  cases effect with
  | unchanged => exact before active
  | disconnected => exact before active
  | claimed phase sampled matched =>
      cases active
      have claims : Action.claims? config s (.claimForProcessing w _ _ .ok) = some _ :=
        if_pos ⟨Outcome.effective_ok, matched⟩
      rw [counted, if_pos claims]
  | attempted phase =>
      rw [afterAttempt_active] at active
      exact before (by rw [phase]; exact active)
  | deadLettered phase => exact before (by rw [phase]; exact active)
  | processedError phase =>
      obtain ⟨rfl, _⟩ := returning_active_iff.mp active
      exact before (by rw [phase]; rfl)
  | deadLetterError phase => exact before (by rw [phase]; exact active)
  | failedError phase =>
      obtain ⟨rfl, _⟩ := returning_active_iff.mp active
      exact before (by rw [phase]; rfl)
  | delivered => cases active
  | unclaimed => cases active
  | claimError => cases active
  | statusRead => cases active
  | statusError => cases active
  | processed => cases active
  | failed => cases active
  | returned => cases active
  | settled => cases active
  | crashed => cases active

/-- A dead letter stays open while its event does not leave the status it has for a replay. -/
private theorem openLetter_stays (reached : Reachable codec config s) (moved : AllMoved s)
    (taken : step codec config s action = some s') {id : EventId} (isOpen : OpenLetter s.db id)
    (unmoved : s.db.status? id ≠ some .failed ∨ s'.db.status? id ≠ some .queued) :
    OpenLetter s'.db id := by
  rcases openLetter_of_before taken isOpen with still | ⟨caller, tx, error, rfl, rfl⟩
  · exact still
  · have phase : s.replays caller = .deadLetterMarked tx := by
      simp only [step, Option.ite_none_right_eq_some] at taken
      exact taken.1
    obtain ⟨failed, queued⟩ := commit_moves reached taken (moved caller tx (by rw [phase]; rfl))
    rcases unmoved with other | other
    · exact absurd failed other
    · exact absurd queued other

private theorem step_failed (reached : Reachable codec config s) (agree : LettersAgree s)
    (moved : AllMoved s) (taken : step codec config s action = some s')
    (underClaim : WritesUnderClaim s action s') (id : EventId)
    (failed : s'.db.status? id = some .failed) : OpenLetter s'.db id := by
  have requeued : s'.db.status? id ≠ some .queued := by
    rw [failed]
    decide
  suffices isOpen : OpenLetter s.db id from
    openLetter_stays reached moved taken isOpen (Or.inr requeued)
  have effect := step_event taken id
  rw [Database.status?] at failed
  generalize s'.db.event? id = after at effect failed
  cases effect with
  | unchanged => exact agree.failed id failed
  | accepted =>
      cases before : s.db.event? id with
      | none => simp [before, queuedEventRow] at failed
      | some row =>
          refine agree.failed id ?_
          rw [Database.status?, before]
          simpa [before] using failed
  | failed phase effective _ same =>
      subst same
      exact agree.saved _ _ _ _ phase (underClaim effective)
  | claimed => cases failed
  | finished => cases failed
  | requeued => cases failed

private theorem step_processed (agree : LettersAgree s)
    (taken : step codec config s action = some s')
    (underClaim : WritesUnderClaim s action s') (id : EventId)
    (processed : s'.db.status? id = some .processed) : ¬ OpenLetter s'.db id := by
  intro isOpen
  have effect := step_event taken id
  rw [Database.status?] at processed
  generalize s'.db.event? id = after at effect processed
  rcases openLetter_before taken isOpen with
    wasOpen | ⟨w, claim, attempt, error, payload, now, outcome, rfl, effective, rfl⟩
  · cases effect with
    | unchanged => exact agree.processed id processed wasOpen
    | accepted =>
        cases before : s.db.event? id with
        | none => simp [before, queuedEventRow] at processed
        | some row =>
            refine agree.processed id ?_ wasOpen
            rw [Database.status?, before]
            simpa [before] using processed
    | finished _ effective _ same =>
        subst same
        exact underClaim effective wasOpen
    | claimed => cases processed
    | failed => cases processed
    | requeued => cases processed
  · -- a dead letter is only saved while the event is processing
    obtain ⟨processing, _⟩ := underClaim effective
    cases effect
    rw [Database.status?] at processing
    rw [processing] at processed
    cases processed

private theorem step_saved (reached : Reachable codec config s) (agree : LettersAgree s)
    (moved : AllMoved s) (taken : step codec config s action = some s') (w : Nat)
    (claim : Claim Payload) (attempt : Nat) (error : String)
    (waiting : (s'.workers w).phase = .deadLettered claim attempt error)
    (current : Current s' claim) : OpenLetter s'.db claim.event.id := by
  have effect := step_worker taken w
  generalize s'.workers w = worker at effect waiting
  have before : (s.workers w).phase = .deadLettered claim attempt error →
      OpenLetter s'.db claim.event.id := by
    intro phase
    have numbered := agree.numbered w claim (by rw [phase]; rfl)
    have wasCurrent := current_before taken numbered current
    refine openLetter_stays reached moved taken
      (agree.saved w claim attempt error phase wasCurrent) (Or.inl ?_)
    rw [wasCurrent.1]
    decide
  cases effect with
  | unchanged => exact before waiting
  | disconnected => exact before waiting
  | deadLettered phase =>
      cases waiting
      exact openLetter_of_save taken Outcome.effective_ok
  | @attempted _ _ answer =>
      cases answer with
      | none => cases waiting
      | some _ =>
          simp only [afterAttempt] at waiting
          split at waiting <;> cases waiting
  | delivered => cases waiting
  | claimed => cases waiting
  | unclaimed => cases waiting
  | claimError => cases waiting
  | statusRead => cases waiting
  | statusError => cases waiting
  | processed => cases waiting
  | processedError => cases waiting
  | deadLetterError => cases waiting
  | failed => cases waiting
  | failedError => cases waiting
  | returned => cases waiting
  | settled => cases waiting
  | crashed => cases waiting

end LettersAgree

theorem lettersAgree (reached : ReachableVia codec config WritesUnderClaim s) :
    LettersAgree s := by
  refine reached.invariant ?_ ?_
  · constructor
    · intro w claim active
      cases active
    · intro id failed
      cases failed
    · intro id processed
      cases processed
    · intro w claim attempt error waiting
      cases waiting
  · intro before action after earlier agree taken underClaim
    have moved : AllMoved before := by
      refine allMoved (earlier.mono ?_)
      intro old statement new meets
      cases statement
      all_goals first | exact meets | exact trivial
    exact
      { numbered := agree.step_numbered taken
        failed := agree.step_failed earlier.reachable moved taken underClaim
        processed := agree.step_processed taken underClaim
        saved := agree.step_saved earlier.reachable moved taken }

/-- Dead letters agree with the status of the events in every state of a run whose workers give up
only under their current claim, whose successes find no dead letter left open and whose replays
reset an event that is still failed. -/
theorem dead_letters_agree_with_status
    (reached : ReachableVia codec config WritesUnderClaim s) :
    (∀ row ∈ s.db.events.rows, row.status = .failed →
      ∃ letter ∈ s.db.deadLetters.rows, letter.eventId = row.id ∧ letter.replayedAt = none) ∧
    ∀ row ∈ s.db.events.rows, row.status = .processed →
      ∀ letter ∈ s.db.deadLetters.rows, letter.eventId = row.id → letter.replayedAt ≠ none := by
  have agree := lettersAgree reached
  constructor
  · intro row member failed
    have status : s.db.status? row.id = some .failed :=
      s.db.status?_eq_some_iff.mpr ⟨row, s.db.event?_of_mem member, failed⟩
    obtain ⟨letter, found, unreplayed⟩ := agree.failed row.id status
    exact ⟨letter, s.db.deadLetters.mem_of_lookup _ found, s.db.eventId_of_deadLetter? found,
      unreplayed⟩
  · intro row member processed letter letterMember same unreplayed
    have status : s.db.status? row.id = some .processed :=
      s.db.status?_eq_some_iff.mpr ⟨row, s.db.event?_of_mem member, processed⟩
    have found := s.db.deadLetter?_of_mem letterMember
    rw [same] at found
    exact agree.processed row.id status ⟨letter, found, unreplayed⟩

set_option maxRecDepth 4000 in
theorem dead_letters_agree_with_status_of_failedRun :
    ∃ s, run (step Codec.text Sample.config) System.initial failedRun = some s ∧
      s.db.status? Sample.event.id = some .failed ∧
      ∀ row ∈ s.db.events.rows, row.status = .failed →
        ∃ letter ∈ s.db.deadLetters.rows, letter.eventId = row.id ∧ letter.replayedAt = none := by
  have ran : (run (step Codec.text Sample.config) System.initial failedRun).map
      (fun s => s.db.status? Sample.event.id) = some (some .failed) := by
    decide +kernel
  obtain ⟨s, reaches, failed⟩ := Option.map_eq_some_iff.mp ran
  have meets : Along (step Codec.text Sample.config) WritesUnderClaim System.initial
      failedRun := by
    decide +kernel
  exact ⟨s, reaches, failed, (dead_letters_agree_with_status (.of_run .start meets reaches)).1⟩

/-- The worker saves the dead letter but its `MarkFailed` fails without effect; the message is
requeued and, after the lease, processed. -/
def leftOpenRun : List (Action String) :=
  Sample.sent ++ attemptStatements 0 Sample.message (Sample.claim 1 0) (some "timeout") ++
    [.saveDeadLetter 0 (Sample.claim 1 0) 1 "timeout" Sample.event.payload 0 .ok,
      .markFailed 0 (Sample.claim 1 0) 1 "timeout" 0 .failed,
      .returns 0 (Sample.claim 1 0) false .requeue,
      .settle 0 Sample.event .requeue,
      .tick 400] ++
    attemptStatements 0 Sample.message (Sample.claim 2 400) none ++
    finishStatements 0 (Sample.claim 2 400) 400 1

set_option maxRecDepth 4000 in
/-- No worker is between its `SaveDeadLetter` and its `MarkFailed`, and a processed event has an
open dead letter. -/
theorem processed_event_keeps_open_dead_letter :
    ¬ ∀ s : System String, Reachable Codec.text Sample.config s →
      (∀ w claim attempt error, (s.workers w).phase ≠ .deadLettered claim attempt error) →
      (∀ id, s.db.status? id = some .failed → OpenLetter s.db id) ∧
        ∀ id, s.db.status? id = some .processed → ¬ OpenLetter s.db id := by
  intro agrees
  have ran : (run (step Codec.text Sample.config) System.initial leftOpenRun).map
      (fun s => (s.workers 0, s.db.status? Sample.event.id,
        decide (OpenLetter s.db Sample.event.id))) =
      some (Worker.idle, some .processed, true) := by
    decide +kernel
  obtain ⟨s, reaches, observed⟩ := Option.map_eq_some_iff.mp ran
  obtain ⟨idle, rest⟩ := Prod.mk.inj observed
  obtain ⟨processed, isOpen⟩ := Prod.mk.inj rest
  have others : IdleFrom 1 s := idleFrom_of_run (by decide) reaches
  refine (agrees s (Reachable.of_run reaches) ?_).2 _ processed (of_decide_eq_true isOpen)
  intro w claim attempt error waiting
  rcases Nat.eq_zero_or_pos w with rfl | positive
  · rw [idle] at waiting
    cases waiting
  · rw [others w positive] at waiting
    cases waiting

end WebhookProcessor
