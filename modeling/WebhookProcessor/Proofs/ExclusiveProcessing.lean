/-
Module: WebhookProcessor.Proofs.ExclusiveProcessing
Layer: Proofs
Purpose: Mutual exclusion inside `processEventWithRetry` under the processing lease.  Until the
  terminal write of a punctual worker has taken effect, the row of its event carries that worker's
  own `processing_started_at`, so nobody else can claim it before the lease expires.  The answer to
  the write comes later, and a replay can fall in between.
Trusted boundary: one clock for all replicas
Main exports: Punctual, ClaimsHeld, exclusive_processing, two_inside_of_unansweredRun
-/
import WebhookProcessor.Model.Calls
import WebhookProcessor.Proofs.Transactions

namespace WebhookProcessor

open Transition

variable {Payload : Type}

/-- Every worker still has its processing lease while it holds a claim, where `held` says which
phases count. -/
def Punctual (config : Config) (held : WorkerPhase Payload → Option (Claim Payload))
    (s : System Payload) : Prop :=
  ∀ w claim, held (s.workers w).phase = some claim →
    s.clock < claim.since + config.processingLease

/-- The worker whose terminal write takes effect. -/
def Action.finisher? : Action Payload → Option Nat
  | .markProcessed w _ _ _ outcome => if outcome.Effective then some w else none
  | .markFailed w _ _ _ _ outcome => if outcome.Effective then some w else none
  | _ => none

/-- What a claim means for the row and for the other workers. -/
structure ClaimsHeld (s : System Payload) : Prop where
  row : ∀ w claim, (s.workers w).phase.active = some claim →
    ∃ row, s.db.event? claim.event.id = some row ∧ row.status = .processing ∧
      row.processingStartedAt = some claim.since
  unique : ∀ w v claim other, (s.workers w).phase.active = some claim →
    (s.workers v).phase.active = some other → claim.event.id = other.event.id → w = v

theorem afterAttempt_active (config : Config) (claim : Claim Payload) (attempt : Nat)
    (error : Option String) : (afterAttempt config claim attempt error).active = some claim := by
  cases error with
  | none => rfl
  | some error =>
      simp only [afterAttempt]
      split <;> rfl

/-- A terminal write that did not take effect leaves the claim where it was. -/
theorem returning_active_iff {claim other : Claim Payload} {outcome : Outcome}
    {settlement : Settlement} :
    (WorkerPhase.returning claim (decide outcome.Effective) settlement).active = some other ↔
      claim = other ∧ ¬ outcome.Effective := by
  cases outcome with
  | _ => simp [WorkerPhase.active, WorkerPhase.inside, Outcome.Effective]

variable [DecidableEq Payload] {codec : Codec Payload} {config : Config} {s s' : System Payload}
  {action : Action Payload}

/-- A worker is active after a step because it was before and has not finished, or because it has
just claimed the event. -/
theorem active_of_step (taken : step codec config s action = some s') {w : Nat}
    {claim : Claim Payload} (active : (s'.workers w).phase.active = some claim) :
    ((s.workers w).phase.active = some claim ∧ action.finisher? ≠ some w) ∨
      (action = .claimForProcessing w claim.event claim.since .ok ∧ claim.since ≤ s.clock ∧
        s.db.ClaimMatches claim.event.id config.processingLease claim.since) := by
  have effect := step_worker taken w
  generalize s'.workers w = worker at effect active
  cases effect with
  | unchanged other =>
      refine Or.inl ⟨active, fun finishes => other ?_⟩
      cases action <;> simp_all [Action.finisher?, Action.worker?]
  | claimed phase sampled matched =>
      cases active
      exact Or.inr ⟨rfl, sampled, matched⟩
  | disconnected => exact Or.inl ⟨active, (Option.some_ne_none _).symm⟩
  | attempted phase =>
      rw [afterAttempt_active] at active
      exact Or.inl ⟨by rw [phase]; exact active, (Option.some_ne_none _).symm⟩
  | deadLettered phase => exact Or.inl ⟨by rw [phase]; exact active, (Option.some_ne_none _).symm⟩
  | processedError phase =>
      obtain ⟨rfl, ineffective⟩ := returning_active_iff.mp active
      exact Or.inl ⟨by rw [phase]; rfl, by simp [Action.finisher?, ineffective]⟩
  | failedError phase =>
      obtain ⟨rfl, ineffective⟩ := returning_active_iff.mp active
      exact Or.inl ⟨by rw [phase]; rfl, by simp [Action.finisher?, ineffective]⟩
  | deadLetterError phase =>
      cases active
      exact Or.inl ⟨by rw [phase]; rfl, (Option.some_ne_none _).symm⟩
  | delivered => cases active
  | unclaimed => cases active
  | claimError => cases active
  | statusRead => cases active
  | statusError => cases active
  | processed => cases active
  | failed => cases active
  | returned => cases active
  | settled => cases active
  | crashed => cases active

omit [DecidableEq Payload] in
/-- The UPDATE of `ClaimForProcessing` does not match while a punctual worker is active. -/
theorem ClaimsHeld.not_claimable (held : ClaimsHeld s)
    (punctual : Punctual config WorkerPhase.active s) {w : Nat}
    {claim : Claim Payload} (active : (s.workers w).phase.active = some claim) {row : EventRow}
    (found : s.db.event? claim.event.id = some row) {now : Time} (sampled : now ≤ s.clock) :
    ¬ row.Claimable now config.processingLease := by
  obtain ⟨own, foundOwn, processing, started⟩ := held.row w claim active
  have onTime := punctual w claim active
  rw [found] at foundOwn
  cases foundOwn
  rintro (queued | ⟨_, expired⟩)
  · simp [processing] at queued
  · rw [started, atOrBefore_some] at expired
    unfold Time at *
    omega

theorem ClaimsHeld.step_row (reached : Reachable codec config s) (held : ClaimsHeld s)
    (punctual : Punctual config WorkerPhase.active s)
    (taken : step codec config s action = some s') (w : Nat)
    (claim : Claim Payload) (active : (s'.workers w).phase.active = some claim) :
    ∃ row, s'.db.event? claim.event.id = some row ∧ row.status = .processing ∧
      row.processingStartedAt = some claim.since := by
  rcases active_of_step taken active with ⟨before, stays⟩ | ⟨rfl, sampled, matched⟩
  · obtain ⟨row, found, processing, started⟩ := held.row w claim before
    have effect := step_event taken claim.event.id
    generalize s'.db.event? claim.event.id = after at effect
    cases effect with
    | unchanged => exact ⟨row, found, processing, started⟩
    | accepted => exact ⟨row, by rw [found]; rfl, processing, started⟩
    | claimed _ sampled _ _ foundOther claimable =>
        exact absurd claimable (held.not_claimable punctual before foundOther sampled)
    | @finished v _ _ _ _ _ phase effective _ same =>
        have writer := held.unique w v claim _ before (by rw [phase]; rfl) same.symm
        exact absurd (by rw [Action.finisher?, if_pos effective, writer]) stays
    | @failed v _ _ _ _ _ _ phase effective _ same =>
        have writer := held.unique w v claim _ before (by rw [phase]; rfl) same.symm
        exact absurd (by rw [Action.finisher?, if_pos effective, writer]) stays
    | requeued phase moved same =>
        have failed := movedFailed reached _ _ (by rw [phase]; rfl) moved
        rw [same, Database.status?, found] at failed
        simp [processing] at failed
  · obtain ⟨row, found, claimable⟩ := s.db.claimMatches_iff.mp matched
    refine ⟨row.claim claim.since, ?_, rfl, rfl⟩
    simp only [step, Option.ite_none_right_eq_some, Option.some.injEq] at taken
    obtain ⟨_, rfl⟩ := taken
    simp [System.setPhase, System.setWorker, Outcome.effective_ok, matched,
      Database.event?_claimEvent, found, claimable]

theorem ClaimsHeld.step_unique (held : ClaimsHeld s)
    (punctual : Punctual config WorkerPhase.active s)
    (taken : step codec config s action = some s') (w v : Nat) (claim other : Claim Payload)
    (active : (s'.workers w).phase.active = some claim)
    (otherActive : (s'.workers v).phase.active = some other)
    (same : claim.event.id = other.event.id) : w = v := by
  -- a worker that was inside before excludes a fresh claim by another one
  have excluded : ∀ {u : Nat} {old new : Claim Payload}, (s.workers u).phase.active = some old →
      old.event.id = new.event.id → new.since ≤ s.clock →
      ¬ s.db.ClaimMatches new.event.id config.processingLease new.since := by
    intro u old new before sameEvent sampled matched
    obtain ⟨row, found, claimable⟩ := s.db.claimMatches_iff.mp matched
    rw [← sameEvent] at found
    exact held.not_claimable punctual before found sampled claimable
  rcases active_of_step taken active with ⟨before, _⟩ | ⟨taken₁, sampled, matched⟩
  · rcases active_of_step taken otherActive with ⟨otherBefore, _⟩ | ⟨_, otherSampled, otherMatched⟩
    · exact held.unique w v claim other before otherBefore same
    · exact absurd otherMatched (excluded before same otherSampled)
  · rcases active_of_step taken otherActive with ⟨otherBefore, _⟩ | ⟨taken₂, _⟩
    · exact absurd matched (excluded otherBefore same.symm sampled)
    · exact (Action.claimForProcessing.inj (taken₁.symm.trans taken₂)).1

theorem punctual_of_reached
    (reached : ReachableVia codec config
      (fun _ _ after => Punctual config WorkerPhase.active after) s) :
    Punctual config WorkerPhase.active s := by
  cases reached with
  | start =>
      intro w claim inside
      cases inside
  | step _ _ meets => exact meets

theorem claimsHeld
    (reached : ReachableVia codec config
      (fun _ _ after => Punctual config WorkerPhase.active after) s) :
    ClaimsHeld s := by
  refine reached.invariant ?_ ?_
  · constructor
    · intro w claim inside
      cases inside
    · intro w v claim other inside
      cases inside
  · intro before action after earlier held taken _
    have punctual := punctual_of_reached earlier
    exact
      { row := held.step_row earlier.reachable punctual taken
        unique := held.step_unique punctual taken }

/-- If the lease of no worker expires before its terminal write has taken effect or it has left
`processEventWithRetry`, no two workers are in there for the same event with the write of each still
to come. -/
theorem exclusive_processing
    (reached : ReachableVia codec config
      (fun _ _ after => Punctual config WorkerPhase.active after) s) {w v : Nat}
    {claim other : Claim Payload} (active : (s.workers w).phase.active = some claim)
    (otherActive : (s.workers v).phase.active = some other)
    (same : claim.event.id = other.event.id) : w = v :=
  (claimsHeld reached).unique w v claim other active otherActive same

/-! ### A run with a duplicate delivery -/

/-- No worker from number `n` on has ever been started. -/
def IdleFrom (n : Nat) (s : System Payload) : Prop :=
  ∀ w, n ≤ w → s.workers w = Worker.idle

theorem IdleFrom.step {n : Nat} (idle : IdleFrom n s)
    (taken : step codec config s action = some s') (bounded : ∀ w ∈ action.worker?, w < n) :
    IdleFrom n s' := by
  intro w beyond
  have effect := step_worker taken w
  generalize s'.workers w = worker at effect
  cases effect with
  | unchanged => exact idle w beyond
  | _ => exact absurd (bounded w rfl) (Nat.not_lt.mpr beyond)

theorem idleFrom_of_run {n : Nat} {actions : List (Action Payload)}
    (bounded : ∀ action ∈ actions, ∀ w ∈ action.worker?, w < n)
    (ran : run (step codec config) System.initial actions = some s) : IdleFrom n s := by
  refine run_invariant (IdleFrom n) ?_ (fun _ _ => rfl) ran
  intro before action after member taken idle
  exact idle.step taken (bounded action member)

/-- With finitely many workers punctuality can be checked along a concrete run. -/
theorem along_punctual_of_bounded (n : Nat) {held : WorkerPhase Payload → Option (Claim Payload)}
    (none_held : held .idle = none) {actions : List (Action Payload)}
    (checked : Along (step codec config) (fun _ action after => (∀ w ∈ action.worker?, w < n) ∧
      ∀ w < n, ∀ claim ∈ held (after.workers w).phase,
        after.clock < claim.since + config.processingLease) System.initial actions) :
    Along (step codec config) (fun _ _ after => Punctual config held after) System.initial
      actions := by
  have noneStarted : IdleFrom n (System.initial : System Payload) := fun _ _ => rfl
  refine checked.imp_of_invariant ?_ noneStarted
  rintro before action after idle taken ⟨bounded, onTime⟩
  have stillIdle := idle.step taken bounded
  refine ⟨stillIdle, fun w claim holds => ?_⟩
  by_cases within : w < n
  · exact onTime w within claim holds
  · rw [stillIdle w (Nat.not_lt.mp within)] at holds
    cases none_held.symm.trans holds

/-- Worker 0 is processing when its message is delivered again to worker 1, whose claim is
refused. -/
def duplicateRun : List (Action String) :=
  Sample.sent ++
    [.deliver 0 0 Sample.message Sample.event,
      .claimForProcessing 0 Sample.event 0 .ok,
      .loseConnection 0 Sample.message,
      .tick 100,
      .deliver 1 0 Sample.message Sample.event,
      .claimForProcessing 1 Sample.event 100 .ok]

set_option maxRecDepth 4000 in
theorem exclusive_processing_of_duplicateRun :
    ∃ s, run (step Codec.text Sample.config) System.initial duplicateRun = some s ∧
      (s.workers 0).phase.active = some (Sample.claim 1 0) ∧
      ∀ v other, (s.workers v).phase.active = some other →
        (Sample.claim 1 0).event.id = other.event.id → 0 = v := by
  have ran : (run (step Codec.text Sample.config) System.initial duplicateRun).map
      (fun s => (s.workers 0).phase.active) = some (some (Sample.claim 1 0)) := by
    decide +kernel
  obtain ⟨s, reaches, active⟩ := Option.map_eq_some_iff.mp ran
  refine ⟨s, reaches, active, fun v other otherActive same => ?_⟩
  have punctual : Along (step Codec.text Sample.config)
      (fun _ _ after => Punctual Sample.config WorkerPhase.active after) System.initial
      duplicateRun :=
    along_punctual_of_bounded 2 rfl (by decide +kernel)
  exact exclusive_processing (.of_run .start punctual reaches) active otherActive same

/-- The `MarkFailed` of worker 0 has been executed and its answer is on its way.  Meanwhile the
event is replayed from the command line and published again, and worker 1 claims it. -/
def unansweredRun : List (Action String) :=
  Sample.sent ++ [.markOutboxPublished 0 0 Sample.outboxMessage 1 [] 0 .ok] ++
    attemptStatements 0 Sample.message (Sample.claim 1 0) (some "timeout") ++
    (failStatements 0 (Sample.claim 1 0) "timeout" Sample.event.payload 0 1).take 2 ++
    replayStatements (.cli 0) (Sample.replayTx true) ++
    publishStatements 1 0 { Sample.outboxMessage with dispatchToken := "token-2" } Sample.body ++
    [.deliver 1 0 { Sample.message with opening := 2 } Sample.event,
      .claimForProcessing 1 Sample.event 0 .ok]

set_option maxRecDepth 4000 in
/-- Well within every lease, two workers are inside `processEventWithRetry` for one event. -/
theorem two_inside_of_unansweredRun :
    ¬ ∀ s : System String,
      ReachableVia Codec.text Sample.config
        (fun _ _ after => Punctual Sample.config WorkerPhase.inside after) s →
      ∀ (w v : Nat) (claim other : Claim String), (s.workers w).phase.inside = some claim →
        (s.workers v).phase.inside = some other → claim.event.id = other.event.id → w = v := by
  intro exclusive
  have ran : (run (step Codec.text Sample.config) System.initial unansweredRun).map
      (fun s => ((s.workers 0).phase.inside, (s.workers 1).phase.inside)) =
        some (some (Sample.claim 1 0), some (Sample.claim 2 0)) := by
    decide +kernel
  obtain ⟨s, reaches, phases⟩ := Option.map_eq_some_iff.mp ran
  have punctual : Along (step Codec.text Sample.config)
      (fun _ _ after => Punctual Sample.config WorkerPhase.inside after) System.initial
      unansweredRun :=
    along_punctual_of_bounded 2 rfl (by decide +kernel)
  have same := exclusive s (.of_run .start punctual reaches) 0 1 _ _
    (congrArg Prod.fst phases) (congrArg Prod.snd phases) rfl
  exact absurd same (by decide)

end WebhookProcessor
