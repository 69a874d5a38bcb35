/-
Module: WebhookProcessor.Proofs.LockOrder
Layer: Proofs
Purpose: The transactions of the service never wait for each other in a circle.  A row is locked only
  by a transaction that has written it, and all transactions write the rows of an event in one order:
  first the row of `events`, then that of `outbox`, then that of `dead_letters`.  So the transactions
  that are open in a reachable state can all be completed without an error; a duplicate is the only
  one to be rolled back.
Trusted boundary: as in `Model.System`
Main exports: System.Occupies, locksOwned, System.left, left_of_locked, transactions_complete
-/
import WebhookProcessor.Concurrency.LockOrder
import WebhookProcessor.Proofs.Replays

namespace WebhookProcessor

open Transition Concurrency

variable {Payload : Type}

/-! ### Whose lock it is -/

/-- The rows that an open `ReplayDeadLetter` has written, that of `dead_letters` included. -/
def ReplayCall.Wrote : ReplayCall → RowRef → Prop
  | .deadLetterMarked tx, row =>
      (ReplayCall.deadLetterMarked tx).Holds row ∨ row = .deadLetter tx.eventId
  | call, row => call.Holds row

/-- The rows that an open transaction has written. -/
def System.Occupies (s : System Payload) : Owner → RowRef → Prop
  | .save request, row => (s.saves request).Holds row
  | .replay caller, row => (s.replays caller).Wrote row

/-- The row that the action may lock, and for whom. -/
def Action.acquires? (s : System Payload) : Action Payload → Option (Owner × RowRef)
  | .replayMarkDeadLetter caller tx => some (.replay caller, .deadLetter tx.eventId)
  | action => action.takes? s

namespace Database

variable {db : Database} {owner other : Owner} {row held : RowRef}

theorem locks_of_lock (locked : (db.lock owner row).locks held = some other) :
    db.locks held = some other ∨ (owner = other ∧ row = held) := by
  by_cases same : held = row
  · subst same
    rw [locks_lock_self, Option.some_inj] at locked
    exact Or.inr ⟨locked, rfl⟩
  · exact Or.inl (by simpa [lock, Function.update_of_ne same] using locked)

theorem locks_of_unlock (locked : (db.unlock owner).locks held = some other) :
    db.locks held = some other ∧ owner ≠ other := by
  simp only [unlock, Option.ite_none_left_eq_some] at locked
  obtain ⟨apart, locked⟩ := locked
  refine ⟨locked, ?_⟩
  rintro rfl
  exact apart locked

end Database

variable [DecidableEq Payload] {codec : Codec Payload} {config : Config} {s s' : System Payload}
  {action : Action Payload}

/-- A lock is older than the step, or the step has taken it. -/
theorem locks_of_step (taken : step codec config s action = some s') {owner : Owner} {row : RowRef}
    (locked : s'.db.locks row = some owner) :
    (s.db.locks row = some owner ∧ action.releases? ≠ some owner) ∨
      action.acquires? s = some (owner, row) := by
  have older (before : s.db.locks row = some owner) (running : action.releases? = none) :
      (s.db.locks row = some owner ∧ action.releases? ≠ some owner) ∨
        action.acquires? s = some (owner, row) :=
    Or.inl ⟨before, by simp [running]⟩
  have afterLock {taker : Owner} {target : RowRef}
      (locked : (s.db.lock taker target).locks row = some owner)
      (running : action.releases? = none) (acquires : action.acquires? s = some (taker, target)) :
      (s.db.locks row = some owner ∧ action.releases? ≠ some owner) ∨
        action.acquires? s = some (owner, row) := by
    rcases Database.locks_of_lock locked with before | ⟨rfl, rfl⟩
    · exact older before running
    · exact Or.inr acquires
  have afterUnlock {db : Database} {leaver : Owner}
      (locked : (db.unlock leaver).locks row = some owner) (same : db.locks = s.db.locks)
      (releases : action.releases? = some leaver) :
      (s.db.locks row = some owner ∧ action.releases? ≠ some owner) ∨
        action.acquires? s = some (owner, row) := by
    obtain ⟨before, apart⟩ := Database.locks_of_unlock locked
    exact Or.inl ⟨same ▸ before, by simpa [releases] using apart⟩
  cases action
  all_goals simp only [step, Option.ite_none_right_eq_some, Option.some.injEq] at taken
  case insertEvent =>
      obtain ⟨_, rfl⟩ := taken
      exact afterLock locked rfl rfl
  case insertOutbox =>
      obtain ⟨_, rfl⟩ := taken
      exact afterLock locked rfl rfl
  case commitSave =>
      obtain ⟨_, rfl⟩ := taken
      exact afterUnlock locked rfl rfl
  case failSave =>
      obtain ⟨_, rfl⟩ := taken
      exact afterUnlock locked rfl rfl
  case replayResetEvent caller id _ _ _ _ =>
      obtain ⟨_, rfl⟩ := taken
      by_cases failed : s.db.status? id = some .failed
      · simp only [System.setReplay, failed, decide_true, if_true] at locked
        exact afterLock locked rfl (by simp [Action.acquires?, Action.takes?, failed])
      · simp only [System.setReplay, failed, decide_false, Bool.false_eq_true, if_false] at locked
        exact older locked rfl
  case replayReopenOutbox caller tx =>
      obtain ⟨_, rfl⟩ := taken
      by_cases absent : s.db.outboxFor? tx.eventId = none
      · simp only [System.setReplay, absent, if_true] at locked
        exact older locked rfl
      · simp only [System.setReplay, absent, if_false] at locked
        exact afterLock locked rfl (by simp [Action.acquires?, Action.takes?, absent])
  case replayInsertOutbox =>
      obtain ⟨_, rfl⟩ := taken
      exact afterLock locked rfl rfl
  case replayMarkDeadLetter caller tx =>
      obtain ⟨_, rfl⟩ := taken
      by_cases absent : s.db.deadLetter? tx.eventId = none
      · simp only [System.setReplay, absent, if_true] at locked
        exact older locked rfl
      · simp only [System.setReplay, absent, if_false] at locked
        exact afterLock locked rfl rfl
  case replayCommit =>
      obtain ⟨_, rfl⟩ := taken
      exact afterUnlock locked rfl rfl
  case replayFail =>
      obtain ⟨_, rfl⟩ := taken
      exact afterUnlock locked rfl rfl
  case crashScheduler =>
      subst taken
      exact afterUnlock locked rfl rfl
  all_goals
    obtain ⟨_, rfl⟩ := taken
    refine older ?_ rfl
    first
    | exact locked
    | (dsimp only [System.setDispatcher, System.setPhase, System.setWorker, System.setScheduler]
         at locked
       split at locked <;> exact locked)

/-- What a step locks has been written by the transaction that it is locked for. -/
theorem occupies_of_acquires (taken : step codec config s action = some s') {owner : Owner}
    {row : RowRef} (acquired : action.acquires? s = some (owner, row)) : s'.Occupies owner row := by
  cases action
  all_goals
    simp only [step, Option.ite_none_right_eq_some, Option.some.injEq] at taken
    simp only [Action.acquires?, Action.takes?, reduceCtorEq] at acquired
  case insertEvent =>
      obtain ⟨_, rfl⟩ := taken
      cases acquired
      simp [System.Occupies, System.setSave, SaveCall.Holds]
  case insertOutbox =>
      obtain ⟨_, rfl⟩ := taken
      cases acquired
      simp [System.Occupies, System.setSave, SaveCall.Holds]
  case replayResetEvent =>
      obtain ⟨_, rfl⟩ := taken
      obtain ⟨failed, same⟩ := Option.ite_none_right_eq_some.mp acquired
      cases same
      simp [System.Occupies, System.setReplay, ReplayCall.Wrote, ReplayCall.Holds, failed]
  case replayReopenOutbox =>
      obtain ⟨_, rfl⟩ := taken
      obtain ⟨present, same⟩ := Option.ite_none_left_eq_some.mp acquired
      cases same
      simp [System.Occupies, System.setReplay, ReplayCall.Wrote, ReplayCall.Holds, present]
  case replayInsertOutbox =>
      obtain ⟨_, rfl⟩ := taken
      cases acquired
      simp [System.Occupies, System.setReplay, ReplayCall.Wrote, ReplayCall.Holds]
  case replayMarkDeadLetter =>
      obtain ⟨_, rfl⟩ := taken
      cases acquired
      simp [System.Occupies, System.setReplay, ReplayCall.Wrote]

/-- A save gives up what it has written only when it ends. -/
theorem save_holds_of_step (taken : step codec config s action = some s') {request : Nat}
    {row : RowRef} (goesOn : action.releases? ≠ some (.save request))
    (held : (s.saves request).Holds row) : (s'.saves request).Holds row := by
  have effect := step_save taken request
  generalize s'.saves request = call at effect
  cases effect with
  | unchanged => exact held
  | submitted free =>
      generalize s.saves request = call at free held
      cases call <;> cases free <;> cases held
  | insertedEvent phase =>
      rw [phase] at held
      cases held
  | insertedOutbox phase =>
      rw [phase] at held
      exact Or.inl held
  | duplicate phase =>
      rw [phase] at held
      cases held
  | committed => exact absurd rfl goesOn
  | commitLost => exact absurd rfl goesOn
  | failed => exact absurd rfl goesOn

/-- A replay gives up what it has written only when it ends. -/
theorem replay_wrote_of_step (taken : step codec config s action = some s') {caller : Caller}
    {row : RowRef} (goesOn : action.releases? ≠ some (.replay caller))
    (held : (s.replays caller).Wrote row) : (s'.replays caller).Wrote row := by
  have effect := step_replay taken caller
  generalize s'.replays caller = call at effect
  cases effect with
  | unchanged => exact held
  | begun _ free =>
      generalize s.replays caller = call at free held
      cases call <;> cases free <;> cases held
  | scheduled _ _ free =>
      generalize s.replays caller = call at free held
      cases call <;> cases free <;> cases held
  | selected phase =>
      rw [phase] at held
      cases held
  | eventReset phase =>
      rw [phase] at held
      cases held
  | outboxReopened phase =>
      rw [phase] at held
      exact Or.inl held
  | outboxMissing phase =>
      rw [phase] at held
      exact held
  | outboxInserted phase =>
      rw [phase] at held
      exact Or.inl held
  | deadLetterMarked phase =>
      rw [phase] at held
      exact Or.inl held
  | committed => exact absurd rfl goesOn
  | commitLost => exact absurd rfl goesOn
  | failed => exact absurd rfl goesOn
  | crashed self => exact absurd (by rw [self]; rfl) goesOn

/-- Every locked row has been written by the transaction that it is locked for. -/
def LocksOwned (s : System Payload) : Prop :=
  ∀ owner row, s.db.locks row = some owner → s.Occupies owner row

theorem locksOwned (reached : Reachable codec config s) : LocksOwned s := by
  refine reached.invariant ?_ ?_
  · intro owner row locked
    cases locked
  · intro before action after _ owned taken _ owner row locked
    rcases locks_of_step taken locked with ⟨older, goesOn⟩ | acquired
    · cases owner with
      | save request => exact save_holds_of_step taken goesOn (owned _ _ older)
      | replay caller => exact replay_wrote_of_step taken goesOn (owned _ _ older)
    · exact occupies_of_acquires taken acquired

/-! ### The order of the locks -/

/-- The statements that a save has still to execute, its COMMIT included. -/
def SaveCall.left : SaveCall Payload → Nat
  | .begun _ _ => 3
  | .insertedEvent _ _ _ => 2
  | .insertedOutbox _ _ _ _ => 1
  | _ => 0

/-- The statements that a replay has still to execute, its COMMIT included. -/
def ReplayCall.left : ReplayCall → Nat
  | .begun _ => 5
  | .selected _ _ _ _ => 4
  | .eventReset _ => 3
  | .outboxMissing _ => 3
  | .outboxReopened _ => 2
  | .deadLetterMarked _ => 1
  | _ => 0

omit [DecidableEq Payload] in
theorem SaveCall.free_of_left {call : SaveCall Payload} (ended : call.left = 0) :
    call.inFlight = none ∧ call.Free := by
  cases call <;> first | exact ⟨rfl, trivial⟩ | cases ended

theorem ReplayCall.free_of_left {call : ReplayCall} (ended : call.left = 0) :
    call.found? = none ∧ call.Free := by
  cases call <;> first | exact ⟨rfl, trivial⟩ | cases ended

def System.left (s : System Payload) : Owner → Nat
  | .save request => (s.saves request).left
  | .replay caller => (s.replays caller).left

/-- The statements left to a transaction that waits for the row: more than to any that holds it. -/
def RowRef.left : RowRef → Nat
  | .newEvent _ => 3
  | .event _ => 4
  | .outbox _ => 3
  | .deadLetter _ => 2

omit [DecidableEq Payload] in
theorem SaveCall.left_of_holds {call : SaveCall Payload} {row : RowRef} (held : call.Holds row) :
    0 < call.left ∧ call.left < row.left := by
  cases call with
  | insertedEvent =>
      cases held
      simp [SaveCall.left, RowRef.left]
  | insertedOutbox =>
      rcases held with rfl | rfl
      · simp [SaveCall.left, RowRef.left]
      · simp [SaveCall.left, RowRef.left]
  | idle => cases held
  | begun => cases held
  | accepted => cases held
  | refused => cases held

theorem ReplayCall.left_of_wrote {call : ReplayCall} {row : RowRef} (wrote : call.Wrote row) :
    0 < call.left ∧ call.left < row.left := by
  cases call with
  | eventReset =>
      obtain ⟨_, rfl⟩ := wrote
      simp [ReplayCall.left, RowRef.left]
  | outboxMissing =>
      obtain ⟨_, rfl⟩ := wrote
      simp [ReplayCall.left, RowRef.left]
  | outboxReopened =>
      rcases wrote with ⟨_, rfl⟩ | rfl
      · simp [ReplayCall.left, RowRef.left]
      · simp [ReplayCall.left, RowRef.left]
  | deadLetterMarked =>
      rcases wrote with (⟨_, rfl⟩ | rfl) | rfl
      · simp [ReplayCall.left, RowRef.left]
      · simp [ReplayCall.left, RowRef.left]
      · simp [ReplayCall.left, RowRef.left]
  | idle => cases wrote
  | begun => cases wrote
  | selected => cases wrote
  | succeeded => cases wrote
  | failed => cases wrote

/-- Whoever holds a row is nearer to its end than those who wait for it. -/
theorem left_of_locked (reached : Reachable codec config s) {owner : Owner} {row : RowRef}
    (locked : s.db.locks row = some owner) : 0 < s.left owner ∧ s.left owner < row.left := by
  have occupies := locksOwned reached owner row locked
  cases owner with
  | save request => exact SaveCall.left_of_holds occupies
  | replay caller => exact ReplayCall.left_of_wrote occupies

/-! ### Completion -/

/-- The statements and commits of transactions that have begun, answered without an error.  A
transaction that is rolled back on an error is none of them; a refused duplicate, which the deferred
rollback ends, is. -/
def Action.Proceeds : Action Payload → Prop
  | .insertEvent _ _ _ _ => True
  | .rejectDuplicate _ _ _ => True
  | .insertOutbox _ _ _ _ => True
  | .commitSave _ _ _ _ _ outcome => outcome = .ok
  | .replaySelect _ _ => True
  | .replayResetEvent _ _ _ _ _ _ => True
  | .replayReopenOutbox _ _ => True
  | .replayMarkDeadLetter _ _ => True
  | .replayCommit _ _ error => error = none
  | _ => False

/-- How the calls that were in flight at `start` stand. -/
structure Answering (start s : System Payload) : Prop where
  saves : ∀ request event, (start.saves request).inFlight = some event →
    (s.saves request).inFlight = some event ∨ s.saves request = .accepted event ∨
      s.saves request = .refused event .eventAlreadyExists
  replays : ∀ caller id, (start.replays caller).found? = some id →
    (s.replays caller).found? = some id ∨ s.replays caller = .succeeded id

omit [DecidableEq Payload] in
theorem Answering.refl (s : System Payload) : Answering s s :=
  { saves := fun _ _ running => Or.inl running
    replays := fun _ _ running => Or.inl running }

private theorem Answering.step_saves {start : System Payload} (answering : Answering start s)
    (proceeds : action.Proceeds) (taken : step codec config s action = some s') {request : Nat}
    {event : Event Payload} (running : (start.saves request).inFlight = some event) :
    (s'.saves request).inFlight = some event ∨ s'.saves request = .accepted event ∨
      s'.saves request = .refused event .eventAlreadyExists := by
  have before := answering.saves request event running
  have effect := step_save taken request
  generalize s'.saves request = call at effect
  cases effect with
  | unchanged => exact before
  | submitted => exact proceeds.elim
  | failed => exact proceeds.elim
  | insertedEvent phase =>
      simp only [phase, SaveCall.inFlight, reduceCtorEq, or_false] at before
      exact Or.inl before
  | insertedOutbox phase =>
      simp only [phase, SaveCall.inFlight, reduceCtorEq, or_false] at before
      exact Or.inl before
  | duplicate phase =>
      simp only [phase, SaveCall.inFlight, reduceCtorEq, or_false, Option.some_inj] at before
      exact Or.inr (Or.inr (by rw [before]))
  | committed phase =>
      simp only [phase, SaveCall.inFlight, reduceCtorEq, or_false, Option.some_inj] at before
      exact Or.inr (Or.inl (by rw [before]))
  | commitLost => cases proceeds

private theorem Answering.step_replays {start : System Payload} (answering : Answering start s)
    (proceeds : action.Proceeds) (taken : step codec config s action = some s') {caller : Caller}
    {id : EventId} (running : (start.replays caller).found? = some id) :
    (s'.replays caller).found? = some id ∨ s'.replays caller = .succeeded id := by
  have before := answering.replays caller id running
  have effect := step_replay taken caller
  generalize s'.replays caller = call at effect
  cases effect with
  | unchanged => exact before
  | begun => exact proceeds.elim
  | failed => exact proceeds.elim
  | scheduled => exact proceeds.elim
  | crashed => exact proceeds.elim
  | outboxInserted => exact proceeds.elim
  | selected phase => simp [phase, ReplayCall.found?, ReplayCall.tx?] at before
  | eventReset phase =>
      simp only [phase, reduceCtorEq, or_false] at before
      exact Or.inl before
  | outboxReopened phase =>
      simp only [phase, reduceCtorEq, or_false] at before
      exact Or.inl before
  | outboxMissing phase =>
      simp only [phase, reduceCtorEq, or_false] at before
      exact Or.inl before
  | deadLetterMarked phase =>
      simp only [phase, reduceCtorEq, or_false] at before
      exact Or.inl before
  | committed phase =>
      simp only [phase, reduceCtorEq, or_false] at before
      exact Or.inr (by rw [Option.some.inj before])
  | commitLost => cases proceeds

theorem Answering.step {start : System Payload} (answering : Answering start s)
    (proceeds : action.Proceeds) (taken : step codec config s action = some s') :
    Answering start s' :=
  { saves := fun _ _ running => answering.step_saves proceeds taken running
    replays := fun _ _ running => answering.step_replays proceeds taken running }

/-- The transaction that acts. -/
def Action.owner? (action : Action Payload) : Option Owner :=
  (action.request?.map Owner.save).or (action.caller?.map Owner.replay)

theorem left_of_other (taken : step codec config s action = some s') {owner : Owner}
    (other : action.owner? ≠ some owner) : s'.left owner = s.left owner := by
  cases owner with
  | save request =>
      have effect := step_save taken request
      change (s'.saves request).left = (s.saves request).left
      generalize s'.saves request = call at effect
      cases effect with
      | unchanged => rfl
      | _ => exact absurd rfl other
  | replay caller =>
      have effect := step_replay taken caller
      change (s'.replays caller).left = (s.replays caller).left
      generalize s'.replays caller = call at effect
      cases effect with
      | unchanged => rfl
      | scheduled self => exact absurd (by rw [self]; rfl) other
      | crashed self => exact absurd (by rw [self]; rfl) other
      | _ => exact absurd rfl other

/-- Only finitely many transactions are open. -/
def FinitelyOpen (s : System Payload) : Prop :=
  ∃ owners : Finset Owner, ∀ owner, 0 < s.left owner → owner ∈ owners

theorem finitelyOpen (reached : Reachable codec config s) : FinitelyOpen s := by
  refine reached.invariant ?_ ?_
  · refine ⟨∅, ?_⟩
    rintro (request | caller) running
    · exact absurd running (Nat.lt_irrefl 0)
    · exact absurd running (Nat.lt_irrefl 0)
  · rintro before action after _ ⟨owners, unfinished⟩ taken _
    refine ⟨owners ∪ action.owner?.toFinset, ?_⟩
    intro owner running
    rw [Finset.mem_union, Option.mem_toFinset, Option.mem_def]
    by_cases acts : action.owner? = some owner
    · exact Or.inr acts
    · rw [left_of_other taken acts] at running
      exact Or.inl (unfinished owner running)

/-- A transaction that no statement of the run belongs to stands where it stood. -/
theorem left_of_run {actions : List (Action Payload)}
    (ran : run (step codec config) s actions = some s') {owner : Owner}
    (other : owner ∉ actions.filterMap Action.owner?) : s'.left owner = s.left owner := by
  refine run_invariant (fun state => state.left owner = s.left owner) ?_ rfl ran
  intro before action after member taken same
  refine (left_of_other taken ?_).trans same
  exact fun acts => other (List.mem_filterMap.mpr ⟨action, member, acts⟩)

theorem unlocked_of_left (reached : Reachable codec config s) (ended : ∀ owner, s.left owner = 0)
    (row : RowRef) : s.db.locks row = none := by
  cases locked : s.db.locks row with
  | none => rfl
  | some owner =>
      have running := (left_of_locked reached locked).1
      rw [ended owner] at running
      exact absurd running (Nat.lt_irrefl 0)

/-- When the transactions that a run has begun are over, no row is locked. -/
theorem unlocked_of_run {actions : List (Action Payload)}
    (ran : run (step codec config) System.initial actions = some s)
    (ended : ∀ owner ∈ actions.filterMap Action.owner?, s.left owner = 0) :
    s.db.locks = fun _ => none := by
  funext row
  refine unlocked_of_left (Transition.Reachable.of_run ran) ?_ row
  intro owner
  by_cases began : owner ∈ actions.filterMap Action.owner?
  · exact ended owner began
  · rw [left_of_run ran began]
    cases owner <;> rfl

section Completion

variable {start : System Payload}

variable (codec config start) in
/-- What holds on the way to the end of all transactions. -/
def OnTheWay (s : System Payload) : Prop :=
  Reachable codec config s ∧ Answering start s

theorem advances_of_step (way : OnTheWay codec config start s) {owner : Owner}
    (taken : step codec config s action = some s') (proceeds : action.Proceeds)
    (acts : action.owner? = some owner) (nearer : s'.left owner < s.left owner) :
    Advances (step codec config) Action.Proceeds (OnTheWay codec config start) System.left s
      owner := by
  refine ⟨action, s', proceeds, taken, ⟨way.1.step taken trivial, way.2.step proceeds taken⟩,
    nearer, ?_⟩
  intro other apart
  apply left_of_other taken
  rw [acts]
  exact fun same => apart (Option.some.inj same).symm

theorem waits_of_locked (reached : Reachable codec config s) {owner blocker : Owner} {row : RowRef}
    (locked : s.db.locks row = some blocker) (waiting : s.left owner = row.left) :
    Waits System.left s owner := by
  obtain ⟨running, fewer⟩ := left_of_locked reached locked
  exact ⟨blocker, running, waiting ▸ fewer⟩

/-- Every outbox row belongs to a stored event. -/
def OutboxStored (s : System Payload) : Prop :=
  ∀ id, s.db.outboxFor? id ≠ none → s.db.event? id ≠ none

theorem outboxStored (reached : Reachable codec config s) : OutboxStored s := by
  refine reached.invariant ?_ ?_
  · intro id present
    exact absurd rfl present
  · intro before action after earlier stored taken _ id present
    have effect := step_outbox taken id
    have persists (found : before.db.outboxFor? id ≠ none) : after.db.event? id ≠ none :=
      event?_persists taken (stored id found)
    generalize after.db.outboxFor? id = row at effect present
    cases effect with
    | unchanged => exact persists present
    | @accepted _ event payload now outboxId _ _ same _ =>
        simp only [step, Option.ite_none_right_eq_some, Option.some.injEq] at taken
        obtain ⟨_, rfl⟩ := taken
        change (before.db.commitSave event payload now outboxId).event? id ≠ none
        simp [Database.event?_commitSave, same]
    | created phase inserts =>
        have updates := (outboxSound earlier).neverInserts _ _ (by rw [phase]; rfl)
        simp [updates] at inserts
    | reserved _ _ found => exact persists (by rw [found]; exact Option.some_ne_none _)
    | published _ _ found => exact persists (by rw [found]; exact Option.some_ne_none _)
    | released _ _ found => exact persists (by rw [found]; exact Option.some_ne_none _)
    | reopened _ _ _ found => exact persists (by rw [found]; exact Option.some_ne_none _)

omit [DecidableEq Payload] in
theorem SaveCall.holds_newEvent {call : SaveCall Payload} {id : EventId}
    (held : call.Holds (.outbox id)) : call.Holds (.newEvent id) := by
  cases call with
  | insertedOutbox =>
      rcases held with other | same
      · cases other
      · cases same
        exact Or.inl rfl
  | insertedEvent => cases held
  | idle => cases held
  | begun => cases held
  | accepted => cases held
  | refused => cases held

theorem ReplayCall.found_of_wrote {call : ReplayCall} {id : EventId}
    (wrote : call.Wrote (.outbox id)) : call.found? = some id := by
  cases call <;> simp_all [ReplayCall.Wrote, ReplayCall.Holds, ReplayCall.found?, ReplayCall.tx?]

/-- Nobody else can have the outbox key of a save that has the key of its event. -/
theorem outbox_free_of_insertedEvent (reached : Reachable codec config s) {request : Nat}
    {event : Event Payload} {payload : String} {now : Time}
    (phase : s.saves request = .insertedEvent event payload now) :
    s.db.outboxFor? event.id = none ∧ s.db.locks (.outbox event.id) = none := by
  have mine : s.Holds (.save request) (.newEvent event.id) := by
    rw [System.Holds, phase]
    rfl
  have absent : s.db.event? event.id = none := (saveKeysFree reached).event request event.id mine
  constructor
  · by_contra present
    exact outboxStored reached event.id present absent
  · cases locked : s.db.locks (.outbox event.id) with
    | none => rfl
    | some owner =>
        have occupies := locksOwned reached owner _ locked
        cases owner with
        | save other =>
            have others : s.Holds (.save other) (.newEvent event.id) :=
              SaveCall.holds_newEvent occupies
            cases owner_unique reached others mine
            have held : (s.saves request).Holds (.outbox event.id) := occupies
            rw [phase] at held
            cases held
        | replay caller =>
            have found := ReplayCall.found_of_wrote occupies
            exact absurd absent ((outboxSound reached).replayPresent caller event.id found)

theorem save_advances (way : OnTheWay codec config start s) {request : Nat}
    (running : 0 < (s.saves request).left) :
    Advances (step codec config) Action.Proceeds (OnTheWay codec config start) System.left s
        (.save request) ∨ Waits System.left s (.save request) := by
  cases phase : s.saves request with
  | idle => simp [phase, SaveCall.left] at running
  | accepted => simp [phase, SaveCall.left] at running
  | refused => simp [phase, SaveCall.left] at running
  | begun event payload =>
      by_cases absent : s.db.event? event.id = none
      · cases locked : s.db.locks (.newEvent event.id) with
        | none =>
            have taken : step codec config s (.insertEvent request event payload s.clock) = some _ :=
              if_pos ⟨phase, le_refl _, absent, locked⟩
            refine Or.inl (advances_of_step way taken trivial rfl ?_)
            simp [System.left, System.setSave, phase, SaveCall.left]
        | some blocker =>
            refine Or.inr (waits_of_locked way.1 locked ?_)
            simp [System.left, phase, SaveCall.left, RowRef.left]
      · have taken : step codec config s (.rejectDuplicate request event payload) = some _ :=
          if_pos ⟨phase, absent⟩
        refine Or.inl (advances_of_step way taken trivial rfl ?_)
        simp [System.left, System.setSave, phase, SaveCall.left]
  | insertedEvent event payload now =>
      have taken : step codec config s (.insertOutbox request event payload now) = some _ :=
        if_pos ⟨phase, outbox_free_of_insertedEvent way.1 phase⟩
      refine Or.inl (advances_of_step way taken trivial rfl ?_)
      simp [System.left, System.setSave, phase, SaveCall.left]
  | insertedOutbox event payload now outboxId =>
      have taken : step codec config s
          (.commitSave request event payload now outboxId .ok) = some _ :=
        if_pos ⟨phase, Outcome.effective_ok⟩
      refine Or.inl (advances_of_step way taken rfl rfl ?_)
      simp [System.left, System.setSave, phase, SaveCall.left, SaveCall.afterCommit]

theorem replay_advances (way : OnTheWay codec config start s) {caller : Caller}
    (running : 0 < (s.replays caller).left) :
    Advances (step codec config) Action.Proceeds (OnTheWay codec config start) System.left s
        (.replay caller) ∨ Waits System.left s (.replay caller) := by
  cases phase : s.replays caller with
  | idle => simp [phase, ReplayCall.left] at running
  | succeeded => simp [phase, ReplayCall.left] at running
  | failed => simp [phase, ReplayCall.left] at running
  | begun id =>
      have taken : step codec config s (.replaySelect caller id) = some _ := if_pos phase
      refine Or.inl (advances_of_step way taken trivial rfl ?_)
      rcases s.db.selectForReplay_cases id with ⟨_, _, _, selected⟩ | ⟨_, failed⟩
      · simp [System.left, System.setReplay, phase, selected, ReplayCall.left]
      · simp [System.left, System.setReplay, phase, failed, ReplayCall.left]
  | selected id eventType requestId payload =>
      cases locked : s.db.locks (.event id) with
      | none =>
          have taken : step codec config s
              (.replayResetEvent caller id eventType requestId payload s.clock) = some _ :=
            if_pos ⟨phase, le_refl _, fun _ => locked⟩
          refine Or.inl (advances_of_step way taken trivial rfl ?_)
          simp [System.left, System.setReplay, phase, ReplayCall.left]
      | some blocker =>
          refine Or.inr (waits_of_locked way.1 locked ?_)
          simp [System.left, phase, ReplayCall.left, RowRef.left]
  | eventReset tx =>
      have stored : s.db.event? tx.eventId ≠ none :=
        (outboxSound way.1).replayPresent caller tx.eventId (by rw [phase]; rfl)
      have present := (outboxSound way.1).present tx.eventId stored
      cases locked : s.db.locks (.outbox tx.eventId) with
      | none =>
          have taken : step codec config s (.replayReopenOutbox caller tx) = some _ :=
            if_pos ⟨phase, fun _ => locked⟩
          refine Or.inl (advances_of_step way taken trivial rfl ?_)
          simp [System.left, System.setReplay, phase, present, ReplayCall.left]
      | some blocker =>
          refine Or.inr (waits_of_locked way.1 locked ?_)
          simp [System.left, phase, ReplayCall.left, RowRef.left]
  | outboxMissing tx => exact absurd phase ((outboxSound way.1).neverMissing caller tx)
  | outboxReopened tx =>
      cases locked : s.db.locks (.deadLetter tx.eventId) with
      | none =>
          have taken : step codec config s (.replayMarkDeadLetter caller tx) = some _ :=
            if_pos ⟨phase, locked⟩
          refine Or.inl (advances_of_step way taken trivial rfl ?_)
          simp [System.left, System.setReplay, phase, ReplayCall.left]
      | some blocker =>
          refine Or.inr (waits_of_locked way.1 locked ?_)
          simp [System.left, phase, ReplayCall.left, RowRef.left]
  | deadLetterMarked tx =>
      have taken : step codec config s (.replayCommit caller tx none) = some _ := if_pos phase
      refine Or.inl (advances_of_step way taken rfl rfl ?_)
      simp [System.left, System.setReplay, phase, ReplayCall.left, ReplayCall.afterCommit]

/-- All open transactions can be completed. -/
theorem possible_completion (reached : Reachable codec config s) :
    Possible (step codec config) Action.Proceeds
      (fun s' => OnTheWay codec config s s' ∧ ∀ owner, s'.left owner = 0) s := by
  obtain ⟨owners, unfinished⟩ := finitelyOpen reached
  refine possible_of_ordered ?_ ⟨reached, .refl s⟩ owners unfinished
  rintro state way (request | caller) running
  · exact save_advances way running
  · exact replay_advances way running

/-- No circle of transactions wait for each other's rows.  From every reachable state all submissions
and replays in flight can be brought to their end by statements and commits that are answered without
an error: every submission is accepted or refused as a duplicate, every replay that has found its
event failed succeeds, and then no row is locked. -/
theorem transactions_complete (reached : Reachable codec config s) :
    ∃ actions s', run (step codec config) s actions = some s' ∧
      (∀ action ∈ actions, action.Proceeds) ∧ (∀ row, s'.db.locks row = none) ∧
      (∀ request, (s'.saves request).Free) ∧ (∀ caller, (s'.replays caller).Free) ∧
      (∀ request event, (s.saves request).inFlight = some event →
        s'.saves request = .accepted event ∨
          s'.saves request = .refused event .eventAlreadyExists) ∧
      ∀ caller id, (s.replays caller).found? = some id → s'.replays caller = .succeeded id := by
  obtain ⟨actions, s', ran, proceeds, ⟨reached', answering⟩, finished⟩ :=
    possible_completion reached
  have saves (request : Nat) := SaveCall.free_of_left (finished (.save request))
  have replays (caller : Caller) := ReplayCall.free_of_left (finished (.replay caller))
  refine ⟨actions, s', ran, proceeds, unlocked_of_left reached' finished,
    fun request => (saves request).2, fun caller => (replays caller).2, ?_, ?_⟩
  · intro request event running
    exact (answering.saves request event running).resolve_left (by simp [(saves request).1])
  · intro caller id running
    exact (answering.replays caller id running).resolve_left (by simp [(replays caller).1])

end Completion

/-- The HTTP handler and the CLI command have both found the event failed; the command has reset it,
so the handler's UPDATE waits for the row. -/
def blockedRun : List (Action String) :=
  failedRun ++
    [.replay (.http 0) Sample.event.id,
      .replaySelect (.http 0) Sample.event.id] ++
    (replayStatements (.cli 0) (Sample.replayTx true)).take 3

set_option maxRecDepth 4000 in
theorem transactions_complete_of_blockedRun :
    ∃ s, run (step Codec.text Sample.config) System.initial blockedRun = some s ∧
      step Codec.text Sample.config s (.replayResetEvent (.http 0) Sample.event.id
        Sample.event.type Sample.event.requestId Sample.event.payload 0) = none ∧
      ∃ actions s', run (step Codec.text Sample.config) s actions = some s' ∧
        s'.replays (.cli 0) = .succeeded Sample.event.id ∧
        s'.replays (.http 0) = .succeeded Sample.event.id := by
  have ran : ∃ s, run (step Codec.text Sample.config) System.initial blockedRun = some s ∧
      (step Codec.text Sample.config s (.replayResetEvent (.http 0) Sample.event.id
        Sample.event.type Sample.event.requestId Sample.event.payload 0)).isNone = true ∧
      (s.replays (.cli 0)).found? = some Sample.event.id ∧
      (s.replays (.http 0)).found? = some Sample.event.id := by
    exact ⟨_, rfl, by decide +kernel, by decide +kernel, by decide +kernel⟩
  obtain ⟨s, reaches, waits, command, handler⟩ := ran
  obtain ⟨actions, s', completes, _, _, _, _, _, succeed⟩ :=
    transactions_complete (Transition.Reachable.of_run reaches)
  exact ⟨s, reaches, Option.isNone_iff_eq_none.mp waits, actions, s', completes,
    succeed _ _ command, succeed _ _ handler⟩

end WebhookProcessor
