/-
Module: WebhookProcessor.Proofs.Transactions
Layer: Proofs
Purpose: What the open transactions of the service can rely on: every row that a transaction has
  written is locked for it, so the event of an open replay stays failed and the keys of an open
  save stay free until it ends.
Trusted boundary: none
Main exports: System.Holds, locksHeld, movedFailed, saveKeysFree, OutboxSound, outboxSound
-/
import WebhookProcessor.Proofs.StepEffects
import WebhookProcessor.Proofs.ActorEffects

namespace WebhookProcessor

variable {Payload : Type}

/-! ### Rows held by a transaction -/

/-- The keys that an open `SaveQueuedWithOutbox` has inserted. -/
def SaveCall.Holds : SaveCall Payload → RowRef → Prop
  | .insertedEvent event _ _, row => row = .newEvent event.id
  | .insertedOutbox event _ _ _, row => row = .newEvent event.id ∨ row = .outbox event.id
  | _, _ => False

/-- The rows of `events` and `outbox` that an open `ReplayDeadLetter` has written. -/
def ReplayCall.Holds : ReplayCall → RowRef → Prop
  | .eventReset tx, row => tx.moved = true ∧ row = .event tx.eventId
  | .outboxMissing tx, row => tx.moved = true ∧ row = .event tx.eventId
  | .outboxReopened tx, row =>
      (tx.moved = true ∧ row = .event tx.eventId) ∨ row = .outbox tx.eventId
  | .deadLetterMarked tx, row =>
      (tx.moved = true ∧ row = .event tx.eventId) ∨ row = .outbox tx.eventId
  | _, _ => False

theorem ReplayCall.holds_event {call : ReplayCall} {tx : ReplayTx} (running : call.tx? = some tx)
    (moved : tx.moved = true) : call.Holds (.event tx.eventId) := by
  cases call <;> simp_all [ReplayCall.tx?, ReplayCall.Holds]

def System.Holds (s : System Payload) : Owner → RowRef → Prop
  | .save request, row => (s.saves request).Holds row
  | .replay caller, row => (s.replays caller).Holds row

/-- The SELECT of a replay either goes on with what it read or ends the call. -/
theorem Database.selectForReplay_cases (db : Database) (id : EventId) :
    (∃ row, db.event? id = some row ∧ row.status = .failed ∧
        db.selectForReplay id = .selected id row.type row.requestId row.payload) ∨
      ∃ error, db.selectForReplay id = .failed id error := by
  unfold Database.selectForReplay
  split
  · rename_i row _ found _
    split
    · exact Or.inl ⟨row, found, ‹_›, rfl⟩
    · exact Or.inr ⟨_, rfl⟩
  · exact Or.inr ⟨_, rfl⟩

/-- The SELECT of a replay, without FOR UPDATE, locks nothing. -/
theorem Database.not_holds_selectForReplay (db : Database) (id : EventId) (row : RowRef) :
    ¬ (db.selectForReplay id).Holds row := by
  rcases db.selectForReplay_cases id with ⟨_, _, _, selected⟩ | ⟨_, failed⟩
  · rw [selected]
    exact not_false
  · rw [failed]
    exact not_false

theorem Database.tx?_selectForReplay (db : Database) (id : EventId) :
    (db.selectForReplay id).tx? = none := by
  rcases db.selectForReplay_cases id with ⟨_, _, _, selected⟩ | ⟨_, failed⟩
  · rw [selected]
    rfl
  · rw [failed]
    rfl

/-- The transaction that the action ends. -/
def Action.releases? : Action Payload → Option Owner
  | .commitSave request _ _ _ _ _ => some (.save request)
  | .failSave request _ => some (.save request)
  | .replayCommit caller _ _ => some (.replay caller)
  | .replayFail caller _ _ => some (.replay caller)
  | .crashScheduler n => some (.replay (.scheduler n))
  | _ => none

/-- The row that the action locks, and for whom. -/
def Action.takes? (s : System Payload) : Action Payload → Option (Owner × RowRef)
  | .insertEvent request event _ _ => some (.save request, .newEvent event.id)
  | .insertOutbox request event _ _ => some (.save request, .outbox event.id)
  | .replayResetEvent caller id _ _ _ _ =>
      if s.db.status? id = some .failed then some (.replay caller, .event id) else none
  | .replayReopenOutbox caller tx =>
      if s.db.outboxFor? tx.eventId = none then none
      else some (.replay caller, .outbox tx.eventId)
  | .replayInsertOutbox caller tx => some (.replay caller, .outbox tx.eventId)
  | _ => none

namespace Database

variable (db : Database)

@[simp] theorem locks_lock_self (owner : Owner) (row : RowRef) :
    (db.lock owner row).locks row = some owner := by
  simp [lock]

theorem locks_lock_of_held {owner other : Owner} {row held : RowRef} (free : db.locks row = none)
    (holds : db.locks held = some other) : (db.lock owner row).locks held = some other := by
  have apart : held ≠ row := by
    rintro rfl
    simp [free] at holds
  simpa [lock, Function.update_of_ne apart] using holds

theorem locks_unlock_of_held {owner other : Owner} {held : RowRef}
    (holds : db.locks held = some other) :
    (db.unlock owner).locks held = some other ∨ owner = other := by
  by_cases same : owner = other
  · exact Or.inr same
  · refine Or.inl ?_
    simp [unlock, holds, Ne.symm same]

end Database

variable [DecidableEq Payload] {codec : Codec Payload} {config : Config} {s s' : System Payload}
  {action : Action Payload}

/-- A lock is given up only by the end of its transaction. -/
theorem step_locks (taken : step codec config s action = some s') {owner : Owner} {row : RowRef}
    (held : s.db.locks row = some owner) :
    s'.db.locks row = some owner ∨ action.releases? = some owner := by
  cases action
  all_goals simp only [step, Option.ite_none_right_eq_some, Option.some.injEq] at taken
  case insertEvent =>
      obtain ⟨⟨_, _, _, free⟩, rfl⟩ := taken
      exact Or.inl (s.db.locks_lock_of_held free held)
  case insertOutbox =>
      obtain ⟨⟨_, _, free⟩, rfl⟩ := taken
      exact Or.inl (s.db.locks_lock_of_held free held)
  case commitSave =>
      obtain ⟨_, rfl⟩ := taken
      exact ((s.db.commitSave _ _ _ _).locks_unlock_of_held held).imp_right (congrArg some)
  case failSave =>
      obtain ⟨_, rfl⟩ := taken
      exact (s.db.locks_unlock_of_held held).imp_right (congrArg some)
  case replayResetEvent caller id _ _ _ _ =>
      obtain ⟨⟨_, _, free⟩, rfl⟩ := taken
      refine Or.inl ?_
      by_cases failed : s.db.status? id = some .failed
      · simp only [System.setReplay, failed, decide_true, if_true]
        exact s.db.locks_lock_of_held (free failed) held
      · simpa [System.setReplay, failed] using held
  case replayReopenOutbox caller tx =>
      obtain ⟨⟨_, free⟩, rfl⟩ := taken
      refine Or.inl ?_
      by_cases absent : s.db.outboxFor? tx.eventId = none
      · simpa [System.setReplay, absent] using held
      · simp only [System.setReplay, absent, if_false]
        exact s.db.locks_lock_of_held (free absent) held
  case replayInsertOutbox =>
      obtain ⟨⟨_, _, free⟩, rfl⟩ := taken
      exact Or.inl (s.db.locks_lock_of_held free held)
  case replayMarkDeadLetter caller tx =>
      obtain ⟨⟨_, free⟩, rfl⟩ := taken
      refine Or.inl ?_
      by_cases absent : s.db.deadLetter? tx.eventId = none
      · simpa [System.setReplay, absent] using held
      · simp only [System.setReplay, absent, if_false]
        exact s.db.locks_lock_of_held free held
  case replayCommit caller tx error =>
      obtain ⟨_, rfl⟩ := taken
      exact ((s.db.commitReplay tx).locks_unlock_of_held held).imp_right (congrArg some)
  case replayFail =>
      obtain ⟨_, rfl⟩ := taken
      exact (s.db.locks_unlock_of_held held).imp_right (congrArg some)
  case crashScheduler =>
      subst taken
      exact (s.db.locks_unlock_of_held held).imp_right (congrArg some)
  all_goals
    obtain ⟨_, rfl⟩ := taken
    refine Or.inl ?_
    first
    | exact held
    | (dsimp only [System.setDispatcher, System.setPhase, System.setWorker, System.setScheduler]
       split <;> exact held)

theorem step_takes (taken : step codec config s action = some s') {owner : Owner} {row : RowRef}
    (takes : action.takes? s = some (owner, row)) : s'.db.locks row = some owner := by
  cases action
  all_goals
    simp only [step, Option.ite_none_right_eq_some, Option.some.injEq] at taken
    simp only [Action.takes?, reduceCtorEq] at takes
  case insertEvent =>
      obtain ⟨_, rfl⟩ := taken
      cases takes
      exact s.db.locks_lock_self _ _
  case insertOutbox =>
      obtain ⟨_, rfl⟩ := taken
      cases takes
      exact s.db.locks_lock_self _ _
  case replayResetEvent caller id _ _ _ _ =>
      obtain ⟨_, rfl⟩ := taken
      split at takes
      · rename_i failed
        cases takes
        simp [System.setReplay, failed]
      · cases takes
  case replayReopenOutbox caller tx =>
      obtain ⟨_, rfl⟩ := taken
      split at takes
      · cases takes
      · rename_i found
        cases takes
        simp [System.setReplay, found]
  case replayInsertOutbox =>
      obtain ⟨_, rfl⟩ := taken
      cases takes
      exact s.db.locks_lock_self _ _

/-- Every row that a transaction has written is locked for it. -/
def LocksHeld (s : System Payload) : Prop :=
  ∀ owner row, s.Holds owner row → s.db.locks row = some owner

omit [DecidableEq Payload] in
private theorem request?_of_releases {request : Nat}
    (released : action.releases? = some (.save request)) : action.request? = some request := by
  cases action <;> simp_all [Action.releases?, Action.request?]

omit [DecidableEq Payload] in
private theorem caller?_of_releases {caller : Caller}
    (released : action.releases? = some (.replay caller)) : action.caller? = some caller := by
  cases action <;> simp_all [Action.releases?, Action.caller?]

private theorem step_locksHeld_save (held : LocksHeld s)
    (taken : step codec config s action = some s') {request : Nat} {row : RowRef}
    (holds : (s'.saves request).Holds row) : s'.db.locks row = some (.save request) := by
  have effect := step_save taken request
  generalize s'.saves request = call at effect holds
  cases effect with
  | unchanged other =>
      exact (step_locks taken (held (.save request) row holds)).resolve_right fun released =>
        other (request?_of_releases released)
  | insertedEvent =>
      cases holds
      exact step_takes taken rfl
  | @insertedOutbox event _ _ phase =>
      rcases holds with rfl | rfl
      · have before : s.Holds (.save request) (.newEvent event.id) := by
          rw [System.Holds, phase]
          rfl
        exact (step_locks taken (held _ _ before)).resolve_right fun other => by cases other
      · exact step_takes taken rfl
  | submitted => exact holds.elim
  | duplicate => exact holds.elim
  | committed => exact holds.elim
  | commitLost => exact holds.elim
  | failed => exact holds.elim

private theorem step_locksHeld_replay (held : LocksHeld s)
    (taken : step codec config s action = some s') {caller : Caller} {row : RowRef}
    (holds : (s'.replays caller).Holds row) : s'.db.locks row = some (.replay caller) := by
  have effect := step_replay taken caller
  generalize s'.replays caller = call at effect holds
  -- a row held before the statement stays locked
  have kept : (s.replays caller).Holds row → action.releases? = none →
      s'.db.locks row = some (.replay caller) := fun before running =>
    (step_locks taken (held (.replay caller) row before)).resolve_right (by simp [running])
  cases effect with
  | unchanged other =>
      exact (step_locks taken (held (.replay caller) row holds)).resolve_right fun released =>
        other (caller?_of_releases released)
  | selected => exact (Database.not_holds_selectForReplay _ _ _ holds).elim
  | eventReset phase =>
      obtain ⟨moved, rfl⟩ := holds
      exact step_takes taken (by simpa [Action.takes?] using moved)
  | outboxReopened phase found =>
      rcases holds with event | rfl
      · exact kept (by rw [phase]; exact event) rfl
      · exact step_takes taken (by simp [Action.takes?, found])
  | outboxMissing phase => exact kept (by rw [phase]; exact holds) rfl
  | outboxInserted phase =>
      rcases holds with event | rfl
      · exact kept (by rw [phase]; exact event) rfl
      · exact step_takes taken rfl
  | deadLetterMarked phase => exact kept (by rw [phase]; exact holds) rfl
  | begun => exact holds.elim
  | committed => exact holds.elim
  | commitLost => exact holds.elim
  | failed => exact holds.elim
  | scheduled => exact holds.elim
  | crashed => exact holds.elim

theorem locksHeld (reached : Reachable codec config s) : LocksHeld s := by
  refine reached.invariant ?_ ?_
  · rintro (request | caller) row holds
    · exact holds.elim
    · exact holds.elim
  · rintro before action after _ held taken _ (request | caller) row holds
    · exact step_locksHeld_save held taken holds
    · exact step_locksHeld_replay held taken holds

/-- Two transactions never hold the same row. -/
theorem owner_unique (reached : Reachable codec config s) {first second : Owner} {row : RowRef}
    (firstHolds : s.Holds first row) (secondHolds : s.Holds second row) : first = second :=
  Option.some.inj
    ((locksHeld reached first row firstHolds).symm.trans (locksHeld reached second row secondHolds))

/-! ### The event of an open replay -/

/-- A replay whose UPDATE matched keeps the event failed until it ends. -/
def MovedFailed (s : System Payload) : Prop :=
  ∀ caller tx, (s.replays caller).tx? = some tx → tx.moved = true →
    s.db.status? tx.eventId = some .failed

private theorem status?_of_locked (reached : Reachable codec config s)
    (taken : step codec config s action = some s') {caller : Caller} {tx : ReplayTx}
    (running : (s.replays caller).tx? = some tx) (moved : tx.moved = true)
    (goesOn : action.releases? ≠ some (.replay caller))
    (failed : s.db.status? tx.eventId = some .failed) :
    s'.db.status? tx.eventId = some .failed := by
  have holds : s.Holds (.replay caller) (.event tx.eventId) :=
    ReplayCall.holds_event running moved
  have locked := locksHeld reached _ _ holds
  obtain ⟨row, present, rowFailed⟩ := s.db.status?_eq_some_iff.mp failed
  have effect := step_event taken tx.eventId
  rw [Database.status?]
  generalize s'.db.event? tx.eventId = after at effect
  cases effect with
  | unchanged => exact failed
  | accepted => simp [present, rowFailed]
  | claimed _ _ _ _ found claimable =>
      rw [present] at found
      cases found
      rcases claimable with queued | ⟨processing, _⟩
      · simp [rowFailed] at queued
      · simp [rowFailed] at processing
  | finished _ _ free => simp [locked] at free
  | failed _ _ free => simp [locked] at free
  | @requeued other _ _ _ phase otherMoved same =>
      have otherHolds : s.Holds (.replay other) (.event tx.eventId) := by
        rw [System.Holds, phase]
        exact Or.inl ⟨otherMoved, by rw [same]⟩
      have same := owner_unique reached otherHolds holds
      exact absurd (congrArg some same) goesOn

theorem movedFailed (reached : Reachable codec config s) : MovedFailed s := by
  refine reached.invariant ?_ ?_
  · intro caller tx running
    cases running
  · intro before action after earlier inv taken _ caller tx running moved
    -- what the transaction had moved before the step stays failed unless the step ends it
    have kept {old : ReplayTx} (ran : (before.replays caller).tx? = some old)
        (oldMoved : old.moved = true) (goesOn : action.releases? ≠ some (.replay caller)) :
        after.db.status? old.eventId = some .failed :=
      status?_of_locked earlier taken ran oldMoved goesOn (inv caller old ran oldMoved)
    have effect := step_replay taken caller
    generalize after.replays caller = call at effect running
    cases effect with
    | unchanged other =>
        exact kept running moved fun released => other (caller?_of_releases released)
    | @eventReset id =>
        cases running
        have failed := of_decide_eq_true moved
        have effect := step_event taken id
        rw [Database.status?]
        generalize after.db.event? id = row at effect
        cases effect
        exact failed
    | selected =>
        simp [Database.tx?_selectForReplay] at running
    | outboxReopened phase =>
        have ran : (before.replays caller).tx? = some tx := by rw [phase]; exact running
        exact kept ran moved (Option.some_ne_none _).symm
    | outboxMissing phase =>
        have ran : (before.replays caller).tx? = some tx := by rw [phase]; exact running
        exact kept ran moved (Option.some_ne_none _).symm
    | @outboxInserted old phase =>
        cases running
        have ran : (before.replays caller).tx? = some old := by rw [phase]; rfl
        have failed := kept ran moved (Option.some_ne_none _).symm
        exact failed
    | deadLetterMarked phase =>
        have ran : (before.replays caller).tx? = some tx := by rw [phase]; exact running
        exact kept ran moved (Option.some_ne_none _).symm
    | begun => cases running
    | committed => cases running
    | commitLost => cases running
    | failed => cases running
    | scheduled => cases running
    | crashed => cases running

/-! ### Outbox ids and the two ways into `outbox` -/

/-- The outbox id that an open save has drawn from the sequence. -/
def SaveCall.outboxId? : SaveCall Payload → Option Nat
  | .insertedOutbox _ _ _ outboxId => some outboxId
  | _ => none

/-- The event that a replay call found failed. -/
def ReplayCall.found? : ReplayCall → Option EventId
  | .selected id _ _ _ => some id
  | call => call.tx?.map ReplayTx.eventId

/-- Outbox ids are unique across the table and the open saves, and every event has its outbox row,
so that a replay never takes the branch that inserts one. -/
structure OutboxSound (s : System Payload) : Prop where
  rowBelow : ∀ id row, s.db.outboxFor? id = some row → row.id < s.db.outboxSeq
  saveBelow : ∀ request n, (s.saves request).outboxId? = some n → n < s.db.outboxSeq
  saveFresh : ∀ request n, (s.saves request).outboxId? = some n →
    ∀ id row, s.db.outboxFor? id = some row → row.id ≠ n
  saveApart : ∀ first second n, (s.saves first).outboxId? = some n →
    (s.saves second).outboxId? = some n → first = second
  present : ∀ id, s.db.event? id ≠ none → s.db.outboxFor? id ≠ none
  replayPresent : ∀ caller id, (s.replays caller).found? = some id → s.db.event? id ≠ none
  neverMissing : ∀ caller tx, s.replays caller ≠ .outboxMissing tx
  neverInserts : ∀ caller tx, (s.replays caller).tx? = some tx → tx.inserted = none

theorem step_outboxSeq (taken : step codec config s action = some s') :
    s.db.outboxSeq ≤ s'.db.outboxSeq := by
  cases action
  all_goals
    simp only [step, Option.ite_none_right_eq_some, Option.some.injEq] at taken
    obtain ⟨_, rfl⟩ := taken
    first
    | exact Nat.le_refl _
    | exact Nat.le_succ _
    | (dsimp only [System.setReplay, System.setDispatcher, System.setPhase, System.setWorker,
         System.setScheduler]
       split <;> exact Nat.le_refl _)

/-- Only `insertOutbox` gives a save an outbox id, the next of the sequence. -/
theorem step_outboxId? (taken : step codec config s action = some s') {request n : Nat}
    (drawn : (s'.saves request).outboxId? = some n) :
    ((s.saves request).outboxId? = some n ∧ action.request? ≠ some request) ∨
      (n = s.db.outboxSeq ∧ s'.db.outboxSeq = s.db.outboxSeq + 1 ∧
        s'.db.outbox = s.db.outbox ∧ action.request? = some request) := by
  have effect := step_save taken request
  generalize s'.saves request = call at effect drawn
  cases effect with
  | unchanged other => exact Or.inl ⟨drawn, other⟩
  | insertedOutbox phase absent free =>
      simp only [step, Option.ite_none_right_eq_some, Option.some.injEq] at taken
      obtain ⟨_, rfl⟩ := taken
      exact Or.inr ⟨(Option.some.inj drawn).symm, rfl, rfl, rfl⟩
  | submitted => cases drawn
  | insertedEvent => cases drawn
  | duplicate => cases drawn
  | committed => cases drawn
  | commitLost => cases drawn
  | failed => cases drawn

namespace OutboxSound

/-- Every row of the table after a step has the id of a row before it or that of the save that
has just committed. -/
private theorem row_of_step (sound : OutboxSound s)
    (taken : step codec config s action = some s') {id : EventId} {row : OutboxRow}
    (found : s'.db.outboxFor? id = some row) :
    (∃ old, s.db.outboxFor? id = some old ∧ old.id = row.id) ∨
      ∃ request, (s.saves request).outboxId? = some row.id ∧ action.request? = some request := by
  have effect := step_outbox taken id
  rw [found] at effect
  generalize same : some row = after at effect
  cases effect with
  | unchanged => exact Or.inl ⟨row, same.symm, rfl⟩
  | @accepted request _ _ _ _ _ phase =>
      cases same
      exact Or.inr ⟨request, by rw [phase]; rfl, rfl⟩
  | created phase inserts =>
      have updates := sound.neverInserts _ _ (by rw [phase]; rfl)
      simp [updates] at inserts
  | reserved _ _ old =>
      cases same
      exact Or.inl ⟨_, old, rfl⟩
  | published _ _ old =>
      cases same
      exact Or.inl ⟨_, old, rfl⟩
  | released _ _ old =>
      cases same
      exact Or.inl ⟨_, old, rfl⟩
  | reopened _ _ _ old =>
      cases same
      exact Or.inl ⟨_, old, rfl⟩

private theorem step_rowBelow (sound : OutboxSound s)
    (taken : step codec config s action = some s') (id : EventId) (row : OutboxRow)
    (found : s'.db.outboxFor? id = some row) : row.id < s'.db.outboxSeq := by
  have grows := step_outboxSeq taken
  rcases sound.row_of_step taken found with ⟨old, foundOld, same⟩ | ⟨request, drawn, _⟩
  · have below := sound.rowBelow id old foundOld
    omega
  · have below := sound.saveBelow request _ drawn
    omega

private theorem step_saveFresh (sound : OutboxSound s)
    (taken : step codec config s action = some s') (request n : Nat)
    (drawn : (s'.saves request).outboxId? = some n) (id : EventId) (row : OutboxRow)
    (found : s'.db.outboxFor? id = some row) : row.id ≠ n := by
  rcases step_outboxId? taken drawn with ⟨earlier, other⟩ | ⟨rfl, _, sameTable, acting⟩
  · rcases sound.row_of_step taken found with ⟨old, foundOld, same⟩ | ⟨owner, ownDrawn, acts⟩
    · exact same ▸ sound.saveFresh request n earlier id old foundOld
    · rintro rfl
      exact other (acts.trans (congrArg some (sound.saveApart owner request _ ownDrawn earlier)))
  · rw [Database.outboxFor?, sameTable] at found
    exact Nat.ne_of_lt (sound.rowBelow id row found)

private theorem step_saveApart (sound : OutboxSound s)
    (taken : step codec config s action = some s') (first second n : Nat)
    (firstDrawn : (s'.saves first).outboxId? = some n)
    (secondDrawn : (s'.saves second).outboxId? = some n) : first = second := by
  rcases step_outboxId? taken firstDrawn with ⟨earlier, _⟩ | ⟨rfl, _, _, acting⟩
  · rcases step_outboxId? taken secondDrawn with ⟨earlier', _⟩ | ⟨rfl, _, _, _⟩
    · exact sound.saveApart first second n earlier earlier'
    · exact absurd (sound.saveBelow first _ earlier) (Nat.lt_irrefl _)
  · rcases step_outboxId? taken secondDrawn with ⟨earlier', _⟩ | ⟨_, _, _, acting'⟩
    · exact absurd (sound.saveBelow second _ earlier') (Nat.lt_irrefl _)
    · exact Option.some.inj (acting.symm.trans acting')

private theorem step_present (sound : OutboxSound s)
    (taken : step codec config s action = some s') (id : EventId)
    (stored : s'.db.event? id ≠ none) : s'.db.outboxFor? id ≠ none := by
  by_cases before : s.db.event? id = none
  · -- the event has just been accepted, together with its outbox row
    have effect := step_event taken id
    generalize s'.db.event? id = after at effect stored
    cases effect with
    | unchanged => exact absurd before stored
    | @accepted request event payload now outboxId _ phase same =>
        simp only [step, Option.ite_none_right_eq_some, Option.some.injEq] at taken
        obtain ⟨_, rfl⟩ := taken
        have fresh : ∀ old ∈ s.db.outbox.rows, old.id ≠ outboxId := fun old member =>
          sound.saveFresh request outboxId (by rw [phase]; rfl) _ old
            (s.db.outboxFor?_of_mem member)
        have viewed := s.db.outboxFor?_commitSave event payload now outboxId fresh id
        change (s.db.commitSave event payload now outboxId).outboxFor? id ≠ none
        rw [viewed, if_pos same]
        simp
    | claimed _ _ _ _ found => simp [before] at found
    | finished _ _ _ _ found => simp [before] at found
    | failed _ _ _ _ found => simp [before] at found
    | requeued _ _ _ found => simp [before] at found
  · exact outboxFor?_persists taken (sound.present id before)

private theorem step_replayPresent (sound : OutboxSound s)
    (taken : step codec config s action = some s') (caller : Caller) (id : EventId)
    (reads : (s'.replays caller).found? = some id) : s'.db.event? id ≠ none := by
  refine event?_persists taken ?_
  have effect := step_replay taken caller
  generalize s'.replays caller = call at effect reads
  have before : (s.replays caller).found? = some id → s.db.event? id ≠ none :=
    sound.replayPresent caller id
  cases effect with
  | unchanged => exact before reads
  | @selected target =>
      rcases s.db.selectForReplay_cases target with ⟨row, found, _, selected⟩ | ⟨_, failed⟩
      · rw [selected] at reads
        cases reads
        simp [found]
      · rw [failed] at reads
        cases reads
  | eventReset phase => exact before (by rw [phase]; exact reads)
  | outboxReopened phase => exact before (by rw [phase]; exact reads)
  | outboxMissing phase => exact before (by rw [phase]; exact reads)
  | outboxInserted phase => exact before (by rw [phase]; exact reads)
  | deadLetterMarked phase => exact before (by rw [phase]; exact reads)
  | begun => cases reads
  | committed => cases reads
  | commitLost => cases reads
  | failed => cases reads
  | scheduled => cases reads
  | crashed => cases reads

private theorem step_neverMissing (sound : OutboxSound s)
    (taken : step codec config s action = some s') (caller : Caller) (tx : ReplayTx) :
    s'.replays caller ≠ .outboxMissing tx := by
  intro missing
  have effect := step_replay taken caller
  rw [missing] at effect
  generalize same : ReplayCall.outboxMissing tx = call at effect
  cases effect with
  | unchanged => exact sound.neverMissing caller tx same.symm
  | outboxMissing phase absent =>
      have stored := sound.replayPresent caller _ (by rw [phase]; rfl)
      exact sound.present _ stored absent
  | @selected id =>
      have noTx := s.db.tx?_selectForReplay id
      rw [← same] at noTx
      cases noTx
  | _ => cases same

private theorem step_neverInserts (sound : OutboxSound s)
    (taken : step codec config s action = some s') (caller : Caller) (tx : ReplayTx)
    (running : (s'.replays caller).tx? = some tx) : tx.inserted = none := by
  have effect := step_replay taken caller
  generalize s'.replays caller = call at effect running
  have before : (s.replays caller).tx? = some tx → tx.inserted = none :=
    sound.neverInserts caller tx
  cases effect with
  | unchanged => exact before running
  | selected => simp [Database.tx?_selectForReplay] at running
  | eventReset =>
      cases running
      rfl
  | outboxReopened phase => exact before (by rw [phase]; exact running)
  | outboxMissing phase => exact before (by rw [phase]; exact running)
  | outboxInserted phase => exact absurd phase (sound.neverMissing caller _)
  | deadLetterMarked phase => exact before (by rw [phase]; exact running)
  | begun => cases running
  | committed => cases running
  | commitLost => cases running
  | failed => cases running
  | scheduled => cases running
  | crashed => cases running

end OutboxSound

theorem outboxSound (reached : Reachable codec config s) : OutboxSound s := by
  refine reached.invariant ?_ ?_
  · constructor
    all_goals intros
    all_goals simp_all [System.initial, SaveCall.outboxId?, ReplayCall.found?, ReplayCall.tx?]
  · intro before action after _ sound taken _
    exact
      { rowBelow := sound.step_rowBelow taken
        saveBelow := fun request n drawn => by
          rcases step_outboxId? taken drawn with ⟨earlier, _⟩ | ⟨rfl, grown, _⟩
          · exact Nat.lt_of_lt_of_le (sound.saveBelow request n earlier) (step_outboxSeq taken)
          · omega
        saveFresh := sound.step_saveFresh taken
        saveApart := sound.step_saveApart taken
        present := sound.step_present taken
        replayPresent := sound.step_replayPresent taken
        neverMissing := sound.step_neverMissing taken
        neverInserts := sound.step_neverInserts taken }

/-! ### The keys of an open save -/

/-- The keys that an open save has inserted are not in the committed tables. -/
structure SaveKeysFree (s : System Payload) : Prop where
  event : ∀ request id, (s.saves request).Holds (.newEvent id) → s.db.event? id = none
  outbox : ∀ request id, (s.saves request).Holds (.outbox id) → s.db.outboxFor? id = none

private theorem event?_of_locked_key (reached : Reachable codec config s)
    (taken : step codec config s action = some s') {request : Nat} {id : EventId}
    (holds : (s.saves request).Holds (.newEvent id))
    (goesOn : action.request? ≠ some request ∨ action.releases? = none)
    (absent : s.db.event? id = none) : s'.db.event? id = none := by
  have effect := step_event taken id
  generalize s'.db.event? id = after at effect
  cases effect with
  | unchanged => exact absent
  | @accepted other _ _ _ _ _ phase same =>
      have otherHolds : s.Holds (.save other) (.newEvent id) := by
        rw [System.Holds, phase, ← same]
        exact Or.inl rfl
      have mine : s.Holds (.save request) (.newEvent id) := holds
      cases owner_unique reached otherHolds mine
      rcases goesOn with other | running
      · exact absurd rfl other
      · cases running
  | claimed _ _ _ _ found => simp [absent] at found
  | finished _ _ _ _ found => simp [absent] at found
  | failed _ _ _ _ found => simp [absent] at found
  | requeued _ _ _ found => simp [absent] at found

private theorem outboxFor?_of_locked_key (reached : Reachable codec config s)
    (taken : step codec config s action = some s') {request : Nat} {id : EventId}
    (holds : (s.saves request).Holds (.outbox id)) (goesOn : action.request? ≠ some request)
    (absent : s.db.outboxFor? id = none) : s'.db.outboxFor? id = none := by
  have effect := step_outbox taken id
  generalize s'.db.outboxFor? id = after at effect
  cases effect with
  | unchanged => exact absent
  | @accepted other _ _ _ _ _ phase same =>
      have otherHolds : s.Holds (.save other) (.outbox id) := by
        rw [System.Holds, phase, ← same]
        exact Or.inr rfl
      have mine : s.Holds (.save request) (.outbox id) := holds
      cases owner_unique reached otherHolds mine
      exact absurd rfl goesOn
  | created phase inserts =>
      have updates := (outboxSound reached).neverInserts _ _ (by rw [phase]; rfl)
      simp [updates] at inserts
  | reserved _ _ found => simp [absent] at found
  | published _ _ found => simp [absent] at found
  | released _ _ found => simp [absent] at found
  | reopened _ _ _ found => simp [absent] at found

theorem saveKeysFree (reached : Reachable codec config s) : SaveKeysFree s := by
  refine reached.invariant ?_ ?_
  · exact
      { event := fun _ _ holds => holds.elim
        outbox := fun _ _ holds => holds.elim }
  · intro before action after earlier keys taken _
    constructor
    · intro request id holds
      have effect := step_save taken request
      generalize after.saves request = call at effect holds
      cases effect with
      | unchanged other =>
          exact event?_of_locked_key earlier taken holds (Or.inl other)
            (keys.event request id holds)
      | @insertedEvent event _ _ _ _ absent =>
          cases holds
          have effect := step_event taken event.id
          generalize after.db.event? event.id = row at effect
          cases effect
          exact absent
      | insertedOutbox phase =>
          have held : (before.saves request).Holds (.newEvent id) := by
            rw [phase]
            exact holds.resolve_right fun other => by cases other
          exact event?_of_locked_key earlier taken held (Or.inr rfl) (keys.event request id held)
      | submitted => exact holds.elim
      | duplicate => exact holds.elim
      | committed => exact holds.elim
      | commitLost => exact holds.elim
      | failed => exact holds.elim
    · intro request id holds
      have effect := step_save taken request
      generalize after.saves request = call at effect holds
      cases effect with
      | unchanged other =>
          exact outboxFor?_of_locked_key earlier taken holds other (keys.outbox request id holds)
      | @insertedOutbox event _ _ _ absent =>
          cases holds.resolve_left fun other => by cases other
          have effect := step_outbox taken event.id
          generalize after.db.outboxFor? event.id = row at effect
          cases effect
          exact absent
      | insertedEvent => cases holds
      | submitted => exact holds.elim
      | duplicate => exact holds.elim
      | committed => exact holds.elim
      | commitLost => exact holds.elim
      | failed => exact holds.elim

end WebhookProcessor
