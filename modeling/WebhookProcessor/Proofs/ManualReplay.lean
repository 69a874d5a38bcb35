/-
Module: WebhookProcessor.Proofs.ManualReplay
Layer: Proofs
Purpose: What `ReplayDeadLetter` does for a failed event when it runs alone.  A dead letter is
  always written before the failed status and rows are never deleted, so the join finds the event,
  the three updates match, and exactly the rows of that event change.
Trusted boundary: none
Main exports: FailureRecorded, Reopened, replayDeadLetter_run, failed_event_replayable
-/
import WebhookProcessor.Model.Calls
import WebhookProcessor.Model.Replay
import WebhookProcessor.Proofs.Replays

namespace WebhookProcessor

open Transition

variable {Payload : Type}

/-! ### A failed event has a dead letter -/

/-- A failed event has a dead letter, and so has the event of a worker about to mark it failed. -/
structure FailureRecorded (s : System Payload) : Prop where
  failed : ∀ id, s.db.status? id = some .failed → s.db.deadLetter? id ≠ none
  saved : ∀ w claim attempt error, (s.workers w).phase = .deadLettered claim attempt error →
    s.db.deadLetter? claim.event.id ≠ none

section Steps

variable [DecidableEq Payload] {codec : Codec Payload} {config : Config} {s s' : System Payload}
  {action : Action Payload}

/-- `MarkFailed` comes from a worker that has saved the dead letter. -/
private theorem FailureRecorded.step_failed (recorded : FailureRecorded s)
    (taken : step codec config s action = some s') (id : EventId)
    (failed : s'.db.status? id = some .failed) : s'.db.deadLetter? id ≠ none := by
  have kept : s.db.status? id = some .failed → s'.db.deadLetter? id ≠ none := fun before =>
    deadLetter?_persists taken (recorded.failed id before)
  have effect := step_event taken id
  rw [Database.status?] at failed
  generalize s'.db.event? id = after at effect failed
  cases effect with
  | unchanged => exact kept failed
  | accepted =>
      cases before : s.db.event? id with
      | none => simp [before, queuedEventRow] at failed
      | some row =>
          apply kept
          simpa [Database.status?, before] using failed
  | claimed => cases failed
  | finished => cases failed
  | failed phase _ _ same =>
      apply deadLetter?_persists taken
      rw [← same]
      exact recorded.saved _ _ _ _ phase
  | requeued => cases failed

private theorem FailureRecorded.step_saved (recorded : FailureRecorded s)
    (taken : step codec config s action = some s') (w : Nat) (claim : Claim Payload)
    (attempt : Nat) (error : String)
    (phase : (s'.workers w).phase = .deadLettered claim attempt error) :
    s'.db.deadLetter? claim.event.id ≠ none := by
  have kept : (s.workers w).phase = .deadLettered claim attempt error →
      s'.db.deadLetter? claim.event.id ≠ none := fun before =>
    deadLetter?_persists taken (recorded.saved w claim attempt error before)
  have effect := step_worker taken w
  generalize s'.workers w = worker at effect phase
  cases effect with
  | unchanged => exact kept phase
  | disconnected => exact kept phase
  | @attempted _ _ answer =>
      cases answer with
      | none => cases phase
      | some _ =>
          simp only [afterAttempt] at phase
          split at phase <;> cases phase
  | deadLettered =>
      cases phase
      simp only [step, Option.ite_none_right_eq_some, Option.some.injEq] at taken
      obtain ⟨_, rfl⟩ := taken
      simp [System.setPhase, System.setWorker, Outcome.effective_ok,
        Database.deadLetter?_saveDeadLetter]
  | delivered => cases phase
  | claimed => cases phase
  | unclaimed => cases phase
  | claimError => cases phase
  | statusRead => cases phase
  | statusError => cases phase
  | processed => cases phase
  | processedError => cases phase
  | deadLetterError => cases phase
  | failed => cases phase
  | failedError => cases phase
  | returned => cases phase
  | settled => cases phase
  | crashed => cases phase

theorem failureRecorded (reached : Reachable codec config s) : FailureRecorded s := by
  refine reached.invariant ?_ ?_
  · constructor
    · intro id failed
      cases failed
    · intro w claim attempt error phase
      cases phase
  · intro before action after _ recorded taken _
    exact
      { failed := recorded.step_failed taken
        saved := recorded.step_saved taken }

end Steps

/-! ### The rows a replay changes -/

/-- The replay of `id` at `now` turned `db` into `after`: the event is queued afresh, its only
outbox row is open again, its dead letter is closed, and no row of another event changed. -/
structure Reopened (db after : Database) (id : EventId) (now : Time) : Prop where
  event : ∃ row, after.event? id = some row ∧ row.status = .queued ∧ row.attempts = 0 ∧
    row.error = "" ∧ row.processingStartedAt = none
  outbox : ∃ old row, db.outboxFor? id = some old ∧ after.outboxFor? id = some row ∧
    (∀ other ∈ after.outbox.rows, other.eventId = id → other = row) ∧ row.publishedAt = none ∧
    row.attempts = 0 ∧ row.lastError = "" ∧ row.eventType = old.eventType ∧
    row.requestId = old.requestId ∧ row.payload = old.payload
  deadLetter : ∃ old, db.deadLetter? id = some old ∧
    after.deadLetter? id = some { old with replayedAt := some now }
  others : ∀ other, other ≠ id → after.event? other = db.event? other ∧
    after.outboxFor? other = db.outboxFor? other ∧ after.deadLetter? other = db.deadLetter? other

/-- The transaction of an undisturbed replay of the event with this row. -/
def EventRow.replayTx (row : EventRow) (now : Time) : ReplayTx :=
  { eventId := row.id
    eventType := row.type
    requestId := row.requestId
    payload := row.payload
    now := now
    moved := true
    inserted := none }

namespace Database

variable {db : Database} {id : EventId}

/-- A failed event with its outbox row and its dead letter is found by the join, and all three
updates match. -/
theorem replayTx_of_failed {event : EventRow} (found : db.event? id = some event)
    (failed : event.status = .failed) (present : db.outboxFor? id ≠ none)
    (recorded : db.deadLetter? id ≠ none) (now : Time) :
    db.replayTx id now = .ok (event.replayTx now) := by
  obtain ⟨letter, foundLetter⟩ := Option.ne_none_iff_exists'.mp recorded
  have status : db.status? id = some .failed := db.status?_eq_some_iff.mpr ⟨event, found, failed⟩
  have sameId := db.id_of_event? found
  simp [replayTx, found, foundLetter, failed, status, present, EventRow.replayTx, sameId]

theorem replayDeadLetter_of_replayTx {now : Time} {tx : ReplayTx}
    (begins : db.replayTx id now = .ok tx) (updates : tx.inserted = none) :
    db.replayDeadLetter id now = .ok (db.commitReplay tx) := by
  simp only [replayDeadLetter, begins, updates, if_true]

theorem reopened_of_failed {event : EventRow} (found : db.event? id = some event)
    (present : db.outboxFor? id ≠ none) (recorded : db.deadLetter? id ≠ none) (now : Time) :
    Reopened db (db.commitReplay (event.replayTx now)) id now := by
  obtain ⟨row, foundRow⟩ := Option.ne_none_iff_exists'.mp present
  obtain ⟨letter, foundLetter⟩ := Option.ne_none_iff_exists'.mp recorded
  have sameId : (event.replayTx now).eventId = id := db.id_of_event? found
  have updates : (event.replayTx now).inserted = none := rfl
  have moved : (event.replayTx now).moved = true := rfl
  have reopened : (db.commitReplay (event.replayTx now)).outboxFor? id = some row.reopen := by
    rw [outboxFor?_commitReplay _ updates, if_pos sameId.symm, foundRow, Option.map_some]
  refine ⟨⟨event.requeue now, ?_, rfl, rfl, rfl, rfl⟩,
    ⟨row, row.reopen, foundRow, reopened, ?_, rfl, rfl, rfl, rfl, rfl, rfl⟩,
    ⟨letter, foundLetter, ?_⟩, ?_⟩
  · rw [event?_commitReplay, if_pos ⟨sameId.symm, moved⟩, found]
    rfl
  · intro other member sameEvent
    have foundOther := outboxFor?_of_mem _ member
    rw [sameEvent, reopened] at foundOther
    exact (Option.some.inj foundOther).symm
  · rw [deadLetter?_commitReplay, if_pos sameId.symm, foundLetter]
    rfl
  · intro other different
    rw [event?_commitReplay, outboxFor?_commitReplay _ updates, deadLetter?_commitReplay, sameId]
    simp [different]

end Database

/-! ### The statements of a replay -/

/-- No open transaction holds a row of the event. -/
structure Database.Unheld (db : Database) (id : EventId) : Prop where
  event : db.locks (.event id) = none
  outbox : db.locks (.outbox id) = none
  deadLetter : db.locks (.deadLetter id) = none

/-- `s` as the others see it while `caller` stands at `call` in a transaction that has taken some
row locks and committed nothing. -/
def System.during (s : System Payload) (caller : Caller) (call : ReplayCall)
    (locks : RowRef → Option Owner) : System Payload :=
  { s with
    db := { s.db with locks := locks }
    replays := Function.update s.replays caller call }

namespace System

variable (s : System Payload) (caller : Caller) (call : ReplayCall) (locks : RowRef → Option Owner)

theorem replays_during : (s.during caller call locks).replays caller = call :=
  Function.update_self ..

theorem setReplay_during (reached : ReplayCall) :
    (s.during caller call locks).setReplay caller reached = s.during caller reached locks := by
  simp [during, setReplay]

/-- A statement that takes a row. -/
theorem lock_during (owner : Owner) (row : RowRef) (reached : ReplayCall) :
    { s.during caller call locks with
      db := (s.during caller call locks).db.lock owner row }.setReplay caller reached =
      s.during caller reached (Function.update locks row (some owner)) := by
  simp [during, setReplay, Database.lock]

end System

section Run

variable [DecidableEq Payload] {codec : Codec Payload} {config : Config} {s : System Payload}
  {caller : Caller} {locks : RowRef → Option Owner}

private theorem step_replay_during (manual : caller.Manual) (free : (s.replays caller).Free)
    (id : EventId) :
    step codec config s (.replay caller id) = some (s.during caller (.begun id) s.db.locks) :=
  if_pos ⟨manual, free⟩

theorem step_replaySelect_during (id : EventId) :
    step codec config (s.during caller (.begun id) locks) (.replaySelect caller id) =
      some (s.during caller (s.db.selectForReplay id) locks) := by
  rw [← s.setReplay_during caller (.begun id) locks (s.db.selectForReplay id)]
  exact if_pos (s.replays_during ..)

theorem step_replayResetEvent_during {id : EventId} {eventType requestId payload : String}
    {now : Time} (sampled : now ≤ s.clock) (failed : s.db.status? id = some .failed)
    (free : locks (.event id) = none) :
    step codec config (s.during caller (.selected id eventType requestId payload) locks)
        (.replayResetEvent caller id eventType requestId payload now) =
      some (s.during caller
        (.eventReset
          { eventId := id
            eventType := eventType
            requestId := requestId
            payload := payload
            now := now
            moved := true
            inserted := none })
        (Function.update locks (.event id) (some (.replay caller)))) := by
  rw [← s.lock_during caller (.selected id eventType requestId payload)]
  have matched : (s.during caller (.selected id eventType requestId payload) locks).db.status? id =
      some .failed := failed
  rw [step, if_pos ⟨s.replays_during .., sampled, fun _ => free⟩]
  simp only [matched, decide_true, if_true]

theorem step_replayReopenOutbox_during (tx : ReplayTx)
    (present : s.db.outboxFor? tx.eventId ≠ none) (free : locks (.outbox tx.eventId) = none) :
    step codec config (s.during caller (.eventReset tx) locks) (.replayReopenOutbox caller tx) =
      some (s.during caller (.outboxReopened tx)
        (Function.update locks (.outbox tx.eventId) (some (.replay caller)))) := by
  rw [← s.lock_during caller (.eventReset tx)]
  have matched : (s.during caller (.eventReset tx) locks).db.outboxFor? tx.eventId ≠ none := present
  rw [step, if_pos ⟨s.replays_during .., fun _ => free⟩, if_neg matched, if_neg matched]

theorem step_replayMarkDeadLetter_during {tx : ReplayTx}
    (recorded : s.db.deadLetter? tx.eventId ≠ none)
    (free : locks (.deadLetter tx.eventId) = none) :
    step codec config (s.during caller (.outboxReopened tx) locks)
        (.replayMarkDeadLetter caller tx) =
      some (s.during caller (.deadLetterMarked tx)
        (Function.update locks (.deadLetter tx.eventId) (some (.replay caller)))) := by
  rw [← s.lock_during caller (.outboxReopened tx)]
  have matched : (s.during caller (.outboxReopened tx) locks).db.deadLetter? tx.eventId ≠ none :=
    recorded
  rw [step, if_pos ⟨s.replays_during .., free⟩, if_neg matched]

/-- The statements of an undisturbed replay run through and leave what `commitReplay` says. -/
theorem replayDeadLetter_run {id : EventId} {event : EventRow}
    (found : s.db.event? id = some event) (failed : event.status = .failed)
    (present : s.db.outboxFor? id ≠ none) (recorded : s.db.deadLetter? id ≠ none)
    (unheld : s.db.Unheld id) {now : Time} (sampled : now ≤ s.clock) (manual : caller.Manual)
    (free : (s.replays caller).Free) :
    ∃ final, run (step codec config) s (replayStatements caller (event.replayTx now)) =
        some final ∧
      final.replays caller = .succeeded id ∧
      final.db.events = (s.db.commitReplay (event.replayTx now)).events ∧
      final.db.outbox = (s.db.commitReplay (event.replayTx now)).outbox ∧
      final.db.deadLetters = (s.db.commitReplay (event.replayTx now)).deadLetters := by
  have sameId := s.db.id_of_event? found
  subst sameId
  obtain ⟨letter, foundLetter⟩ := Option.ne_none_iff_exists'.mp recorded
  have status : s.db.status? event.id = some .failed :=
    s.db.status?_eq_some_iff.mpr ⟨event, found, failed⟩
  have selected : s.db.selectForReplay event.id =
      .selected event.id event.type event.requestId event.payload := by
    simp [Database.selectForReplay, found, foundLetter, failed]
  refine exists_run_cons (step_replay_during manual free _) ?_
  refine exists_run_cons (step_replaySelect_during _) ?_
  rw [show s.db.selectForReplay (event.replayTx now).eventId = _ from selected]
  refine exists_run_cons (step_replayResetEvent_during sampled status unheld.event) ?_
  refine exists_run_cons (step_replayReopenOutbox_during (event.replayTx now) present ?_) ?_
  · simpa [EventRow.replayTx] using unheld.outbox
  refine exists_run_cons (step_replayMarkDeadLetter_during recorded ?_) ?_
  · simpa [EventRow.replayTx] using unheld.deadLetter
  refine exists_run_cons (if_pos (s.replays_during ..)) ?_
  exact ⟨_, rfl, Function.update_self .., rfl, rfl, rfl⟩

/-- In every reachable state a failed event can be replayed: `ReplayDeadLetter` run alone succeeds
without inserting an outbox row, reopens exactly that event, and its statements are a run of the
service when nobody holds the event's rows. -/
theorem failed_event_replayable (reached : Reachable codec config s) {id : EventId}
    (failed : s.db.status? id = some .failed) (now : Time) :
    ∃ tx after, s.db.replayTx id now = .ok tx ∧ tx.inserted = none ∧
      s.db.replayDeadLetter id now = .ok after ∧ Reopened s.db after id now ∧
      ∀ caller, caller.Manual → (s.replays caller).Free → s.db.Unheld id → now ≤ s.clock →
        ∃ final, run (step codec config) s (replayStatements caller tx) = some final ∧
          final.replays caller = .succeeded id ∧ final.db.events = after.events ∧
          final.db.outbox = after.outbox ∧ final.db.deadLetters = after.deadLetters := by
  obtain ⟨event, found, isFailed⟩ := s.db.status?_eq_some_iff.mp failed
  have present := (outboxSound reached).present id (by rw [found]; exact Option.some_ne_none _)
  have recorded := (failureRecorded reached).failed id failed
  have begins := Database.replayTx_of_failed found isFailed present recorded now
  refine ⟨event.replayTx now, _, begins, rfl, Database.replayDeadLetter_of_replayTx begins rfl,
    Database.reopened_of_failed found present recorded now, ?_⟩
  intro caller manual free unheld sampled
  exact replayDeadLetter_run found isFailed present recorded unheld sampled manual free

end Run

set_option maxRecDepth 4000 in
theorem failed_event_replayable_of_failedRun :
    ∃ s, run (step Codec.text Sample.config) System.initial failedRun = some s ∧
      s.db.status? Sample.event.id = some .failed ∧
      ∃ after, s.db.replayDeadLetter Sample.event.id 0 = .ok after ∧
        Reopened s.db after Sample.event.id 0 := by
  have ran : (run (step Codec.text Sample.config) System.initial failedRun).map
      (fun s => s.db.status? Sample.event.id) = some (some .failed) := by
    decide +kernel
  obtain ⟨s, reaches, failed⟩ := Option.map_eq_some_iff.mp ran
  obtain ⟨_, after, _, _, replayed, reopened, _⟩ :=
    failed_event_replayable (Reachable.of_run reaches) failed 0
  exact ⟨s, reaches, failed, after, replayed, reopened⟩

end WebhookProcessor
