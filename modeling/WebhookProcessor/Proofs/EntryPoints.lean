/-
Module: WebhookProcessor.Proofs.EntryPoints
Layer: Proofs
Purpose: Which event a manual replay reopens.  `createEventHandler` takes the id of an event as it
  is, while the replay handler and the CLI command trim white space off the id they are given.  The
  three agree exactly on the ids that trimming leaves alone; on any other id a replay request
  concerns a different event, or none.
Trusted boundary: none
Main exports: NamedEvents, ReopensFailed, replay_agrees_with_acceptance_iff_trimmed
-/
import WebhookProcessor.Proofs.ManualReplay

namespace WebhookProcessor

open Transition

variable {Payload : Type}

/-- Every submission being written and every stored event has an id. -/
structure NamedEvents (s : System Payload) : Prop where
  saves : ∀ request event, (s.saves request).inFlight = some event → event.id ≠ ""
  events : ∀ id, s.db.event? id ≠ none → id ≠ ""

section Steps

variable [DecidableEq Payload] {codec : Codec Payload} {config : Config} {s s' : System Payload}
  {action : Action Payload}

private theorem NamedEvents.step_saves (named : NamedEvents s)
    (taken : step codec config s action = some s') (request : Nat) (event : Event Payload)
    (running : (s'.saves request).inFlight = some event) : event.id ≠ "" := by
  have kept := named.saves request event
  have effect := step_save taken request
  generalize s'.saves request = call at effect running
  cases effect with
  | unchanged => exact kept running
  | submitted =>
      cases running
      simp only [step, Option.ite_none_right_eq_some] at taken
      exact taken.1.2.2.1
  | insertedEvent phase =>
      apply kept
      rw [phase]
      exact running
  | insertedOutbox phase =>
      apply kept
      rw [phase]
      exact running
  | duplicate => cases running
  | committed => cases running
  | commitLost => cases running
  | failed => cases running

private theorem NamedEvents.step_events (named : NamedEvents s)
    (taken : step codec config s action = some s') (id : EventId)
    (present : s'.db.event? id ≠ none) : id ≠ "" := by
  have kept := named.events id
  have effect := step_event taken id
  generalize s'.db.event? id = after at effect present
  cases effect with
  | unchanged => exact kept present
  | accepted phase same =>
      rw [← same]
      apply named.saves
      rw [phase]
      rfl
  | claimed _ _ _ _ found => exact kept (found ▸ Option.some_ne_none _)
  | finished _ _ _ _ found => exact kept (found ▸ Option.some_ne_none _)
  | failed _ _ _ _ found => exact kept (found ▸ Option.some_ne_none _)
  | requeued _ _ _ found => exact kept (found ▸ Option.some_ne_none _)

theorem namedEvents (reached : Reachable codec config s) : NamedEvents s := by
  refine reached.invariant ?_ ?_
  · constructor
    · intro request event running
      cases running
    · intro id present
      exact absurd (Database.event?_empty id) present
  · intro before action after _ named taken _
    exact
      { saves := named.step_saves taken
        events := named.step_events taken }

end Steps

/-! ### What an entry point does -/

/-- `after` is `db` with `id` replayed if the event is failed, and `db` itself otherwise. -/
def ReopensFailed (db after : Database) (id : EventId) (now : Time) : Prop :=
  (db.status? id = some .failed ∧ Reopened db after id now) ∨
    (db.status? id ≠ some .failed ∧ after = db)

/-- The rows of every event other than `id` are the same. -/
def SameOthers (db after : Database) (id : EventId) : Prop :=
  ∀ other, other ≠ id → after.event? other = db.event? other ∧
    after.outboxFor? other = db.outboxFor? other ∧ after.deadLetter? other = db.deadLetter? other

namespace ReopensFailed

variable {db after : Database} {id target : EventId} {now : Time}

/-- A failed event is reopened by an entry point if and only if it is the one the entry point
acts on. -/
theorem reopened_iff (acts : ReopensFailed db after target now)
    (failed : db.status? id = some .failed) : Reopened db after id now ↔ target = id := by
  constructor
  · intro reopened
    by_contra different
    obtain ⟨row, found, queued, _⟩ := reopened.event
    -- the row of `id` is as it was, so it is still failed
    have untouched : after.event? id = db.event? id := by
      rcases acts with ⟨_, elsewhere⟩ | ⟨_, rfl⟩
      · exact (elsewhere.others id (Ne.symm different)).1
      · rfl
    rw [Database.status?, ← untouched, found, Option.map_some, queued] at failed
    cases failed
  · rintro rfl
    rcases acts with ⟨_, reopened⟩ | ⟨other, _⟩
    · exact reopened
    · exact absurd failed other

/-- An entry point leaves the other events alone unless it acts on one of them that is failed. -/
theorem sameOthers_iff (acts : ReopensFailed db after target now) :
    SameOthers db after id ↔ target = id ∨ db.status? target ≠ some .failed := by
  rcases acts with ⟨failed, reopened⟩ | ⟨other, rfl⟩
  · constructor
    · intro same
      refine Or.inl ?_
      by_contra different
      obtain ⟨row, found, queued, _⟩ := reopened.event
      have untouched := (same target different).1
      rw [Database.status?, ← untouched, found, Option.map_some, queued] at failed
      cases failed
    · rintro (rfl | other)
      · exact reopened.others
      · exact absurd failed other
  · constructor
    · intro _
      exact Or.inr other
    · intro _ event _
      exact ⟨rfl, rfl, rfl⟩

end ReopensFailed

section EntryPoints

variable [DecidableEq Payload] {codec : Codec Payload} {config : Config} {s : System Payload}

/-- `ReplayDeadLetter` in a reachable state. -/
theorem replayDeadLetter_cases (reached : Reachable codec config s) (id : EventId) (now : Time) :
    (∃ after, s.db.replayDeadLetter id now = .ok after ∧ s.db.status? id = some .failed ∧
        Reopened s.db after id now) ∨
      ∃ error, s.db.replayDeadLetter id now = .error error ∧
        s.db.status? id ≠ some .failed := by
  by_cases failed : s.db.status? id = some .failed
  · obtain ⟨event, found, isFailed⟩ := s.db.status?_eq_some_iff.mp failed
    have present := (outboxSound reached).present id (by rw [found]; exact Option.some_ne_none _)
    have recorded := (failureRecorded reached).failed id failed
    have begins := Database.replayTx_of_failed found isFailed present recorded now
    exact Or.inl ⟨_, Database.replayDeadLetter_of_replayTx begins rfl, failed,
      Database.reopened_of_failed found present recorded now⟩
  · refine Or.inr ?_
    unfold Database.replayDeadLetter Database.replayTx
    cases found : s.db.event? id with
    | none => exact ⟨_, rfl, failed⟩
    | some event =>
        have notFailed : event.status ≠ .failed := fun isFailed =>
          failed (s.db.status?_eq_some_iff.mpr ⟨event, found, isFailed⟩)
        cases s.db.deadLetter? id with
        | none => exact ⟨_, rfl, failed⟩
        | some letter =>
            exact ⟨.deadLetterNotFailed event.status, by simp only [if_pos notFailed], failed⟩

/-- An event without an id is not failed. -/
private theorem status?_empty_id (reached : Reachable codec config s) :
    s.db.status? "" ≠ some .failed := by
  intro failed
  obtain ⟨event, found, _⟩ := s.db.status?_eq_some_iff.mp failed
  exact (namedEvents reached).events "" (found ▸ Option.some_ne_none _) rfl

theorem replayDeadLetterHandler_reopensFailed (reached : Reachable codec config s)
    {replayToken : String} {request : ReplayRequest} (authorized : Authorized replayToken request)
    (now : Time) :
    ReopensFailed s.db (replayDeadLetterHandler replayToken request now s.db).2
      (trimSpace request.eventId) now := by
  obtain ⟨configured, provided⟩ := authorized
  unfold replayDeadLetterHandler
  rw [if_neg configured, if_neg (not_not.mpr provided)]
  by_cases named : trimSpace request.eventId = ""
  · rw [if_pos named, named]
    exact Or.inr ⟨status?_empty_id reached, rfl⟩
  · rw [if_neg named]
    rcases replayDeadLetter_cases reached (trimSpace request.eventId) now with
      ⟨after, replayed, failed, reopened⟩ | ⟨error, refused, notFailed⟩
    · rw [replayed]
      exact Or.inl ⟨failed, reopened⟩
    · rw [refused]
      exact Or.inr ⟨notFailed, rfl⟩

theorem runCommand_reopensFailed (reached : Reachable codec config s) (argument : String)
    (now : Time) :
    ReopensFailed s.db (runCommand ["replay-dead-letter", argument] now s.db).2
      (trimSpace argument) now := by
  simp only [runCommand]
  by_cases named : trimSpace argument = ""
  · rw [if_pos named, named]
    exact Or.inr ⟨status?_empty_id reached, rfl⟩
  · rw [if_neg named]
    rcases replayDeadLetter_cases reached (trimSpace argument) now with
      ⟨after, replayed, failed, reopened⟩ | ⟨error, refused, notFailed⟩
    · rw [replayed]
      exact Or.inl ⟨failed, reopened⟩
    · rw [refused]
      exact Or.inr ⟨notFailed, rfl⟩

theorem replayDeadLetterHandler_unauthorized {replayToken : String} {request : ReplayRequest}
    (unauthorized : ¬ Authorized replayToken request) (now : Time) (db : Database) :
    (replayDeadLetterHandler replayToken request now db).2 = db := by
  unfold replayDeadLetterHandler
  by_cases configured : replayToken = ""
  · rw [if_pos configured]
  · rw [if_neg configured, if_pos fun provided => unauthorized ⟨configured, provided⟩]

/-- What acceptance and replay agree on for the id `x`: if the event is failed, an authorized
request and the command reopen exactly it, and no request or command for `x` touches another
event. -/
def AgreesOnIdentity (db : Database) (replayToken : String) (request : ReplayRequest)
    (now : Time) : Prop :=
  let viaHandler := (replayDeadLetterHandler replayToken request now db).2
  let viaCommand := (runCommand ["replay-dead-letter", request.eventId] now db).2
  (db.status? request.eventId = some .failed →
      (Authorized replayToken request → Reopened db viaHandler request.eventId now) ∧
        Reopened db viaCommand request.eventId now) ∧
    SameOthers db viaHandler request.eventId ∧ SameOthers db viaCommand request.eventId

/-- Acceptance and replay agree on an id exactly when trimming leaves it alone, or when there is
nothing to replay under it, trimmed or not. -/
theorem replay_agrees_with_acceptance_iff_trimmed (reached : Reachable codec config s)
    (replayToken : String) (request : ReplayRequest) (now : Time) :
    AgreesOnIdentity s.db replayToken request now ↔
      trimSpace request.eventId = request.eventId ∨
        (s.db.status? request.eventId ≠ some .failed ∧
          s.db.status? (trimSpace request.eventId) ≠ some .failed) := by
  have command := runCommand_reopensFailed reached request.eventId now
  constructor
  · rintro ⟨reopens, _, untouched⟩
    by_cases failed : s.db.status? request.eventId = some .failed
    · exact Or.inl ((command.reopened_iff failed).mp (reopens failed).2)
    · refine (command.sameOthers_iff.mp untouched).imp_right fun other => ?_
      exact ⟨failed, other⟩
  · intro agreed
    have apart : trimSpace request.eventId = request.eventId ∨
        s.db.status? (trimSpace request.eventId) ≠ some .failed := agreed.imp_right And.right
    refine ⟨fun failed => ?_, ?_, command.sameOthers_iff.mpr apart⟩
    · have trimmed : trimSpace request.eventId = request.eventId :=
        agreed.resolve_right fun neither => neither.1 failed
      refine ⟨fun authorized => ?_, (command.reopened_iff failed).mpr trimmed⟩
      have handler := replayDeadLetterHandler_reopensFailed reached authorized now
      exact (handler.reopened_iff failed).mpr trimmed
    · by_cases authorized : Authorized replayToken request
      · have handler := replayDeadLetterHandler_reopensFailed reached authorized now
        exact handler.sameOthers_iff.mpr apart
      · rw [replayDeadLetterHandler_unauthorized authorized]
        exact fun _ _ => ⟨rfl, rfl, rfl⟩

end EntryPoints

/-- A replay request with the configured token `secret`. -/
def bearerRequest (eventId : String) : ReplayRequest :=
  { authorization := "Bearer secret"
    eventId := eventId }

set_option maxRecDepth 4000 in
theorem replay_agrees_with_acceptance_of_failedRun :
    ∃ s, run (step Codec.text Sample.config) System.initial failedRun = some s ∧
      s.db.status? "evt-1" = some .failed ∧ Authorized "secret" (bearerRequest "evt-1") ∧
      AgreesOnIdentity s.db "secret" (bearerRequest "evt-1") 0 := by
  have ran : (run (step Codec.text Sample.config) System.initial failedRun).map
      (fun s => s.db.status? "evt-1") = some (some .failed) := by
    decide +kernel
  obtain ⟨s, reaches, failed⟩ := Option.map_eq_some_iff.mp ran
  have agreed := (replay_agrees_with_acceptance_iff_trimmed (Reachable.of_run reaches) "secret"
    (bearerRequest "evt-1") 0).mpr (Or.inl (by decide +kernel))
  exact ⟨s, reaches, failed, by decide +kernel, agreed⟩

set_option maxRecDepth 4000 in
/-- A replay request for `"evt-1 "`, an id of its own for `createEventHandler`, replays
`"evt-1"`. -/
theorem replay_of_untrimmed_id_moves_other_event :
    ¬ ∀ s : System String, Reachable Codec.text Sample.config s →
      ∀ replayToken request now, AgreesOnIdentity s.db replayToken request now := by
  intro agrees
  have ran : (run (step Codec.text Sample.config) System.initial failedRun).map
      (fun s => (s.db.status? "evt-1",
        (runCommand ["replay-dead-letter", "evt-1 "] 0 s.db).2.status? "evt-1")) =
      some (some .failed, some .queued) := by
    decide +kernel
  obtain ⟨s, reaches, both⟩ := Option.map_eq_some_iff.mp ran
  obtain ⟨before, after⟩ := Prod.mk.inj both
  have untouched := (agrees s (Reachable.of_run reaches) "secret" (bearerRequest "evt-1 ") 0).2.2
    "evt-1" (by decide)
  have same : (runCommand ["replay-dead-letter", "evt-1 "] 0 s.db).2.status? "evt-1" =
      s.db.status? "evt-1" := congrArg (Option.map EventRow.status) untouched.1
  rw [before, after] at same
  cases same

end WebhookProcessor
