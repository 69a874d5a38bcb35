/-
Module: WebhookProcessor.Proofs.IntakeRuns
Layer: Proofs
Purpose: The requests of `Model.Intake`, one after the other, are runs of the service: what `post`
  does to the database in one piece, the statements of `SaveQueuedWithOutbox` do step by step when
  nobody disturbs them.
Trusted boundary: as in `Model.Intake` and `Model.System`
Main exports: post_run, serve_run
-/
import WebhookProcessor.Proofs.Intake
import WebhookProcessor.Proofs.Transactions

namespace WebhookProcessor

open Transition

variable {Payload : Type}

/-! ### A request between its statements -/

/-- The service while one request is between two statements: its call, the row locks and the next
outbox id. -/
def System.saving (s : System Payload) (request : Nat) (call : SaveCall Payload)
    (locks : RowRef → Option Owner) (outboxSeq : Nat) : System Payload :=
  { s with
    db := { s.db with
      locks := locks
      outboxSeq := outboxSeq }
    saves := Function.update s.saves request call }

/-- Only this owner holds rows. -/
def HeldBy (owner : Owner) (locks : RowRef → Option Owner) : Prop :=
  ∀ row, locks row = none ∨ locks row = some owner

theorem HeldBy.lock {owner : Owner} {locks : RowRef → Option Owner} (held : HeldBy owner locks)
    (row : RowRef) : HeldBy owner (Function.update locks row (some owner)) := by
  intro other
  by_cases same : other = row
  · subst same
    exact Or.inr (Function.update_self ..)
  · rw [Function.update_of_ne same]
    exact held other

/-- The end of the only transaction leaves no row locked. -/
theorem Database.unlock_of_heldBy (db : Database) {owner : Owner} (held : HeldBy owner db.locks) :
    db.unlock owner = { db with locks := fun _ => none } := by
  unfold Database.unlock
  congr
  funext row
  rcases held row with free | own
  · simp [free]
  · simp [own]

section Statements

variable [DecidableEq Payload] {codec : Codec Payload} {config : Config} {s : System Payload}
  {request : Nat} {event : Event Payload} {payload : String} {now : Time}
  {locks : RowRef → Option Owner} {outboxSeq : Nat}

private theorem step_submit_saving {body : EventJson} (free : (s.saves request).Free)
    (decodes : (codec.unmarshalEvent body).map
      (fun decoded => { decoded with requestId := event.requestId }) = some event)
    (hasId : event.id ≠ "") (hasType : event.type ≠ "")
    (marshalled : codec.marshal event.payload = some payload) :
    step codec config s (.submit request body event.requestId event payload) =
      some (s.saving request (.begun event payload) s.db.locks s.db.outboxSeq) :=
  if_pos ⟨free, decodes, hasId, hasType, marshalled⟩

private theorem step_insertEvent_saving (sampled : now ≤ s.clock)
    (absent : s.db.event? event.id = none) (free : locks (.newEvent event.id) = none) :
    step codec config (s.saving request (.begun event payload) locks outboxSeq)
        (.insertEvent request event payload now) =
      some (s.saving request (.insertedEvent event payload now)
        (Function.update locks (.newEvent event.id) (some (.save request))) outboxSeq) := by
  rw [step, if_pos ⟨Function.update_self .., sampled, absent, free⟩]
  simp [System.saving, System.setSave, Database.lock]

private theorem step_insertOutbox_saving (absent : s.db.outboxFor? event.id = none)
    (free : locks (.outbox event.id) = none) :
    step codec config (s.saving request (.insertedEvent event payload now) locks outboxSeq)
        (.insertOutbox request event payload now) =
      some (s.saving request (.insertedOutbox event payload now outboxSeq)
        (Function.update locks (.outbox event.id) (some (.save request))) (outboxSeq + 1)) := by
  rw [step, if_pos ⟨Function.update_self .., absent, free⟩]
  simp [System.saving, System.setSave, Database.lock]

/-- A transaction that ends without a commit leaves the tables and gives back its rows. -/
private theorem step_failSave_saving {call : SaveCall Payload} (inside : call.inFlight = some event)
    (held : HeldBy (.save request) locks) :
    step codec config (s.saving request call locks outboxSeq) (.failSave request event) =
      some (s.saving request (.refused event .store) (fun _ => none) outboxSeq) := by
  have inFlight : ((s.saving request call locks outboxSeq).saves request).inFlight = some event := by
    rw [show (s.saving request call locks outboxSeq).saves request = call from
      Function.update_self ..]
    exact inside
  rw [step, if_pos inFlight, Database.unlock_of_heldBy _ held]
  simp [System.saving, System.setSave]

private theorem step_rejectDuplicate_saving (present : s.db.event? event.id ≠ none) :
    step codec config (s.saving request (.begun event payload) locks outboxSeq)
        (.rejectDuplicate request event payload) =
      some (s.saving request (.refused event .eventAlreadyExists) locks outboxSeq) := by
  rw [step, if_pos ⟨Function.update_self .., present⟩]
  simp [System.saving, System.setSave]

end Statements

/-! ### A whole request -/

section Requests

variable [DecidableEq Payload] (codec : Codec Payload) (config : Config)

/-- From `now` on, a run of the request ends with the database `db`; the clock and the other requests
are as they were in `s`. -/
def Finishes (s : System Payload) (request : Nat) (db : Database) (now : System Payload) : Prop :=
  ∃ actions final, run (step codec config) now actions = some final ∧ final.db = db ∧
    final.clock = s.clock ∧ ∀ other ≠ request, final.saves other = s.saves other

variable {codec config} {s : System Payload} {request : Nat}

theorem Finishes.of_step {db : Database} {before after : System Payload} {action : Action Payload}
    (taken : step codec config before action = some after)
    (rest : Finishes codec config s request db after) :
    Finishes codec config s request db before := by
  obtain ⟨actions, final, ran, ends⟩ := rest
  exact ⟨action :: actions, final, (run_cons taken actions).trans ran, ends⟩

/-- The request is refused and no row is locked. -/
theorem Finishes.refused (quiet : s.db.locks = fun _ => none) (call : SaveCall Payload)
    (outboxSeq : Nat) :
    Finishes codec config s request { s.db with outboxSeq := outboxSeq }
      (s.saving request call (fun _ => none) outboxSeq) := by
  refine ⟨[], _, rfl, ?_, rfl, ?_⟩
  · simp [System.saving, quiet]
  · intro other apart
    simp [System.saving, apart]

/-- A commit that takes effect makes both rows visible and gives back the locks, whether its answer
arrives or not. -/
theorem Finishes.committed {event : Event Payload} {payload : String} {now : Time}
    {outboxId outboxSeq : Nat} {outcome : Outcome} (effective : outcome.Effective)
    {locks : RowRef → Option Owner} (quiet : s.db.locks = fun _ => none)
    (held : HeldBy (.save request) locks) :
    Finishes codec config s request
      ({ s.db with outboxSeq := outboxSeq }.commitSave event payload now outboxId)
      (s.saving request (.insertedOutbox event payload now outboxId) locks outboxSeq) := by
  have committed : step codec config
      (s.saving request (.insertedOutbox event payload now outboxId) locks outboxSeq)
      (.commitSave request event payload now outboxId outcome) = some _ :=
    if_pos ⟨Function.update_self .., effective⟩
  refine .of_step committed ⟨[], _, rfl, ?_, rfl, ?_⟩
  · have given := Database.unlock_of_heldBy
      ((s.saving request (.insertedOutbox event payload now outboxId) locks outboxSeq).db.commitSave
        event payload now outboxId) held
    simp only [System.setSave, given, ← quiet]
    rfl
  · intro other apart
    simp [System.setSave, System.saving, apart]

/-- The statements of a request that has found its id free. -/
theorem insert_run {answers : SaveAnswers} {event : Event Payload} {payload : String}
    (quiet : s.db.locks = fun _ => none) (absent : s.db.event? event.id = none)
    (sampled : answers.now ≤ s.clock) :
    Finishes codec config s request (match answers.insertOutbox with
      | some cause => (some (SaveFailure.insertOutbox cause), s.db)
      | none =>
          if s.db.outboxFor? event.id ≠ none then (some .outboxTaken, s.db)
          else
            match answers.commit with
            | .ok => (none, s.db.saved event payload answers.now)
            | .failed => (some .commit, { s.db with outboxSeq := s.db.outboxSeq + 1 })
            | .lost => (some .commit, s.db.saved event payload answers.now)).2
      (s.saving request (.begun event payload) (fun _ => none) s.db.outboxSeq) := by
  have unowned : HeldBy (.save request) fun _ => none := fun _ => Or.inl rfl
  have holdsEvent := unowned.lock (.newEvent event.id)
  have holdsBoth := holdsEvent.lock (.outbox event.id)
  refine .of_step (step_insertEvent_saving sampled absent rfl) ?_
  have aborted : Finishes codec config s request s.db
      (s.saving request (.insertedEvent event payload answers.now)
        (Function.update (fun _ => none) (.newEvent event.id) (some (.save request)))
        s.db.outboxSeq) :=
    .of_step (step_failSave_saving rfl holdsEvent) (.refused quiet _ _)
  cases answers.insertOutbox with
  | some cause => exact aborted
  | none =>
      simp only
      split
      · exact aborted
      · rename_i free
        refine .of_step (step_insertOutbox_saving (not_not.mp free) (by simp)) ?_
        cases commit : answers.commit with
        | ok => exact .committed Outcome.effective_ok quiet holdsBoth
        | failed => exact .of_step (step_failSave_saving rfl holdsBoth) (.refused quiet _ _)
        | lost => exact .committed (by decide : Outcome.lost.Effective) quiet holdsBoth

/-- The statements of a valid request. -/
theorem save_run {submission : Submission} {event : Event Payload}
    (found : submission.event? codec = some event) (quiet : s.db.locks = fun _ => none)
    (idle : s.saves request = .idle) (sampled : submission.answers.now ≤ s.clock) :
    Finishes codec config s request
      (saveQueuedWithOutbox codec submission.answers event s.db).2 s := by
  obtain ⟨decoded, bodyDecodes, checked⟩ := Option.bind_eq_some_iff.mp found
  obtain ⟨body, hasBody, decodes⟩ := Option.bind_eq_some_iff.mp bodyDecodes
  split at checked
  · cases checked
  rename_i valid
  obtain ⟨hasId, hasType⟩ := not_or.mp valid
  have free : (s.saves request).Free := by
    rw [idle]
    trivial
  have begins : ∀ payload, codec.marshal event.payload = some payload →
      step codec config s (.submit request body event.requestId event payload) =
        some (s.saving request (.begun event payload) (fun _ => none) s.db.outboxSeq) := by
    intro payload marshalled
    cases checked
    rw [← quiet]
    exact step_submit_saving free (by rw [decodes]; rfl) hasId hasType marshalled
  unfold saveQueuedWithOutbox
  cases marshalled : codec.marshal event.payload with
  | none => exact ⟨[], s, rfl, rfl, rfl, fun _ _ => rfl⟩
  | some payload =>
      refine .of_step (begins payload marshalled) ?_
      have early : Finishes codec config s request s.db
          (s.saving request (.begun event payload) (fun _ => none) s.db.outboxSeq) :=
        .of_step (step_failSave_saving rfl fun _ => Or.inl rfl) (.refused quiet _ _)
      cases submission.answers.beginTx with
      | some cause => exact early
      | none =>
          cases submission.answers.insertEvent with
          | some cause => exact early
          | none =>
              cases submission.answers.rowsAffected with
              | some cause => exact early
              | none =>
                  simp only
                  split
                  · rename_i present
                    exact .of_step (step_rejectDuplicate_saving present) (.refused quiet _ _)
                  · rename_i absent
                    exact insert_run quiet (not_not.mp absent) sampled

omit [DecidableEq Payload] in
/-- A request that has returned holds no rows. -/
theorem locks_post (submission : Submission) (db : Database) :
    (post codec submission db).db.locks = db.locks := by
  have saves : ∀ event, (saveQueuedWithOutbox codec submission.answers event db).2.locks =
      db.locks := by
    intro event
    unfold saveQueuedWithOutbox
    repeat' split
    all_goals rfl
  unfold post requestIDMiddleware createEventHandler
  simp only
  split
  · rfl
  · split
    · rfl
    · split
      · rfl
      · rename_i decoded _ _ _
        have kept := saves { decoded with
          requestId := if submission.header = "" then newRequestID submission.random
            else submission.header }
        split
        · rename_i saved
          rwa [saved] at kept
        · rename_i saved
          rwa [saved] at kept
        · rename_i saved
          rwa [saved] at kept

/-- A request alone runs through the service and leaves the database that `post` leaves. -/
theorem post_run {submission : Submission} (quiet : s.db.locks = fun _ => none)
    (idle : s.saves request = .idle) (sampled : submission.answers.now ≤ s.clock) :
    Finishes codec config s request (post codec submission s.db).db s := by
  cases found : submission.event? codec with
  | some event =>
      rw [(post_of_event codec submission s.db found).2]
      exact save_run found quiet idle sampled
  | none =>
      have same : (post codec submission s.db).db = s.db := by
        unfold post requestIDMiddleware createEventHandler
        cases body : submission.body.bind codec.unmarshalEvent with
        | none => rfl
        | some decoded =>
            simp only
            split
            · rfl
            · split
              · rfl
              · rename_i hasId hasType
                simp [Submission.event?, body, hasId, hasType] at found
      rw [same]
      exact ⟨[], s, rfl, rfl, rfl, fun _ _ => rfl⟩

/-- Requests one after the other, with numbers that have not been used. -/
theorem serve_from_run (submissions : List Submission) (first : Nat)
    (quiet : s.db.locks = fun _ => none) (idle : ∀ request ≥ first, s.saves request = .idle) :
    ∃ actions final, run (step codec config) s actions = some final ∧
      final.db = serve codec submissions s.db := by
  induction submissions generalizing s first with
  | nil => exact ⟨[], s, rfl, rfl⟩
  | cons submission submissions inductionHypothesis =>
      -- time passes up to the `now` of the request
      let waited : System Payload :=
        { s with clock := s.clock + (submission.answers.now - s.clock).toNat }
      have waits : step codec config s (.tick (submission.answers.now - s.clock).toNat) =
          some waited := rfl
      have sampled : submission.answers.now ≤ waited.clock := by
        have later := Int.self_le_toNat (submission.answers.now - s.clock)
        exact Int.le_add_of_sub_left_le later
      have posted : Finishes codec config waited first (post codec submission s.db).db waited :=
        post_run quiet (idle first (Nat.le_refl _)) sampled
      obtain ⟨actions, middle, ran, db, _, others⟩ := posted
      have quietAfter : middle.db.locks = fun _ => none := by
        rw [db, locks_post, quiet]
      have idleAfter : ∀ request ≥ first + 1, middle.saves request = .idle := by
        intro request later
        rw [others request (by omega)]
        exact idle request (by omega)
      obtain ⟨more, final, ranOn, ends⟩ := inductionHypothesis (first + 1) quietAfter idleAfter
      refine ⟨_, final, run_trans ((run_cons waits actions).trans ran) ranOn, ?_⟩
      rw [ends, db]
      rfl

end Requests

end WebhookProcessor
