/-
Module: WebhookProcessor.Proofs.Deliveries
Layer: Proofs
Purpose: How `handleDelivery` settles a delivery.  `Course` lists every sequence of calls that one
  call of `handleDelivery` can make; `handleDelivery_course` shows that there is no other.  From
  the courses: exactly one settle call, an `Ack` only for an event that was final at some moment of
  the call, a `Nack` without requeue only for an event without a row, and no run of the processor
  without a claim.
Trusted boundary: none
Main exports: Course, handleDelivery_course, Finished, Missing, handleDelivery_settles
-/
import WebhookProcessor.Proofs.RetryLoop
import WebhookProcessor.Proofs.StoreViews

namespace WebhookProcessor

variable {Payload : Type}

/-! ### The courses of a call -/

/-- Calls of the processor and sleeps between them. -/
def Attempts (event : Event Payload) (entries : List (Entry Payload)) : Prop :=
  ∀ entry ∈ entries, entry.call = .process event ∨ ∃ duration, entry.call = .sleep duration

/-- `handleDelivery` after `processEventWithRetry`. -/
def settleFor (terminalPersisted : Bool) : SettleCall :=
  if terminalPersisted then .ack else .nack true

/-- What follows the attempts after a successful claim, up to the settle call. -/
inductive Processing (event : Event Payload) : List (Entry Payload) → Prop where
  | processed {attempts : Int64} {ok : Bool} {after : Database}
      (stored : ok = true → after.status? event.id = some .processed) :
      Processing event
        [{ call := .markProcessed event.id attempts ok, after := after },
          { call := .settle (settleFor ok), after := after }]
  | failed {attempts : Int64} {error : String} {ok : Bool} {added after : Database}
      (stored : ok = true → after.status? event.id = some .failed) :
      Processing event
        [{ call := .addDeadLetter event error attempts true, after := added },
          { call := .markFailed event.id attempts error ok, after := after },
          { call := .settle (settleFor ok), after := after }]
  | addFailed {attempts : Int64} {error : String} {added : Database} :
      Processing event
        [{ call := .addDeadLetter event error attempts false, after := added },
          { call := .settle (settleFor false), after := added }]
  | fellThrough (after : Database) :
      Processing event [{ call := .settle (settleFor false), after := after }]

/-- Every sequence of calls of one `handleDelivery`, started with the database `db`. -/
inductive Course (config : LoadedConfig) (answers : Answers) (event : Event Payload)
    (db : Database) : List (Entry Payload) → Prop where
  | updateFailed {after : Database} :
      Course config answers event db
        [{ call := .claimUpdate event.id none, after := after },
          { call := .settle (.nack true), after := after }]
  | selectFailed {unclaimed after : Database} :
      Course config answers event db
        [{ call := .claimUpdate event.id (some false), after := unclaimed },
          { call := .claimSelect event.id none, after := after },
          { call := .settle (.nack true), after := after }]
  | final {unclaimed after : Database} {status : EventStatus}
      (ended : status = .processed ∨ status = .failed)
      (stored : after.status? event.id = some status) :
      Course config answers event db
        [{ call := .claimUpdate event.id (some false), after := unclaimed },
          { call := .claimSelect event.id (some (some status)), after := after },
          { call := .settle .ack, after := after }]
  | inProgress {unclaimed after : Database} {status : EventStatus} {delay : Duration}
      (unfinished : status = .queued ∨ status = .processing) :
      Course config answers event db
        [{ call := .claimUpdate event.id (some false), after := unclaimed },
          { call := .claimSelect event.id (some (some status)), after := after },
          { call := .sleep delay, after := after },
          { call := .settle (.nack true), after := after }]
  | missing {unclaimed after : Database} (absent : after.event? event.id = none) :
      Course config answers event db
        [{ call := .claimUpdate event.id (some false), after := unclaimed },
          { call := .claimSelect event.id (some none), after := after },
          { call := .settle (.nack false), after := after }]
  | claimed {after : Database} {attempts ending : List (Entry Payload)}
      (updated : answers.claimUpdate = .ok)
      (matched : db.ClaimMatches event.id config.processingLease.toInt answers.claimedAt)
      (attempted : Attempts event attempts) (processing : Processing event ending) :
      Course config answers event db
        ({ call := .claimUpdate event.id (some true), after := after } :: (attempts ++ ending))

/-! ### The retry loop -/

section Loop

variable (codec : Codec Payload) (config : LoadedConfig) (answers : Answers)
  (event : Event Payload)

/-- `later` differs from `earlier` by calls of the processor and sleeps only. -/
def Attempted (earlier later : Journal Payload) : Prop :=
  later.db = earlier.db ∧ ∃ added, later.log = earlier.log ++ added ∧ Attempts event added

variable {event}

theorem Attempted.trans {first second third : Journal Payload} (one : Attempted event first second)
    (two : Attempted event second third) : Attempted event first third := by
  obtain ⟨sameOne, addedOne, logOne, attemptsOne⟩ := one
  obtain ⟨sameTwo, addedTwo, logTwo, attemptsTwo⟩ := two
  refine ⟨sameTwo.trans sameOne, addedOne ++ addedTwo, ?_, ?_⟩
  · rw [logTwo, logOne, List.append_assoc]
  · intro entry member
    rcases List.mem_append.mp member with early | late
    · exact attemptsOne entry early
    · exact attemptsTwo entry late

theorem attempted_refl (journal : Journal Payload) : Attempted event journal journal :=
  ⟨rfl, [], (List.append_nil _).symm, fun _ member => by cases member⟩

theorem attempted_runProcessor (attempt : Int64) (journal : Journal Payload) :
    Attempted event journal (runProcessor answers event attempt journal) := by
  refine ⟨rfl, [{ call := .process event, after := journal.db }], rfl, ?_⟩
  intro entry member
  rw [List.mem_singleton.mp member]
  exact Or.inl rfl

theorem attempted_retryLater (attempt : Int64) (journal : Journal Payload) :
    Attempted event journal (retryLater config attempt journal) := by
  refine ⟨rfl, [{ call := .sleep (config.retryBackoff attempt), after := journal.db }], rfl, ?_⟩
  intro entry member
  rw [List.mem_singleton.mp member]
  exact Or.inr ⟨_, rfl⟩

/-- The loop makes attempts and then succeeds, gives up, or runs off its end. -/
theorem attemptLoop_cases (rounds : Nat) (attempt : Int64) (journal : Journal Payload) :
    ∃ reached, Attempted event journal reached ∧
      ((∃ last, attemptLoop codec config answers event rounds attempt journal =
          ((succeed answers event last reached).1, some (succeed answers event last reached).2)) ∨
        (∃ last error, attemptLoop codec config answers event rounds attempt journal =
          ((giveUp codec answers event last error reached).1,
            some (giveUp codec answers event last error reached).2)) ∨
        attemptLoop codec config answers event rounds attempt journal = (reached, none)) := by
  induction rounds generalizing attempt journal with
  | zero => exact ⟨journal, attempted_refl journal, Or.inr (Or.inr rfl)⟩
  | succ rounds inductionHypothesis =>
      rw [attemptLoop]
      by_cases inside : attempt ≤ config.maxRetries + 1
      · have called : Attempted event journal (runProcessor answers event attempt journal) :=
          attempted_runProcessor answers attempt journal
        simp only [if_pos inside]
        cases answered : answers.processor attempt with
        | none => exact ⟨_, called, Or.inl ⟨attempt, rfl⟩⟩
        | some error =>
            by_cases last : attempt = config.maxRetries + 1
            · simp only [if_pos last]
              exact ⟨_, called, Or.inr (Or.inl ⟨attempt, error, rfl⟩)⟩
            · simp only [if_neg last]
              obtain ⟨reached, later, ended⟩ := inductionHypothesis (attempt + 1)
                (retryLater config attempt (runProcessor answers event attempt journal))
              exact ⟨reached, (called.trans (attempted_retryLater config attempt _)).trans later,
                ended⟩
      · simp only [if_neg inside]
        exact ⟨journal, attempted_refl journal, Or.inr (Or.inr rfl)⟩

/-- `MarkProcessed` is one call; if it succeeds, the event is processed. -/
theorem markProcessed_execute (journal : Journal Payload) (answer : StoreAnswer) {id : EventId}
    (attempts : Int64) (present : journal.db.event? id ≠ none) :
    ∃ ok after, (ok = true → after.status? id = some .processed) ∧
      journal.markProcessed answer id attempts =
        (journal.execute (.markProcessed id attempts ok) after, ok) := by
  refine ⟨_, _, ?_, rfl⟩
  intro ok
  rw [if_pos (by rw [of_decide_eq_true ok]; exact Outcome.effective_ok)]
  exact Database.status?_markProcessed (answer.others.keepsEvents _ _ present) _ _

/-- `MarkFailed` is one call; if it succeeds, the event is failed. -/
theorem markFailed_execute (journal : Journal Payload) (answer : StoreAnswer) {id : EventId}
    (attempts : Int64) (error : String) (present : journal.db.event? id ≠ none) :
    ∃ ok after, (ok = true → after.status? id = some .failed) ∧
      journal.markFailed answer id attempts error =
        (journal.execute (.markFailed id attempts error ok) after, ok) := by
  refine ⟨_, _, ?_, rfl⟩
  intro ok
  rw [if_pos (by rw [of_decide_eq_true ok]; exact Outcome.effective_ok)]
  exact Database.status?_markFailed (answer.others.keepsEvents _ _ present) _ _ _

/-- `Add` is one call, and it leaves every event in place. -/
theorem addDeadLetter_execute (journal : Journal Payload) (answer : StoreAnswer) (error : String)
    (attempts : Int64) (present : journal.db.event? event.id ≠ none) :
    ∃ ok added, added.event? event.id ≠ none ∧
      journal.addDeadLetter codec answer event error attempts =
        (journal.execute (.addDeadLetter event error attempts ok) added, ok) := by
  have kept := answer.others.keepsEvents _ _ present
  unfold Journal.addDeadLetter
  cases codec.marshal event.payload with
  | none => exact ⟨_, _, kept, rfl⟩
  | some payload =>
      refine ⟨_, _, ?_, rfl⟩
      split
      · exact kept
      · exact kept

theorem succeed_processing (attempt : Int64) {journal : Journal Payload}
    (present : journal.db.event? event.id ≠ none) :
    ∃ ending, Processing event ending ∧
      ((succeed answers event attempt journal).1.record
        (.settle (settleFor (succeed answers event attempt journal).2.2))).log =
          journal.log ++ ending := by
  obtain ⟨ok, after, stored, marked⟩ :=
    markProcessed_execute (journal.withMetrics Metrics.incEventsProcessed) answers.markProcessed
      attempt present
  rw [succeed, marked]
  exact ⟨_, .processed stored, List.append_assoc _ _ _⟩

theorem giveUp_processing (attempt : Int64) (error : String) {journal : Journal Payload}
    (present : journal.db.event? event.id ≠ none) :
    ∃ ending, Processing event ending ∧
      ((giveUp codec answers event attempt error journal).1.record
        (.settle (settleFor (giveUp codec answers event attempt error journal).2.2))).log =
          journal.log ++ ending := by
  have joined : ∀ (log : List (Entry Payload)) (first second third : Entry Payload),
      log ++ [first] ++ [second] ++ [third] = log ++ [first, second, third] := by
    intro log first second third
    simp
  obtain ⟨ok, added, kept, executed⟩ := addDeadLetter_execute codec
    (journal.withMetrics Metrics.incEventsFailedPermanent) answers.add error attempt present
  rw [giveUp, executed]
  cases ok with
  | false => exact ⟨_, .addFailed, List.append_assoc _ _ _⟩
  | true =>
      obtain ⟨ok, after, stored, marked⟩ := markFailed_execute
        ((journal.withMetrics Metrics.incEventsFailedPermanent).execute
          (.addDeadLetter event error attempt true) added) answers.markFailed attempt error kept
      simp only [if_true, marked]
      refine ⟨_, ?_, joined _ _ _ _⟩
      exact .failed stored

/-- `processEventWithRetry` and the settle call after it, on a claimed event. -/
theorem processEventWithRetry_processing {journal : Journal Payload}
    (present : journal.db.event? event.id ≠ none) :
    ∃ attempts ending, Attempts event attempts ∧ Processing event ending ∧
      ((processEventWithRetry codec config answers event journal).1.record
        (.settle (settleFor (processEventWithRetry codec config answers event journal).2.2))).log =
          journal.log ++ (attempts ++ ending) := by
  obtain ⟨reached, ⟨sameDb, attempts, logged, attempted⟩, ended⟩ :=
    attemptLoop_cases codec config answers (config.maxRetries + 1).toInt.toNat 1 journal
  rw [← sameDb] at present
  rw [processEventWithRetry]
  rcases ended with ⟨last, ended⟩ | ⟨last, error, ended⟩ | ended
  · obtain ⟨ending, processing, log⟩ := succeed_processing answers last present
    refine ⟨attempts, ending, attempted, processing, ?_⟩
    rw [ended, ← List.append_assoc, ← logged]
    exact log
  · obtain ⟨ending, processing, log⟩ := giveUp_processing codec answers last error present
    refine ⟨attempts, ending, attempted, processing, ?_⟩
    rw [ended, ← List.append_assoc, ← logged]
    exact log
  · refine ⟨attempts, _, attempted, .fellThrough reached.db, ?_⟩
    rw [ended, ← List.append_assoc, ← logged]
    rfl

/-! ### The whole call -/

theorem event?_claimEvent_ne_none {db : Database} {id : EventId} {lease now : Time}
    (matched : db.ClaimMatches id lease now) : (db.claimEvent id lease now).event? id ≠ none := by
  obtain ⟨row, found, _⟩ := db.claimMatches_iff.mp matched
  simp [Database.event?_claimEvent, found]

section Claim

variable {config} {answers}

theorem claimForProcessing_claimed {journal : Journal Payload} {id : EventId}
    (updated : answers.claimUpdate = .ok)
    (matched : journal.db.ClaimMatches id config.processingLease.toInt answers.claimedAt) :
    journal.claimForProcessing config answers id =
      (journal.execute (.claimUpdate id (some true))
        (journal.db.claimEvent id config.processingLease.toInt answers.claimedAt),
        some .claimed) := by
  unfold Journal.claimForProcessing
  simp [updated, matched, Outcome.effective_ok]

theorem claimForProcessing_unmatched {journal : Journal Payload} {id : EventId}
    (updated : answers.claimUpdate = .ok)
    (unmatched : ¬ journal.db.ClaimMatches id config.processingLease.toInt answers.claimedAt) :
    ∃ unclaimed, journal.claimForProcessing config answers id =
      (journal.execute (.claimUpdate id (some false)) unclaimed).readClaimStatus answers id := by
  unfold Journal.claimForProcessing
  simp only [if_pos updated, unmatched, decide_false, Bool.false_eq_true, if_false]
  exact ⟨_, rfl⟩

theorem claimForProcessing_error {journal : Journal Payload} {id : EventId}
    (refused : answers.claimUpdate ≠ .ok) :
    ∃ after, journal.claimForProcessing config answers id =
      (journal.execute (.claimUpdate id none) after, none) := by
  unfold Journal.claimForProcessing
  simp only [if_neg refused]
  exact ⟨_, rfl⟩

end Claim

variable (event) in
/-- `handleDelivery` makes one of the courses. -/
theorem handleDelivery_course (db : Database) (metrics : Metrics) :
    Course config answers event db
      (handleDelivery codec config answers event (Journal.start db metrics)).log := by
  rw [handleDelivery]
  by_cases updated : answers.claimUpdate = .ok
  · by_cases matched :
      (Journal.start db metrics : Journal Payload).db.ClaimMatches event.id
        config.processingLease.toInt answers.claimedAt
    · have present : ((Journal.start db metrics : Journal Payload).execute
          (.claimUpdate event.id (some true)) (db.claimEvent event.id
            config.processingLease.toInt answers.claimedAt)).db.event? event.id ≠ none :=
        event?_claimEvent_ne_none matched
      rw [claimForProcessing_claimed updated matched]
      obtain ⟨attempts, ending, attempted, processing, log⟩ :=
        processEventWithRetry_processing codec config answers present
      apply (congrArg (Course config answers event db) log).mpr
      show Course config answers event db (_ :: (attempts ++ ending))
      exact .claimed updated matched attempted processing
    · obtain ⟨unclaimed, claim⟩ := claimForProcessing_unmatched updated matched
      rw [claim, Journal.readClaimStatus]
      by_cases read : answers.claimSelect = .ok
      · simp only [if_pos read, Journal.db_execute]
        cases stored : (answers.between unclaimed).status? event.id with
        | none => exact .missing (Option.map_eq_none_iff.mp stored)
        | some status =>
            cases status with
            | queued => exact .inProgress (Or.inl rfl)
            | processing => exact .inProgress (Or.inr rfl)
            | processed => exact .final (Or.inl rfl) stored
            | failed => exact .final (Or.inr rfl) stored
      · simp only [if_neg read]
        exact .selectFailed
  · obtain ⟨after, claim⟩ := claimForProcessing_error updated
    rw [claim]
    exact .updateFailed

end Loop

/-! ### Settlement -/

/-- The entry shows the event final at that moment: read by the SELECT, or written by the call's own
successful mark, where `MarkFailed` follows a successful `Add`. -/
def Entry.ShowsFinal (entry : Entry Payload) (event : Event Payload)
    (before : List (Entry Payload)) : Prop :=
  match entry.call with
  | .claimSelect id (some (some status)) =>
      id = event.id ∧ (status = .processed ∨ status = .failed) ∧
        entry.after.status? event.id = some status
  | .markProcessed id _ true => id = event.id ∧ entry.after.status? event.id = some .processed
  | .markFailed id attempts error true =>
      id = event.id ∧ entry.after.status? event.id = some .failed ∧
        ∃ add ∈ before, add.call = .addDeadLetter event error attempts true
  | _ => False

/-- At some moment of the call the stored status of the event was processed or failed. -/
def Finished (event : Event Payload) (log : List (Entry Payload)) : Prop :=
  ∃ before entry rest, log = before ++ entry :: rest ∧ entry.ShowsFinal event before

/-- The SELECT found no row of the event. -/
def Missing (event : Event Payload) (log : List (Entry Payload)) : Prop :=
  ∃ entry ∈ log, entry.call = .claimSelect event.id (some none) ∧
    entry.after.event? event.id = none

/-- The settle calls of a log. -/
def settlements (log : List (Entry Payload)) : List SettleCall :=
  log.filterMap fun entry => entry.call.settle?

/-- There is one settle call, and it fits what the log shows about the event. -/
def Settled (event : Event Payload) (log : List (Entry Payload)) : Prop :=
  (settlements log = [.ack] ∧ Finished event log) ∨
    (settlements log = [.nack false] ∧ Missing event log ∧ ¬ Finished event log) ∨
    (settlements log = [.nack true] ∧ ¬ Missing event log ∧ ¬ Finished event log)

section Settlement

variable {event : Event Payload} {log attempts ending : List (Entry Payload)}

/-- The call settles nothing and shows neither a final event nor a missing one. -/
def WorkerCall.Neutral : WorkerCall Payload → Prop
  | .claimUpdate _ _ | .claimSelect _ none | .process _ | .sleep _ => True
  | .claimSelect _ (some (some status)) => status = .queued ∨ status = .processing
  | .markProcessed _ _ ok => ok = false
  | .addDeadLetter _ _ _ _ => True
  | .markFailed _ _ _ ok => ok = false
  | .claimSelect _ (some none) | .settle _ => False

theorem WorkerCall.Neutral.settle?_eq_none {call : WorkerCall Payload} (neutral : call.Neutral) :
    call.settle? = none := by
  cases call with
  | settle call => exact neutral.elim
  | _ => rfl

theorem WorkerCall.Neutral.not_showsFinal {entry : Entry Payload} (neutral : entry.call.Neutral)
    (before : List (Entry Payload)) : ¬ entry.ShowsFinal event before := by
  obtain ⟨call, after⟩ := entry
  intro shown
  cases call with
  | claimSelect id status =>
      match status, neutral, shown with
      | none, _, shown => exact shown
      | some (some status), neutral, ⟨_, final, _⟩ =>
          rcases neutral with rfl | rfl
          · rcases final with final | final <;> cases final
          · rcases final with final | final <;> cases final
  | markProcessed id attempts ok =>
      cases ok with
      | false => exact shown
      | true => cases neutral
  | markFailed id attempts error ok =>
      cases ok with
      | false => exact shown
      | true => cases neutral
  | _ => exact shown

/-- A log that ends with a `Nack` with requeue and is neutral otherwise. -/
theorem settled_of_neutral {after : Database} (neutral : ∀ entry ∈ log, entry.call.Neutral) :
    Settled event (log ++ [{ call := .settle (.nack true), after := after }]) := by
  refine Or.inr (Or.inr ⟨?_, ?_, ?_⟩)
  · have silent : settlements log = [] :=
      List.filterMap_eq_nil_iff.mpr fun entry member => (neutral entry member).settle?_eq_none
    rw [settlements, List.filterMap_append]
    exact congrArg (· ++ [SettleCall.nack true]) silent
  · rintro ⟨entry, member, called, _⟩
    rcases List.mem_append.mp member with early | last
    · have missed := neutral entry early
      rw [called] at missed
      exact missed
    · rw [List.mem_singleton.mp last] at called
      cases called
  · rintro ⟨before, entry, rest, split, shown⟩
    have member : entry ∈ log ++ [{ call := .settle (.nack true), after := after }] := by
      rw [split]
      simp
    rcases List.mem_append.mp member with early | last
    · exact (neutral entry early).not_showsFinal before shown
    · rw [List.mem_singleton.mp last] at shown
      exact shown

theorem neutral_concat (neutral : ∀ entry ∈ log, entry.call.Neutral) {call : WorkerCall Payload}
    {after : Database} (last : call.Neutral) :
    ∀ entry ∈ log ++ [{ call := call, after := after }], entry.call.Neutral :=
  List.forall_mem_append.mpr ⟨neutral, List.forall_mem_singleton.mpr last⟩

theorem settled_of_neutral_cons {after settled : Database}
    (neutral : ∀ entry ∈ log, entry.call.Neutral) {call : WorkerCall Payload}
    (last : call.Neutral) :
    Settled event
      (log ++ [{ call := call, after := after },
        { call := .settle (.nack true), after := settled }]) := by
  rw [List.append_cons]
  exact settled_of_neutral (neutral_concat neutral last)

/-- A log whose last call before the `Ack` shows the event final. -/
theorem settled_of_final {after : Database} {entry : Entry Payload}
    (neutral : ∀ earlier ∈ log, earlier.call.Neutral) (quiet : entry.call.settle? = none)
    (shown : entry.ShowsFinal event log) :
    Settled event (log ++ [entry, { call := .settle .ack, after := after }]) := by
  refine Or.inl ⟨?_, log, entry, _, rfl, shown⟩
  have silent : settlements log = [] :=
    List.filterMap_eq_nil_iff.mpr fun earlier member => (neutral earlier member).settle?_eq_none
  rw [settlements, List.filterMap_append]
  show settlements log ++ _ = _
  rw [silent, List.filterMap_cons, quiet]
  rfl

theorem Attempts.neutral (attempted : Attempts event attempts) :
    ∀ entry ∈ attempts, entry.call.Neutral := by
  intro entry member
  rcases attempted entry member with called | ⟨duration, called⟩
  · rw [called]
    trivial
  · rw [called]
    trivial

/-- What follows a claim settles the delivery. -/
theorem Processing.settled {claimed : Database} (attempted : Attempts event attempts)
    (processing : Processing event ending) :
    Settled event ({ call := .claimUpdate event.id (some true), after := claimed } ::
      (attempts ++ ending)) := by
  have earlier : ∀ entry ∈
      ({ call := .claimUpdate event.id (some true), after := claimed } : Entry Payload) :: attempts,
      entry.call.Neutral :=
    List.forall_mem_cons.mpr ⟨trivial, attempted.neutral⟩
  cases processing with
  | @processed last ok after stored =>
      cases ok with
      | true => exact settled_of_final earlier rfl ⟨rfl, stored rfl⟩
      | false => exact settled_of_neutral_cons earlier rfl
  | @failed last error ok added after stored =>
      have later : ∀ entry ∈ _ ++
          [({ call := .addDeadLetter event error last true, after := added } : Entry Payload)],
          entry.call.Neutral := neutral_concat earlier trivial
      rw [← List.cons_append, List.append_cons]
      cases ok with
      | true => exact settled_of_final later rfl ⟨rfl, stored rfl, _, List.mem_concat_self, rfl⟩
      | false => exact settled_of_neutral_cons later rfl
  | addFailed => exact settled_of_neutral_cons earlier trivial
  | fellThrough after => exact settled_of_neutral earlier

/-- Every course settles the delivery. -/
theorem Course.settled {config : LoadedConfig} {answers : Answers} {db : Database}
    (course : Course config answers event db log) : Settled event log := by
  have first : ∀ (claimed : Option Bool) (after : Database), ∀ entry ∈
      [({ call := .claimUpdate event.id claimed, after := after } : Entry Payload)],
      entry.call.Neutral := by
    intro claimed after entry member
    rw [List.mem_singleton.mp member]
    trivial
  cases course with
  | @updateFailed after => exact settled_of_neutral (first none after)
  | @selectFailed unclaimed after =>
      exact settled_of_neutral_cons (first (some false) unclaimed) trivial
  | @final unclaimed after status ended stored =>
      exact settled_of_final (first (some false) unclaimed) rfl ⟨rfl, ended, stored⟩
  | @inProgress unclaimed after status delay unfinished =>
      have read : (.claimSelect event.id (some (some status)) : WorkerCall Payload).Neutral :=
        unfinished
      exact settled_of_neutral_cons (neutral_concat (first (some false) unclaimed) read) trivial
  | @missing unclaimed after absent =>
      refine Or.inr (Or.inl ⟨rfl, ⟨_, List.mem_cons_of_mem _ List.mem_cons_self, rfl, absent⟩, ?_⟩)
      rintro ⟨before, entry, rest, split, shown⟩
      have member : entry ∈ before ++ entry :: rest := by simp
      rw [← split] at member
      simp only [List.mem_cons, List.not_mem_nil, or_false] at member
      rcases member with rfl | rfl | rfl
      all_goals exact shown
  | claimed _ _ attempted processing => exact processing.settled attempted

theorem Processing.processed?_eq_none (processing : Processing event ending) :
    ∀ entry ∈ ending, entry.call.processed? = none := by
  cases processing with
  | processed _ | failed _ | addFailed | fellThrough _ => simp [WorkerCall.processed?]

theorem not_process_of_silent (silent : ∀ entry ∈ log, entry.call.processed? = none)
    {entry : Entry Payload} (member : entry ∈ log) (processed : Event Payload) :
    entry.call ≠ .process processed := by
  intro called
  have none := silent entry member
  rw [called] at none
  cases none

/-- The processor runs only in the course of a claim. -/
theorem Course.claimed_of_process {config : LoadedConfig} {answers : Answers} {db : Database}
    (course : Course config answers event db log) {entry : Entry Payload} (member : entry ∈ log)
    {processed : Event Payload} (called : entry.call = .process processed) :
    processed = event ∧ answers.claimUpdate = .ok ∧
      db.ClaimMatches event.id config.processingLease.toInt answers.claimedAt := by
  cases course with
  | claimed updated matched attempted processing =>
      refine ⟨?_, updated, matched⟩
      rcases List.mem_cons.mp member with first | later
      · rw [first] at called
        cases called
      · rcases List.mem_append.mp later with attempt | ended
        · rcases attempted entry attempt with same | ⟨duration, slept⟩
          · rw [called] at same
            exact WorkerCall.process.inj same
          · rw [called] at slept
            cases slept
        · exact absurd called (not_process_of_silent processing.processed?_eq_none ended _)
  | updateFailed | selectFailed | final _ _ | inProgress _ | missing _ =>
      exact absurd called (not_process_of_silent (by simp [WorkerCall.processed?]) member _)

end Settlement

section

variable (codec : Codec Payload) (config : LoadedConfig) (answers : Answers)
  (event : Event Payload) (db : Database) (metrics : Metrics)

/-- `handleDelivery` settles its delivery exactly once: with `Ack` if and only if the event was seen
or made final, with `Nack` without requeue if and only if there is no such event, and with `Nack`
with requeue otherwise.  It runs the processor only after claiming the row. -/
theorem handleDelivery_settles :
    Settled event (handleDelivery codec config answers event (Journal.start db metrics)).log ∧
      ∀ entry ∈ (handleDelivery codec config answers event (Journal.start db metrics)).log,
        ∀ processed, entry.call = .process processed →
          processed = event ∧ answers.claimUpdate = .ok ∧
            db.ClaimMatches event.id config.processingLease.toInt answers.claimedAt := by
  have course := handleDelivery_course codec config answers event db metrics
  refine ⟨course.settled, ?_⟩
  intro entry member processed called
  exact course.claimed_of_process member called

end

end WebhookProcessor
