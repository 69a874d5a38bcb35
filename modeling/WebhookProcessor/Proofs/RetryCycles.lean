/-
Module: WebhookProcessor.Proofs.RetryCycles
Layer: Proofs
Purpose: What a retry scheduler achieves that is alone with the database.  A cycle attempts every item
  of its batch, and an item whose replay fails is put off beyond the cycle, so no dead letter holds up
  another one: those due by some time are attempted ten to a cycle, whichever replays fail.
Trusted boundary: none
Main exports: Database.dueLetters, Retried, retryLoop_retried, due_letters_attempted_in_turn
-/
import WebhookProcessor.Model.Calls
import WebhookProcessor.Model.RetryCycle
import WebhookProcessor.Proofs.RetryDelay
import WebhookProcessor.Proofs.SchedulerItems
import WebhookProcessor.Queueing.Deadlines

namespace WebhookProcessor

open Queueing

/-! ### The order of the claim -/

namespace DeadLetterRow

theorem RetriedBefore.trans {first second third : DeadLetterRow}
    (before : first.RetriedBefore second) (after : second.RetriedBefore third) :
    first.RetriedBefore third := by
  unfold RetriedBefore Time at *
  rcases before with earlier | ⟨same, least⟩
  · rcases after with later | ⟨sameLater, _⟩
    · exact .inl (by omega)
    · exact .inl (by omega)
  · rcases after with later | ⟨sameLater, leastLater⟩
    · exact .inl (by omega)
    · exact .inr ⟨by omega, String.le_trans least leastLater⟩

theorem RetriedBefore.total (first second : DeadLetterRow) :
    first.RetriedBefore second ∨ second.RetriedBefore first := by
  unfold RetriedBefore
  rcases lt_trichotomy (first.nextRetryAt.getD 0) (second.nextRetryAt.getD 0) with
    earlier | same | later
  · exact .inl (.inl earlier)
  · rcases String.le_total first.eventId second.eventId with least | greatest
    · exact .inl (.inr ⟨same, least⟩)
    · exact .inr (.inr ⟨same.symm, greatest⟩)
  · exact .inr (.inl later)

instance : IsTrans DeadLetterRow RetriedBefore := ⟨fun _ _ _ => RetriedBefore.trans⟩

instance : Std.Total RetriedBefore := ⟨RetriedBefore.total⟩

/-- Not to be retried by `time`: replayed, put off or without a date. -/
def Dormant (row : DeadLetterRow) (time : Time) : Prop :=
  row.replayedAt ≠ none ∨ ¬atOrBefore row.nextRetryAt time

theorem Dormant.not_retryable {row : DeadLetterRow} {time : Time} (dormant : row.Dormant time)
    (maxAttempts : Nat) : ¬row.Retryable maxAttempts time := by
  rintro ⟨open', due, _⟩
  rcases dormant with replayed | late
  · exact replayed open'
  · exact late due

/-- Due by some time, as a condition on the rows that are due by a later one. -/
theorem retryable_iff {row : DeadLetterRow} {maxAttempts : Nat} {time now : Time}
    (order : time ≤ now) :
    row.Retryable maxAttempts time ↔
      row.Retryable maxAttempts now ∧ row.nextRetryAt.getD 0 ≤ time := by
  unfold Retryable
  cases row.nextRetryAt with
  | none => simp [atOrBefore]
  | some date =>
      simp only [atOrBefore_some, Option.getD_some]
      unfold Time at *
      constructor
      · rintro ⟨unreplayed, due, left⟩
        exact ⟨⟨unreplayed, by omega, left⟩, due⟩
      · rintro ⟨⟨unreplayed, _, left⟩, due⟩
        exact ⟨unreplayed, due, left⟩

end DeadLetterRow

/-- The dead letters to be retried by `time`, in the order in which they are claimed. -/
def Database.dueLetters (db : Database) (maxAttempts : Nat) (time : Time) : List DeadLetterRow :=
  queueOf DeadLetterRow.RetriedBefore db.deadLetters.rows fun row =>
    decide (row.Retryable maxAttempts time)

theorem Database.retryCandidates_of_free {db : Database}
    (free : ∀ id, db.locks (.deadLetter id) = none) (limit maxAttempts : Nat) (now : Time) :
    db.retryCandidates limit maxAttempts now = (db.dueLetters maxAttempts now).take limit := by
  simp only [retryCandidates, dueLetters, queueOf, free, and_true]

theorem eventId_of_replayTx {db : Database} {id : EventId} {now : Time} {tx : ReplayTx}
    (begins : db.replayTx id now = .ok tx) : tx.eventId = id := by
  unfold Database.replayTx at begins
  split at begins
  · split at begins
    · cases begins
    · cases begins
      rfl
  · cases begins

/-! ### What the statements do to the dead letters -/

/-- The dead letters before and after some statements on `ids`: the rows of other events are as they
were, and no row becomes due by `time`. -/
structure Retried (time : Time) (ids : List EventId) (db later : Database) : Prop where
  locks : later.locks = db.locks
  letters : ∃ f : DeadLetterRow → DeadLetterRow,
    later.deadLetters.rows = db.deadLetters.rows.map f ∧
      ∀ row, (f row).eventId = row.eventId ∧ (row.eventId ∉ ids → f row = row) ∧
        (row.Dormant time → (f row).Dormant time)

namespace Retried

variable {time : Time} {db : Database}

theorem refl (ids : List EventId) (db : Database) : Retried time ids db db := by
  refine ⟨rfl, id, (List.map_id _).symm, ?_⟩
  intro row
  exact ⟨rfl, fun _ => rfl, id⟩

theorem trans {ids others : List EventId} {middle later : Database}
    (first : Retried time ids db middle) (second : Retried time others middle later) :
    Retried time (ids ++ others) db later := by
  obtain ⟨f, mapped, keeps⟩ := first.letters
  obtain ⟨g, mappedLater, keepsLater⟩ := second.letters
  refine ⟨second.locks.trans first.locks, g ∘ f, ?_, ?_⟩
  · rw [mappedLater, mapped, List.map_map]
  · intro row
    obtain ⟨sameId, unchanged, dormant⟩ := keeps row
    obtain ⟨sameIdLater, unchangedLater, dormantLater⟩ := keepsLater (f row)
    refine ⟨sameIdLater.trans sameId, ?_, fun before => dormantLater (dormant before)⟩
    intro apart
    have apartFirst : row.eventId ∉ ids := fun member => apart (List.mem_append_left _ member)
    have apartSecond : row.eventId ∉ others := fun member => apart (List.mem_append_right _ member)
    rw [Function.comp_apply, unchanged apartFirst] at *
    exact unchangedLater apartSecond

theorem mono {ids others : List EventId} {later : Database} (retried : Retried time ids db later)
    (subset : ids ⊆ others) : Retried time others db later := by
  obtain ⟨f, mapped, keeps⟩ := retried.letters
  refine ⟨retried.locks, f, mapped, ?_⟩
  intro row
  obtain ⟨sameId, unchanged, dormant⟩ := keeps row
  exact ⟨sameId, fun apart => unchanged fun member => apart (subset member), dormant⟩

/-- A statement that updates the rows of one event. -/
theorem of_update {id : EventId} {later : Database} {p : DeadLetterRow → Prop} [DecidablePred p]
    {f : DeadLetterRow → DeadLetterRow} (locks : later.locks = db.locks)
    (rows : later.deadLetters.rows =
      db.deadLetters.rows.map fun row => if row.eventId = id ∧ p row then f row else row)
    (sameId : ∀ row, (f row).eventId = row.eventId)
    (dormant : ∀ row, p row → row.Dormant time → (f row).Dormant time) :
    Retried time [id] db later := by
  refine ⟨locks, _, rows, ?_⟩
  intro row
  by_cases selected : row.eventId = id ∧ p row
  · rw [if_pos selected]
    exact ⟨sameId row, fun apart => absurd selected.1 (by simpa using apart),
      dormant row selected.2⟩
  · rw [if_neg selected]
    exact ⟨rfl, fun _ => rfl, fun before => before⟩

theorem commitReplay (db : Database) (tx : ReplayTx) (outboxSeq : Nat) :
    Retried time [tx.eventId] db ({ db with outboxSeq := outboxSeq }.commitReplay tx) := by
  refine of_update (p := fun _ => True) (f := fun row => row.markReplayed tx.now) ?_ ?_ ?_ ?_
  · rfl
  · simp [Database.commitReplay, Relational.Table.updateWhere]
  · exact fun _ => rfl
  · exact fun _ _ _ => .inl (Option.some_ne_none _)

/-- `ReplayDeadLetter`, whatever comes of it. -/
theorem replayDeadLetter (call : RetryCall) (db : Database) (id : EventId) :
    Retried time [id] db (call.replayDeadLetter db id).2 := by
  have replayed : ∀ after, db.replayDeadLetter id (call.replayedAt id) = .ok after →
      Retried time [id] db after := by
    intro after succeeds
    unfold Database.replayDeadLetter at succeeds
    split at succeeds
    · rename_i tx begins
      cases succeeds
      rw [← eventId_of_replayTx begins]
      exact commitReplay db tx _
    · cases succeeds
  unfold RetryCall.replayDeadLetter
  split
  · exact refl [id] db
  · exact refl [id] db
  · rename_i succeeds
    exact replayed _ succeeds
  · rename_i succeeds
    exact replayed _ succeeds

/-- A reschedule to a later time. -/
theorem rescheduleWithDelay (call : RetryCall) (db : Database) (id : EventId) (error : ReplayError)
    {delay : Duration} (later : time < call.rescheduledAt id + delay.toInt) :
    Retried time [id] db (call.rescheduleWithDelay db id error delay) := by
  unfold RetryCall.rescheduleWithDelay
  split
  · refine of_update (p := fun row => row.replayedAt = none)
      (f := fun row => row.reschedule error.message (call.rescheduledAt id + delay.toInt))
      ?_ ?_ ?_ ?_
    · rfl
    · rfl
    · exact fun _ => rfl
    · intro row _ _
      exact .inr (Int.not_le.mpr later)
  · exact refl [id] db

end Retried

/-! ### A cycle -/

section Cycle

variable {interval : Duration} {time : Time} {db : Database}

/-- The delays are positive, so a failed item is put off beyond the time of its reschedule. -/
theorem retryDelay_positive (positive : 0 < interval.toInt) (within : interval.toInt ≤ day.toInt)
    (attempt : Int64) (draw : Nat) :
    ∃ delay, retryDelay interval attempt draw = some delay ∧ 0 < delay.toInt := by
  obtain ⟨delay, drawn, base, _⟩ := retryDelay_within positive within attempt draw
  refine ⟨delay, drawn, ?_⟩
  have dayPositive : 0 < day.toInt := by decide
  have power : 0 < interval.toInt * 2 ^ (attempt.toInt - 1).toNat :=
    Int.mul_pos positive (pow_pos (by decide) _)
  have least : 0 < backoffBase interval.toInt attempt := lt_min power dayPositive
  omega

/-- The loop attempts every item. -/
theorem retryLoop_retried (positive : 0 < interval.toInt) (within : interval.toInt ≤ day.toInt)
    {call : RetryCall} (later : ∀ id, time ≤ call.rescheduledAt id)
    (items : List RetryableDeadLetterDetail) (db : Database) :
    ∃ attempts after, retryLoop interval call items db = some (attempts, after) ∧
      attempts.map RetryAttempt.item = items ∧
      Retried time (items.map RetryableDeadLetterDetail.eventId) db after := by
  induction items generalizing db with
  | nil => exact ⟨[], db, rfl, rfl, .refl [] db⟩
  | cons item items inductionHypothesis =>
      have replayed : Retried time [item.eventId] db _ :=
        .replayDeadLetter call db item.eventId
      rw [retryLoop]
      cases answer : call.replayDeadLetter db item.eventId with
      | mk error replayedDb =>
          rw [answer] at replayed
          cases error with
          | none =>
              obtain ⟨attempts, after, loops, attempted, rest⟩ := inductionHypothesis replayedDb
              refine ⟨{ item := item, failed := false } :: attempts, after, ?_, ?_,
                replayed.trans rest⟩
              · simp only [loops, Option.map_some]
              · simp only [List.map_cons, attempted]
          | some error =>
              obtain ⟨delay, drawn, delayed⟩ := retryDelay_positive positive within
                (Int64.ofNat item.replayAttempt) (call.draw item.eventId)
              have putOff : time < call.rescheduledAt item.eventId + delay.toInt := by
                have order := later item.eventId
                unfold Time at *
                omega
              have rescheduled :=
                Retried.rescheduleWithDelay call replayedDb item.eventId error putOff
              obtain ⟨attempts, after, loops, attempted, rest⟩ := inductionHypothesis
                (call.rescheduleWithDelay replayedDb item.eventId error delay)
              refine ⟨{ item := item, failed := true } :: attempts, after, ?_, ?_, ?_⟩
              · simp only [drawn, Option.bind_some, loops, Option.map_some]
              · simp only [List.map_cons, attempted]
              · apply ((replayed.trans rescheduled).trans rest).mono
                simp

variable {maxAttempts : Nat}

/-- The item that a claim of the row returns. -/
def DeadLetterRow.detail (row : DeadLetterRow) : RetryableDeadLetterDetail :=
  { eventId := row.eventId
    replayAttempt := row.replayAttempts + 1 }

theorem Database.letters_nodup (db : Database) : db.deadLetters.rows.Nodup := by
  refine db.deadLetters.unique.imp ?_
  rintro first second apart rfl
  exact apart rfl

/-- The rows after the claim, and after the loop over what it returned. -/
theorem letters_of_claim {now : Time} {ids : List EventId} {after : Database}
    (claimed : ids.Perm ((db.retryCandidates 10 maxAttempts now).map DeadLetterRow.eventId))
    (retried : Retried time ids (db.claimRetryableDeadLetterDetails 10 maxAttempts now).2 after) :
    ∃ f : DeadLetterRow → DeadLetterRow, after.deadLetters.rows = db.deadLetters.rows.map f ∧
      ∀ row ∈ db.deadLetters.rows,
        (row ∉ db.retryCandidates 10 maxAttempts now → f row = row) ∧
        (row ∈ db.retryCandidates 10 maxAttempts now → (f row).Dormant time) := by
  obtain ⟨f, mapped, keeps⟩ := retried.letters
  refine ⟨fun row => f (if row.eventId ∈ (db.retryCandidates 10 maxAttempts now).map
    DeadLetterRow.eventId then row.spend else row), ?_, ?_⟩
  · rw [mapped]
    exact List.map_map
  · intro row stored
    constructor
    · intro unclaimed
      have apart : row.eventId ∉ (db.retryCandidates 10 maxAttempts now).map
          DeadLetterRow.eventId := fun member =>
        unclaimed (db.mem_retryCandidates_of_eventId stored member)
      dsimp only
      rw [if_neg apart]
      exact (keeps row).2.1 fun member => apart (claimed.mem_iff.mp member)
    · intro candidate
      dsimp only
      rw [if_pos (List.mem_map_of_mem candidate)]
      exact (keeps row.spend).2.2 (.inr fun due => due)

/-- One cycle whose claim is answered takes the ten letters at the head of the queue. -/
theorem retry_due (positive : 0 < interval.toInt) (within : interval.toInt ≤ day.toInt)
    {call : RetryCall} (answered : call.claim = .ok) (order : time ≤ call.now)
    (later : ∀ id, time ≤ call.rescheduledAt id)
    (free : ∀ id, db.locks (.deadLetter id) = none) :
    ∃ attempts after, retry interval maxAttempts call db = some (attempts, after) ∧
      after.locks = db.locks ∧
      after.dueLetters maxAttempts time = (db.dueLetters maxAttempts time).drop 10 ∧
      ∀ row ∈ (db.dueLetters maxAttempts time).take 10, row.detail ∈ attempts.map (·.item) := by
  have candidates := Database.retryCandidates_of_free free 10 maxAttempts call.now
  have returned := call.order_perm
    (db.claimRetryableDeadLetterDetails 10 maxAttempts call.now).1
  obtain ⟨attempts, after, loops, attempted, retried⟩ := retryLoop_retried positive within later
    (call.order (db.claimRetryableDeadLetterDetails 10 maxAttempts call.now).1)
    (db.claimRetryableDeadLetterDetails 10 maxAttempts call.now).2
  have claimed : ((call.order (db.claimRetryableDeadLetterDetails 10 maxAttempts call.now).1).map
      RetryableDeadLetterDetail.eventId).Perm
        ((db.retryCandidates 10 maxAttempts call.now).map DeadLetterRow.eventId) := by
    refine (returned.map _).trans (List.Perm.of_eq ?_)
    simp [Database.claimRetryableDeadLetterDetails, Function.comp_def]
  obtain ⟨f, mapped, changes⟩ := letters_of_claim claimed retried
  have split : ∀ row : DeadLetterRow, decide (row.Retryable maxAttempts time) =
      (decide (row.Retryable maxAttempts call.now) && decide (row.nextRetryAt.getD 0 ≤ time)) := by
    intro row
    rw [← Bool.decide_and]
    exact decide_eq_decide.mpr (DeadLetterRow.retryable_iff order)
  have closed : ∀ first second : DeadLetterRow, first.RetriedBefore second →
      decide (second.nextRetryAt.getD 0 ≤ time) = true →
        decide (first.nextRetryAt.getD 0 ≤ time) = true := by
    intro first second before early
    rw [decide_eq_true_eq] at early ⊢
    unfold DeadLetterRow.RetriedBefore Time at *
    omega
  refine ⟨attempts, after, ?_, retried.locks, ?_, ?_⟩
  · simp only [retry, answered]
    exact loops
  · rw [Database.dueLetters, mapped]
    apply queue_after_batch db.letters_nodup split closed
    · intro row stored unclaimed
      rw [← Database.dueLetters, ← candidates] at unclaimed
      exact (changes row stored).1 unclaimed
    · intro row stored candidate
      rw [← Database.dueLetters, ← candidates] at candidate
      exact decide_eq_false (((changes row stored).2 candidate).not_retryable maxAttempts)
  · intro row member
    have early : row ∈ (db.dueLetters maxAttempts call.now).take 10 := by
      rw [Database.dueLetters, ← filter_take_queueOf split closed] at member
      exact List.mem_of_mem_filter member
    rw [← candidates] at early
    have item : row.detail ∈ (db.claimRetryableDeadLetterDetails 10 maxAttempts call.now).1 :=
      List.mem_map_of_mem early
    rw [attempted]
    exact returned.mem_iff.mpr item

/-- No dead letter holds up another one.  Of the dead letters that are to be retried by some time,
each cycle after that time whose claim is answered attempts the next ten, in the order of their
dates, whichever replays and reschedules fail; those it attempted are not to be retried by that
time any more. -/
theorem due_letters_attempted_in_turn (positive : 0 < interval.toInt)
    (within : interval.toInt ≤ day.toInt) (free : ∀ id, db.locks (.deadLetter id) = none)
    {calls : List RetryCall} (answered : ∀ call ∈ calls, call.claim ≠ .lost)
    (order : ∀ call ∈ calls, time ≤ call.now ∧ ∀ id, time ≤ call.rescheduledAt id) :
    ∃ attempts after, retryCycles interval maxAttempts calls db = some (attempts, after) ∧
      after.dueLetters maxAttempts time =
        (db.dueLetters maxAttempts time).drop (10 * calls.countP (·.claim = .ok)) ∧
      ∀ row ∈ (db.dueLetters maxAttempts time).take (10 * calls.countP (·.claim = .ok)),
        row.detail ∈ attempts.map (·.item) := by
  induction calls generalizing db with
  | nil =>
      refine ⟨[], db, rfl, by simp, ?_⟩
      intro row member
      simp at member
  | cons call calls inductionHypothesis =>
      obtain ⟨orderHere, orderLater⟩ := List.forall_mem_cons.mp order
      obtain ⟨answeredHere, answeredLater⟩ := List.forall_mem_cons.mp answered
      cases outcome : call.claim with
      | lost => exact absurd outcome answeredHere
      | failed =>
          obtain ⟨attempts, after, cycles, due, served⟩ :=
            inductionHypothesis free answeredLater orderLater
          refine ⟨attempts, after, ?_, ?_, ?_⟩
          · simp [retryCycles, retry, outcome, cycles]
          · simpa [List.countP_cons, outcome] using due
          · simpa [List.countP_cons, outcome] using served
      | ok =>
          obtain ⟨first, middle, cycle, locks, head, attempted⟩ :
              ∃ first middle, retry interval maxAttempts call db = some (first, middle) ∧ _ :=
            retry_due positive within outcome orderHere.1 orderHere.2 free
          obtain ⟨attempts, after, cycles, due, served⟩ :=
            inductionHypothesis (fun id => by rw [locks]; exact free id) answeredLater orderLater
          have counted : 10 * (call :: calls).countP (·.claim = .ok) =
              10 + 10 * calls.countP (·.claim = .ok) := by
            rw [List.countP_cons_of_pos (by simp [outcome]), Nat.mul_succ, Nat.add_comm]
          rw [counted]
          refine ⟨first ++ attempts, after, ?_, ?_, ?_⟩
          · simp [retryCycles, cycle, cycles]
          · rw [due, head, List.drop_drop]
          · intro row member
            rw [List.take_add, List.mem_append, ← head] at member
            rw [List.map_append, List.mem_append]
            exact member.imp (attempted row) (served row)

end Cycle

namespace Sample

/-- Eleven dead letters, one more than a batch. -/
def elevenDue : Database :=
  { Database.empty with
    deadLetters := (List.range 11).foldl (fun letters n => letters.insert
      (newDeadLetterRow { event with id := "evt-" ++ toString n } event.payload "boom" 1 n))
      Relational.Table.empty }

/-- A cycle in which every replay fails. -/
def failingCall (now : Time) : RetryCall :=
  { now := now
    claim := .ok
    order := fun items => items
    order_perm := fun items => List.Perm.refl items
    replay := fun _ => .failed
    replayedAt := fun _ => now
    storeError := fun _ => "connection refused"
    reschedule := fun _ => .ok
    rescheduledAt := fun _ => now
    draw := fun _ => 0 }

end Sample

/-- Ten failed replays in the first cycle do not keep the second one from the eleventh letter. -/
theorem due_letters_attempted_in_turn_of_failing_cycles :
    (Sample.elevenDue.dueLetters 3 20).length = 11 ∧
      ∃ attempts after,
        retryCycles (60 * second) 3 [Sample.failingCall 20, Sample.failingCall 21]
            Sample.elevenDue = some (attempts, after) ∧
          after.dueLetters 3 20 = [] ∧
          ∀ row ∈ Sample.elevenDue.dueLetters 3 20, row.detail ∈ attempts.map (·.item) := by
  have eleven : (Sample.elevenDue.dueLetters 3 20).length = 11 := by decide +kernel
  have ran : ∃ attempts after,
      retryCycles (60 * second) 3 [Sample.failingCall 20, Sample.failingCall 21]
          Sample.elevenDue = some (attempts, after) ∧
        after.dueLetters 3 20 = (Sample.elevenDue.dueLetters 3 20).drop 20 ∧
        ∀ row ∈ (Sample.elevenDue.dueLetters 3 20).take 20, row.detail ∈ attempts.map (·.item) := by
    apply due_letters_attempted_in_turn
    · decide
    · decide
    · exact fun _ => rfl
    · simp [Sample.failingCall]
    · simp [Sample.failingCall, Time]
  obtain ⟨attempts, after, cycles, due, served⟩ := ran
  refine ⟨eleven, attempts, after, cycles, ?_, ?_⟩
  · rw [due]
    exact List.drop_eq_nil_of_le (by rw [eleven]; decide)
  · intro row member
    apply served row
    rw [List.take_of_length_le (by rw [eleven]; decide)]
    exact member

end WebhookProcessor
