/-
Module: WebhookProcessor.Proofs.Scrapes
Layer: Proofs
Purpose: What the counters and the scrapes of them tell when everything that counts runs at the same
  time.  The counters are exact and keep their order at every instant; a scrape is no picture of one
  instant, but no later scrape shows less, and the two ratios that a scrape computes from several
  loads stay between zero and one.
Trusted boundary: as in `Model.Scrapes`
Main exports: handleDelivery_counts, counters_exact_and_ordered, scrapes_never_decrease,
  ratios_within_one
-/
import WebhookProcessor.Model.Scrapes
import WebhookProcessor.Proofs.Exposition
import WebhookProcessor.Proofs.RetryLoop

namespace WebhookProcessor

open Concurrency Transition

/-! ### What a delivery counts -/

/-- From one state of the metrics to another, the counters go up by `increments`. -/
def Counts (increments : List Counter) (before after : Metrics) : Prop :=
  ∀ counter, after.counter counter = before.counter counter + Int64.ofNat (increments.count counter)

theorem Counts.append {first second : List Counter} {before middle after : Metrics}
    (earlier : Counts first before middle) (later : Counts second middle after) :
    Counts (first ++ second) before after := by
  intro counter
  rw [later counter, earlier counter, List.count_append, Int64.ofNat_add, Int64.add_assoc]

theorem Counts.same {before after : Metrics} (same : after.counter = before.counter) :
    Counts [] before after := by
  intro counter
  rw [same]
  exact (Int64.add_zero _).symm

theorem counts_inc (metrics : Metrics) (counter : Counter) :
    Counts [counter] metrics (metrics.inc counter) := by
  intro other
  by_cases same : other = counter
  · subst same
    simp [Metrics.inc]
  · simp [Metrics.inc, Function.update_of_ne same, Ne.symm same]

section Delivery

variable {Payload : Type} (codec : Codec Payload) (config : LoadedConfig) (answers : Answers)
  (event : Event Payload)

theorem giveUp_counts (attempt : Int64) (error : String) (journal : Journal Payload) :
    Counts [.eventsFailedPermanent] journal.metrics
      (giveUp codec answers event attempt error journal).1.metrics := by
  have counted := counts_inc journal.metrics .eventsFailedPermanent
  unfold giveUp Journal.addDeadLetter
  cases codec.marshal event.payload with
  | none => exact counted
  | some payload =>
      dsimp only
      split
      · exact counted
      · exact counted

/-- The loop counts one retry for each failed attempt before the last, and then its end. -/
theorem attemptLoop_counts (rounds : Nat) (attempt : Int64) (journal : Journal Payload) :
    ∃ retries ending, Counts (Activity.delivery retries ending).increments journal.metrics
      (attemptLoop codec config answers event rounds attempt journal).1.metrics := by
  induction rounds generalizing attempt journal with
  | zero => exact ⟨0, .uncounted, .same rfl⟩
  | succ rounds inductionHypothesis =>
      have observed : Counts [] journal.metrics
          (runProcessor answers event attempt journal).metrics := .same rfl
      rw [attemptLoop]
      dsimp only
      split
      · split
        · exact ⟨0, .processed, observed.append (counts_inc _ _)⟩
        · split
          · exact ⟨0, .failed, observed.append (giveUp_counts codec answers event _ _ _)⟩
          · obtain ⟨retries, ending, rest⟩ := inductionHypothesis (attempt + 1)
              (retryLater config attempt (runProcessor answers event attempt journal))
            refine ⟨retries + 1, ending, ?_⟩
            exact (observed.append (counts_inc _ _)).append rest
      · exact ⟨0, .uncounted, .same rfl⟩

theorem claimForProcessing_metrics (journal : Journal Payload) (id : EventId) :
    (journal.claimForProcessing config answers id).1.metrics = journal.metrics := by
  unfold Journal.claimForProcessing Journal.readClaimStatus
  dsimp only
  split
  · split
    · rfl
    · split <;> rfl
  · rfl

/-- A call of `handleDelivery` increments what `Activity.delivery` says, for some number of retries
and some end. -/
theorem handleDelivery_counts (journal : Journal Payload) :
    ∃ retries ending, Counts (Activity.delivery retries ending).increments journal.metrics
      (handleDelivery codec config answers event journal).metrics := by
  have kept := claimForProcessing_metrics config answers journal event.id
  unfold handleDelivery
  generalize journal.claimForProcessing config answers event.id = claim at kept ⊢
  obtain ⟨after, result⟩ := claim
  rw [← kept]
  cases result with
  | none => exact ⟨0, .uncounted, .same rfl⟩
  | some result =>
      cases result with
      | claimed => exact attemptLoop_counts codec config answers event _ 1 after
      | final => exact ⟨0, .skipped, counts_inc _ _⟩
      | inProgress | missing => exact ⟨0, .uncounted, .same rfl⟩

end Delivery

/-! ### The exact numbers behind the counters -/

theorem toInt_ofNat {count : Nat} (small : count < 2 ^ 63) : (Int64.ofNat count).toInt = count :=
  Int64.toInt_ofNat_of_lt small

namespace MetricsState

/-- The same activities with counters that cannot overflow. -/
abbrev Counted := Counters.State Counter ℕ

def Counted.Reached (counted : Counted) : Prop :=
  Transition.Reachable Counters.zero (Counters.next Activity.program) counted

/-- The 64-bit counters. -/
def ofCounted (counted : Counted) : MetricsState := Counters.image Int64.ofNat counted

theorem ofNat_succ (count : Nat) : Int64.ofNat (count + 1) = Int64.ofNat count + 1 :=
  Int64.ofNat_add count 1

theorem exists_counted {state : MetricsState} (reached : state.Reached) :
    ∃ counted : Counted, counted.Reached ∧ ofCounted counted = state :=
  Counters.exists_counted Activity.program rfl ofNat_succ reached

theorem run_ofCounted {counted : Counted} {actions : List (PoolAction Activity)}
    {final : MetricsState} (ran : run count (ofCounted counted) actions = some final) :
    ∃ after : Counted, run (Counters.next Activity.program) counted actions = some after ∧
      ofCounted after = final := by
  have image : run count (ofCounted counted) actions = _ :=
    Counters.run_image Activity.program ofNat_succ counted actions
  rw [image] at ran
  exact Option.map_eq_some_iff.mp ran

/-- The number of increments does not depend on the size of the counters. -/
theorem increments_ofCounted (counted : Counted) :
    (ofCounted counted).increments =
      (counted.threads.map fun thread =>
        thread.made.countP fun operation => operation.loaded? = none).sum := by
  simp [increments, ofCounted, Counters.image, Pool.map, CounterThread.map, Function.comp_def]

end MetricsState

/-- Increments of two counters are increments. -/
theorem count_add_count_le {first second : Counter} (apart : first ≠ second)
    (made : List (CounterOp Counter)) :
    made.count (.add first) + made.count (.add second) ≤
      made.countP fun operation => operation.loaded? = none := by
  induction made with
  | nil => exact Nat.le_refl 0
  | cons operation made inductionHypothesis =>
      cases operation with
      | load counter => simpa [List.count_cons] using inductionHypothesis
      | add counter =>
          simp only [List.count_cons, List.countP_cons, CounterOp.loaded?_add, beq_iff_eq,
            CounterOp.add.injEq, decide_true, if_true]
          by_cases isFirst : counter = first
          · have notSecond : counter ≠ second := fun same => apart (isFirst.symm.trans same)
            simp only [isFirst, if_true, apart, if_false]
            omega
          · simp only [isFirst, if_false]
            split <;> omega

theorem shared_add_shared_le {counted : MetricsState.Counted} (reached : counted.Reached)
    {first second : Counter} (apart : first ≠ second) :
    counted.shared first + counted.shared second ≤
      (MetricsState.ofCounted counted).increments := by
  rw [MetricsState.increments_ofCounted, Counters.shared_eq reached, Counters.shared_eq reached,
    ← List.sum_map_add]
  apply List.sum_le_sum
  intro thread _
  exact count_add_count_le apart thread.made

theorem shared_le_increments {counted : MetricsState.Counted} (reached : counted.Reached)
    (counter : Counter) :
    counted.shared counter ≤ (MetricsState.ofCounted counted).increments := by
  have other : ∃ second, counter ≠ second := by
    cases counter with
    | eventsQueued => exact ⟨.eventsRejected, by decide⟩
    | _ => exact ⟨.eventsQueued, by decide⟩
  obtain ⟨second, apart⟩ := other
  exact Nat.le_trans (Nat.le_add_right _ _) (shared_add_shared_le reached apart)

/-! ### Exact and ordered -/

/-- A counter that an activity never increments cannot get ahead in it. -/
theorem leads_of_uncounted {activity : Activity} {second : Counter}
    (uncounted : second ∉ activity.increments) (first : Counter) :
    Counters.Leads activity.program first second := by
  apply Counters.Leads.of_not_mem
  simpa [Activity.program] using uncounted

theorem rejected_leads (activity : Activity) :
    Counters.Leads activity.program .eventsRejected .eventsDuplicated := by
  cases activity with
  | createEvent response =>
      cases response with
      | accepted => exact leads_of_uncounted List.not_mem_nil _
      | rejected statusCode message =>
          by_cases conflict : statusCode = 409
          · subst conflict
            exact .pair _ _
          · apply leads_of_uncounted
            simp [Activity.increments, CreateResponse.increments, conflict]
  | replayDeadLetter response =>
      apply leads_of_uncounted
      cases response <;> simp [Activity.increments, ReplayResponse.increments]
  | autoRetry failed =>
      apply leads_of_uncounted
      cases failed <;> decide
  | delivery retries ending =>
      apply leads_of_uncounted
      cases ending <;> simp [Activity.increments, DeliveryEnd.increments]
  | published | snapshot | prometheus => exact leads_of_uncounted (by decide) _

theorem autoRetries_lead (activity : Activity) :
    Counters.Leads activity.program .deadLetterAutoRetries .deadLetterAutoRetryFailed := by
  cases activity with
  | autoRetry failed =>
      cases failed with
      | false => exact leads_of_uncounted (by decide) _
      | true => exact .pair _ _
  | createEvent response =>
      apply leads_of_uncounted
      cases response with
      | accepted => exact List.not_mem_nil
      | rejected statusCode message =>
          by_cases conflict : statusCode = 409 <;>
            simp [Activity.increments, CreateResponse.increments, conflict]
  | replayDeadLetter response =>
      apply leads_of_uncounted
      cases response <;> simp [Activity.increments, ReplayResponse.increments]
  | delivery retries ending =>
      apply leads_of_uncounted
      cases ending <;> simp [Activity.increments, DeliveryEnd.increments]
  | published | snapshot | prometheus => exact leads_of_uncounted (by decide) _

/-- With fewer than `2^63` increments, every counter is at every instant the number of its
increments, there are no more duplicates than rejections, and no more failed automatic replays than
automatic replays. -/
theorem counters_exact_and_ordered {state : MetricsState} (reached : state.Reached)
    (small : state.increments < 2 ^ 63) :
    (∀ counter, (state.shared counter).toInt =
        (state.threads.map fun thread => thread.made.count (.add counter)).sum) ∧
      (state.shared .eventsDuplicated).toInt ≤ (state.shared .eventsRejected).toInt ∧
      (state.shared .deadLetterAutoRetryFailed).toInt ≤
        (state.shared .deadLetterAutoRetries).toInt := by
  obtain ⟨counted, exactly, rfl⟩ := MetricsState.exists_counted reached
  have value : ∀ counter, ((MetricsState.ofCounted counted).shared counter).toInt =
      counted.shared counter := by
    intro counter
    exact toInt_ofNat (Nat.lt_of_le_of_lt (shared_le_increments exactly counter) small)
  refine ⟨?_, ?_, ?_⟩
  · intro counter
    rw [value, Counters.shared_eq exactly]
    simp [MetricsState.ofCounted, Counters.image, Pool.map, CounterThread.map, Function.comp_def]
  · rw [value, value]
    exact Int.ofNat_le.mpr (Counters.shared_le_of_leads rejected_leads exactly)
  · rw [value, value]
    exact Int.ofNat_le.mpr (Counters.shared_le_of_leads autoRetries_lead exactly)

/-- A duplicate request is refused while a scrape is under way: the scrape has loaded the rejections
before, and loads the duplicates after it. -/
def overlapRun (scraping : Activity) : List (PoolAction Activity) :=
  [.start (.createEvent (.rejected 409 "event already exists")), .start scraping, .advance 1,
    .advance 1, .advance 0, .advance 0] ++ List.replicate (scraping.loads.length - 2) (.advance 1)

/-- The scrape shows a duplicate without a rejection, which the counters never do. -/
theorem counters_exact_and_ordered_of_overlap :
    ∃ state : MetricsState,
      run MetricsState.count MetricsState.new (overlapRun .snapshot) = some state ∧
        (∃ thread ∈ state.threads, (.eventsRejected, 0) ∈ thread.seen ∧
          (.eventsDuplicated, 1) ∈ thread.seen) ∧
        (state.shared .eventsDuplicated).toInt ≤ (state.shared .eventsRejected).toInt := by
  have ran : run MetricsState.count MetricsState.new (overlapRun .snapshot) = some _ := rfl
  refine ⟨_, ran, by decide +kernel, ?_⟩
  exact (counters_exact_and_ordered (Transition.Reachable.of_run ran) (by decide +kernel)).2.1

/-! ### Scrapes -/

/-- A value that a thread loaded, with the exact number behind it. -/
theorem exists_seen {counted : MetricsState.Counted} {thread : CounterThread Counter Int64}
    (member : thread ∈ (MetricsState.ofCounted counted).threads) :
    ∃ exactly ∈ counted.threads, exactly.map Int64.ofNat = thread :=
  List.mem_map.mp member

theorem mem_seen_map {exactly : CounterThread Counter ℕ} {counter : Counter} {value : Int64}
    (seen : (counter, value) ∈ (exactly.map Int64.ofNat).seen) :
    ∃ number, (counter, number) ∈ exactly.seen ∧ Int64.ofNat number = value := by
  obtain ⟨⟨same, number⟩, member, equal⟩ := List.mem_map.mp seen
  obtain ⟨rfl, rfl⟩ := Prod.mk.inj equal
  exact ⟨number, member, rfl⟩

/-- Every thread has loaded only what its counters had reached. -/
theorem informed {counted : MetricsState.Counted} (reached : counted.Reached)
    {thread : CounterThread Counter ℕ} (member : thread ∈ counted.threads) :
    Counters.Informed counted.shared thread :=
  Counters.relyGuarantee.informed_of_reachable reached thread member

/-- Scrapes never go back: whatever a thread has loaded from a counter by some moment, a thread that
had loaded nothing by then never sees less in that counter, as long as fewer than `2^63` increments
are made. -/
theorem scrapes_never_decrease {middle final : MetricsState} (reached : middle.Reached)
    {actions : List (PoolAction Activity)}
    (ran : run MetricsState.count middle actions = some final)
    (small : final.increments < 2 ^ 63) {earlier later : CounterThread Counter Int64} {index : Nat}
    (ended : earlier ∈ middle.threads)
    (fresh : ∀ thread ∈ middle.threads[index]?, thread.seen = [])
    (found : final.threads[index]? = some later) {counter : Counter} {before after : Int64}
    (first : (counter, before) ∈ earlier.seen) (second : (counter, after) ∈ later.seen) :
    0 ≤ before.toInt ∧ before.toInt ≤ after.toInt := by
  obtain ⟨counted, exactly, rfl⟩ := MetricsState.exists_counted reached
  obtain ⟨countedAfter, ranExactly, rfl⟩ := MetricsState.run_ofCounted ran
  have exactlyAfter : countedAfter.Reached :=
    ReachableVia.of_run exactly (along_true actions counted) ranExactly
  obtain ⟨firstThread, firstMember, rfl⟩ := exists_seen ended
  obtain ⟨firstNumber, firstSeen, rfl⟩ := mem_seen_map first
  have foundExactly : countedAfter.threads[index]?.map (CounterThread.map Int64.ofNat) =
      some later := by
    rw [← List.getElem?_map]
    exact found
  obtain ⟨secondThread, secondFound, rfl⟩ := Option.map_eq_some_iff.mp foundExactly
  obtain ⟨secondNumber, secondSeen, rfl⟩ := mem_seen_map second
  have freshExactly : ∀ thread ∈ counted.threads[index]?, thread.seen = [] := by
    intro thread here
    have image : (MetricsState.ofCounted counted).threads[index]? =
        some (thread.map Int64.ofNat) := by
      show (counted.threads.map (CounterThread.map Int64.ofNat))[index]? = _
      rw [List.getElem?_map, here]
      rfl
    exact List.map_eq_nil_iff.mp (fresh _ image)
  have below : firstNumber ≤ counted.shared counter :=
    (informed exactly firstMember).1 _ firstSeen
  have above : counted.shared counter ≤ secondNumber :=
    Counters.le_of_seen ranExactly freshExactly secondThread secondFound _ secondSeen
  have most : secondNumber ≤ countedAfter.shared counter :=
    (informed exactlyAfter (List.mem_of_getElem? secondFound)).1 _ secondSeen
  have bounded := shared_le_increments exactlyAfter counter
  rw [toInt_ofNat (by omega), toInt_ofNat (by omega)]
  omega

/-- A second scrape that starts after the overlapping one does not miss its duplicate. -/
theorem scrapes_never_decrease_of_overlap :
    ∃ middle final : MetricsState, ∃ earlier later : CounterThread Counter Int64,
      run MetricsState.count MetricsState.new (overlapRun .snapshot) = some middle ∧
        run MetricsState.count middle [.start .snapshot, .advance 2, .advance 2, .advance 2] =
          some final ∧
        middle.threads[1]? = some earlier ∧ final.threads[2]? = some later ∧
        ∃ before after : Int64, (.eventsDuplicated, before) ∈ earlier.seen ∧
          (.eventsDuplicated, after) ∈ later.seen ∧ 0 ≤ before.toInt ∧
          before.toInt ≤ after.toInt := by
  have finished : ∃ middle final : MetricsState, ∃ earlier later : CounterThread Counter Int64,
      run MetricsState.count MetricsState.new (overlapRun .snapshot) = some middle ∧
        run MetricsState.count middle [.start .snapshot, .advance 2, .advance 2, .advance 2] =
          some final ∧
        middle.threads[1]? = some earlier ∧ final.threads[2]? = some later ∧
        middle.threads[2]? = none ∧ final.increments < 2 ^ 63 ∧
        (.eventsDuplicated, 1) ∈ earlier.seen ∧ (.eventsDuplicated, 1) ∈ later.seen :=
    ⟨_, _, _, _, rfl, rfl, rfl, rfl, rfl, by decide +kernel, by decide +kernel, by decide +kernel⟩
  obtain ⟨middle, final, earlier, later, ran, goesOn, ended, found, fresh, small, first, second⟩ :=
    finished
  refine ⟨middle, final, earlier, later, ran, goesOn, ended, found, 1, 1, first, second, ?_⟩
  apply scrapes_never_decrease (Transition.Reachable.of_run ran) goesOn small
    (List.mem_of_getElem? ended) _ found first second
  intro thread present
  rw [fresh] at present
  cases present

theorem number_at {exactly : CounterThread Counter ℕ} {index : Nat} {counter : Counter}
    {value : Int64} (found : (exactly.map Int64.ofNat).seen[index]? = some (counter, value)) :
    ∃ number, exactly.seen[index]? = some (counter, number) ∧ Int64.ofNat number = value := by
  rw [CounterThread.map, List.getElem?_map] at found
  obtain ⟨⟨same, number⟩, here, equal⟩ := Option.map_eq_some_iff.mp found
  obtain ⟨rfl, rfl⟩ := Prod.mk.inj equal
  exact ⟨number, here, rfl⟩

/-- Three loads in a row for a ratio: the part is loaded once more at the end, so it is never larger
than the whole. -/
theorem proper_of_loads {counted : MetricsState.Counted} (reached : counted.Reached)
    (small : (MetricsState.ofCounted counted).increments < 2 ^ 63)
    {exactly : CounterThread Counter ℕ} (member : exactly ∈ counted.threads) {index : Nat}
    {part other : Counter} (apart : other ≠ part) {loads : RatioLoads}
    (first : (exactly.map Int64.ofNat).seen[index]? = some (part, loads.part))
    (second : (exactly.map Int64.ofNat).seen[index + 1]? = some (other, loads.other))
    (third : (exactly.map Int64.ofNat).seen[index + 2]? = some (part, loads.partAgain)) :
    loads.Proper := by
  obtain ⟨partNumber, firstFound, firstValue⟩ := number_at first
  obtain ⟨otherNumber, secondFound, secondValue⟩ := number_at second
  obtain ⟨againNumber, thirdFound, thirdValue⟩ := number_at third
  have known := informed reached member
  have grown : partNumber ≤ againNumber := known.le_of_lt (by omega) firstFound thirdFound
  have otherBound : otherNumber ≤ counted.shared other :=
    known.1 _ (List.mem_of_getElem? secondFound)
  have againBound : againNumber ≤ counted.shared part :=
    known.1 _ (List.mem_of_getElem? thirdFound)
  have total := shared_add_shared_le reached apart
  have partValue : loads.part.toInt = partNumber := by
    rw [← firstValue, toInt_ofNat (by omega)]
  have otherValue : loads.other.toInt = otherNumber := by
    rw [← secondValue, toInt_ofNat (by omega)]
  have againValue : loads.partAgain.toInt = againNumber := by
    rw [← thirdValue, toInt_ofNat (by omega)]
  apply RatioLoads.proper <;> omega

/-- Whatever runs at the same time, the two ratios of an exposition are numbers between zero and one,
although their parts are loaded one after the other: the part is loaded before the whole. -/
theorem ratios_within_one {state : MetricsState} (reached : state.Reached)
    (small : state.increments < 2 ^ 63) {thread : CounterThread Counter Int64}
    (member : thread ∈ state.threads) {scrape : Scrape} (loaded : thread.seen = scrape.loads) :
    scrape.rejection.Proper ∧ scrape.failure.Proper := by
  obtain ⟨counted, exactly, rfl⟩ := MetricsState.exists_counted reached
  obtain ⟨exactThread, exactMember, rfl⟩ := exists_seen member
  have seen : ∀ index : Nat, (exactThread.map Int64.ofNat).seen[index]? = scrape.loads[index]? := by
    intro index
    rw [loaded]
  have rejection : Counter.eventsQueued ≠ .eventsRejected := by decide
  have failure : Counter.eventsProcessed ≠ .eventsFailedPermanent := by decide
  exact ⟨proper_of_loads exactly small exactMember rejection (seen 11) (seen 12) (seen 13),
    proper_of_loads exactly small exactMember failure (seen 14) (seen 15) (seen 16)⟩

/-- What the overlapping scrape loads. -/
def overlapped : Scrape :=
  { snapshot :=
      { eventsQueued := 0
        eventsRejected := 0
        eventsDuplicated := 1
        eventsSkippedDuplicate := 0
        eventsProcessed := 0
        eventsFailedPermanent := 0
        eventRetries := 0
        deadLetterReplays := 0
        deadLetterReplayRejected := 0
        deadLetterAutoRetries := 0
        deadLetterAutoRetryFailed := 0
        queueLength := 0
        queueCapacity := 100 }
    processingLatency :=
      { count := 0
        sumNS := 0
        maxNS := 0 }
    rejection :=
      { part := 1
        other := 0
        partAgain := 1 }
    failure :=
      { part := 0
        other := 0
        partAgain := 0 } }

/-- The overlapping scrape writes a ratio of one, and `0` for the ratio without events. -/
theorem ratios_within_one_of_overlap :
    (∃ state : MetricsState,
      run MetricsState.count MetricsState.new (overlapRun .prometheus) = some state ∧
        overlapped.loads ∈ state.threads.map CounterThread.seen) ∧
      overlapped.rejection.text = "1.000000" ∧ overlapped.failure.text = "0" ∧
      overlapped.rejection.Proper ∧ overlapped.failure.Proper := by
  have finished : ∃ state : MetricsState,
      run MetricsState.count MetricsState.new (overlapRun .prometheus) = some state ∧
        state.increments < 2 ^ 63 ∧ overlapped.loads ∈ state.threads.map CounterThread.seen :=
    ⟨_, rfl, by decide +kernel, by decide +kernel⟩
  obtain ⟨state, ran, small, loaded⟩ := finished
  obtain ⟨thread, member, seen⟩ := List.mem_map.mp loaded
  exact ⟨⟨state, ran, loaded⟩, by decide +kernel, rfl,
    ratios_within_one (Transition.Reachable.of_run ran) small member seen⟩

end WebhookProcessor
