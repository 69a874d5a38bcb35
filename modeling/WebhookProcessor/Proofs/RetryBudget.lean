/-
Module: WebhookProcessor.Proofs.RetryBudget
Layer: Proofs
Purpose: The budget of the automatic retry over whole runs.  `replay_attempts` of a dead letter
  counts the claims of its event: no operation resets it, and a claim needs it below the maximum.
  So every event is claimed at most that often, the claims are numbered without a gap, and no two
  calls of a scheduler receive the same numbered item.  An automatic replay uses up an item that a
  scheduler was given, so the replays are bounded by the claims.
Trusted boundary: none
Main exports: ServiceOnly, AttemptsCounted, ItemsHeld, UsedUp, auto_retry_bounded
-/
import WebhookProcessor.Proofs.AutoRetry

namespace WebhookProcessor

open Transition

variable {Payload : Type}

/-- Nobody calls `ClaimRetryableDeadLetters`, the older claim that no part of the service uses. -/
def ServiceOnly (_ : System Payload) (action : Action Payload) (_ : System Payload) : Prop :=
  match action with
  | .claimRetryableDeadLetters _ _ _ => False
  | _ => True

instance (before : System Payload) (action : Action Payload) (after : System Payload) :
    Decidable (ServiceOnly before action after) := by
  apply Action.casesOn (motive := fun action =>
    Decidable (ServiceOnly before action after)) action
  all_goals
    intros
    delta ServiceOnly
    infer_instance

/-! ### What a claim does to one event -/

namespace Database

variable (db : Database)

/-- Seen from one event, a claim spends an attempt of its dead letter and returns that attempt, or
does nothing. -/
theorem claimRetryable_cases (limit maxAttempts : Nat) (now : Time) (id : EventId) :
    (∃ row, db.deadLetter? id = some row ∧ row.Retryable maxAttempts now ∧
        ((db.claimRetryableDeadLetterDetails limit maxAttempts now).1.filter
          fun item => item.eventId = id) =
            [{ eventId := id, replayAttempt := row.replayAttempts + 1 }] ∧
        (db.claimRetryableDeadLetterDetails limit maxAttempts now).2.deadLetter? id =
          some row.spend) ∨
      (((db.claimRetryableDeadLetterDetails limit maxAttempts now).1.filter
          fun item => item.eventId = id) = [] ∧
        (db.claimRetryableDeadLetterDetails limit maxAttempts now).2.deadLetter? id =
          db.deadLetter? id) := by
  rw [deadLetter?_claimRetryableDeadLetterDetails]
  have items : ((db.claimRetryableDeadLetterDetails limit maxAttempts now).1.filter
      fun item => item.eventId = id) =
        ((db.retryCandidates limit maxAttempts now).filter fun row => row.eventId = id).map
          fun row => { eventId := row.eventId, replayAttempt := row.replayAttempts + 1 } :=
    List.filter_map
  rw [items]
  by_cases claimed : id ∈ (db.retryCandidates limit maxAttempts now).map DeadLetterRow.eventId
  · obtain ⟨row, candidate, rfl⟩ := List.mem_map.mp claimed
    obtain ⟨member, retryable, _⟩ := db.mem_retryCandidates candidate
    refine Or.inl ⟨row, db.deadLetter?_of_mem member, retryable, ?_, ?_⟩
    · rw [Relational.filter_key_eq_singleton (db.retryCandidates_nodup _ _ _) candidate]
      rfl
    · rw [db.deadLetter?_of_mem member, Option.map_some, if_pos claimed]
  · refine Or.inr ⟨?_, ?_⟩
    · have none : ((db.retryCandidates limit maxAttempts now).filter
          fun row => row.eventId = id) = [] := by
        apply List.filter_eq_nil_iff.mpr
        intro row candidate
        simp only [decide_eq_true_eq]
        rintro rfl
        exact claimed (List.mem_map_of_mem candidate)
      rw [none]
      rfl
    · cases found : db.deadLetter? id with
      | none => rfl
      | some row =>
          rw [← db.eventId_of_deadLetter? found] at claimed
          rw [Option.map_some, if_neg claimed]

end Database

/-! ### The numbering of the claims -/

/-- `replay_attempts` of the event's dead letter; an event without one has spent none. -/
def Database.attemptsSpent (db : Database) (id : EventId) : Nat :=
  (db.deadLetter? id).elim 0 DeadLetterRow.replayAttempts

/-- The claims of one event so far, oldest first. -/
def System.claimsOf (s : System Payload) (id : EventId) : List RetryableDeadLetterDetail :=
  s.history.autoClaims.filter fun item => item.eventId = id

/-- The claims of an event are numbered from one up to the counter in its dead letter, which stays
within the budget. -/
structure AttemptsCounted (config : Config) (s : System Payload) : Prop where
  numbered : ∀ id, (s.claimsOf id).map RetryableDeadLetterDetail.replayAttempt =
    List.range' 1 (s.db.attemptsSpent id)
  bounded : ∀ id, s.db.attemptsSpent id ≤ config.dlqAutoRetryMaxAttempts

section Steps

variable [DecidableEq Payload] {codec : Codec Payload} {config : Config} {s s' : System Payload}
  {action : Action Payload}

theorem claimsOf_of_step (taken : step codec config s action = some s') (id : EventId) :
    s'.claimsOf id = s.claimsOf id ++
      (action.retries config s).filter fun item => item.eventId = id := by
  rw [System.claimsOf, step_autoClaims taken, List.filter_append]
  rfl

/-- A claim spends an attempt of an event and numbers it, or leaves counter and claims alone. -/
theorem attempts_of_claim {n : Nat} {now : Time} {order : List EventId} {outcome : Outcome}
    (taken : step codec config s (.claimRetryable n now order outcome) = some s') (id : EventId) :
    (s'.db.attemptsSpent id = s.db.attemptsSpent id + 1 ∧
        s.db.attemptsSpent id < config.dlqAutoRetryMaxAttempts ∧
        s'.claimsOf id = s.claimsOf id ++
          [{ eventId := id, replayAttempt := s.db.attemptsSpent id + 1 }]) ∨
      (s'.db.attemptsSpent id = s.db.attemptsSpent id ∧ s'.claimsOf id = s.claimsOf id) := by
  have claims := claimsOf_of_step taken id
  have written : s'.db =
      (s.db.claimRetryableDeadLetterDetails 10 config.dlqAutoRetryMaxAttempts now).2 := by
    simp only [step, Option.ite_none_right_eq_some, Option.some.injEq] at taken
    obtain ⟨_, rfl⟩ := taken
    rfl
  rcases s.db.claimRetryable_cases 10 config.dlqAutoRetryMaxAttempts now id with
    ⟨row, found, ⟨_, _, left⟩, items, spent⟩ | ⟨items, same⟩
  · have before : s.db.attemptsSpent id = row.replayAttempts := by
      rw [Database.attemptsSpent, found]
      rfl
    refine Or.inl ⟨?_, ?_, ?_⟩
    · rw [before, Database.attemptsSpent, written, spent]
      rfl
    · rw [before]
      exact left
    · rw [claims, before]
      exact congrArg (s.claimsOf id ++ ·) items
  · refine Or.inr ⟨?_, ?_⟩
    · rw [Database.attemptsSpent, written, same]
      rfl
    · rw [claims]
      exact (congrArg (s.claimsOf id ++ ·) items).trans (List.append_nil _)

/-- Every other statement of the service leaves the counters alone. -/
theorem attemptsSpent_of_step (taken : step codec config s action = some s')
    (service : ServiceOnly s action s')
    (other : ∀ n now order outcome, action ≠ .claimRetryable n now order outcome) (id : EventId) :
    s'.db.attemptsSpent id = s.db.attemptsSpent id := by
  have effect := step_deadLetter taken id
  unfold Database.attemptsSpent
  generalize s'.db.deadLetter? id = after at effect
  cases effect with
  | unchanged => rfl
  | saved =>
      cases s.db.deadLetter? id with
      | none => rfl
      | some row => rfl
  | spent => exact absurd rfl (other _ _ _ _)
  | spentDirectly => exact service.elim
  | rescheduled _ _ _ found =>
      rw [found]
      rfl
  | rescheduledDirectly found =>
      rw [found]
      rfl
  | replayed _ _ found =>
      rw [found]
      rfl

theorem AttemptsCounted.of_step (counted : AttemptsCounted config s)
    (taken : step codec config s action = some s') (service : ServiceOnly s action s') :
    AttemptsCounted config s' := by
  have perEvent : ∀ id, (s'.claimsOf id).map RetryableDeadLetterDetail.replayAttempt =
      List.range' 1 (s'.db.attemptsSpent id) ∧
        s'.db.attemptsSpent id ≤ config.dlqAutoRetryMaxAttempts := by
    intro id
    have numbered := counted.numbered id
    have bounded := counted.bounded id
    by_cases claim : ∃ n now order outcome, action = .claimRetryable n now order outcome
    · obtain ⟨n, now, order, outcome, rfl⟩ := claim
      rcases attempts_of_claim taken id with ⟨spent, left, claims⟩ | ⟨spent, claims⟩
      · refine ⟨?_, by omega⟩
        rw [claims, spent, List.map_append, numbered, List.range'_1_concat, Nat.add_comm 1]
        rfl
      · rw [claims, spent]
        exact ⟨numbered, bounded⟩
    · have other : ∀ n now order outcome, action ≠ .claimRetryable n now order outcome := by
        intro n now order outcome same
        exact claim ⟨n, now, order, outcome, same⟩
      have silent : action.retries config s = [] := by
        cases action with
        | claimRetryable n now order outcome => exact absurd rfl (other n now order outcome)
        | _ => rfl
      rw [claimsOf_of_step taken, silent, attemptsSpent_of_step taken service other]
      simpa using ⟨numbered, bounded⟩
  exact
    { numbered := fun id => (perEvent id).1
      bounded := fun id => (perEvent id).2 }

theorem attemptsCounted (reached : ReachableVia codec config ServiceOnly s) :
    AttemptsCounted config s := by
  refine reached.invariant ?_ ?_
  · exact
      { numbered := fun _ => rfl
        bounded := fun _ => Nat.zero_le _ }
  · intro before action after _ counted taken service
    exact counted.of_step taken service

omit [DecidableEq Payload] in
/-- No item is claimed twice. -/
theorem AttemptsCounted.nodup (counted : AttemptsCounted config s) :
    s.history.autoClaims.Nodup := by
  apply List.nodup_iff_count_le_one.mpr
  intro item
  have once : ((s.claimsOf item.eventId).map RetryableDeadLetterDetail.replayAttempt).Nodup := by
    rw [counted.numbered]
    exact List.nodup_range'
  calc s.history.autoClaims.count item = (s.claimsOf item.eventId).count item :=
        (List.count_filter (by simp)).symm
    _ ≤ 1 := List.nodup_iff_count_le_one.mp (List.Nodup.of_map _ once) item

/-! ### Every item is used at most once -/

/-- The items that schedulers have been given and not replayed: each was claimed, and no two
places hold the same one. -/
structure ItemsHeld (s : System Payload) : Prop where
  claimed : ∀ n, ∀ item ∈ s.awaited n, item ∈ s.history.autoClaims
  nodup : ∀ n, (s.awaited n).Nodup
  apart : ∀ n m item, item ∈ s.awaited n → item ∈ s.awaited m → n = m

/-- After a step, an item in a scheduler's hands was there before or has just been claimed by it. -/
theorem awaited_of_step_mem (reached : Reachable codec config s)
    (taken : step codec config s action = some s') {n : Nat} {item : RetryableDeadLetterDetail}
    (member : item ∈ s'.awaited n) :
    item ∈ s.awaited n ∨
      ∃ now order, action = .claimRetryable n now order .ok ∧ item ∈ action.retries config s := by
  have effect := step_awaited reached taken n
  generalize s'.awaited n = items at effect member
  cases effect with
  | unchanged => exact Or.inl member
  | claimed _ returned =>
      exact Or.inr ⟨_, _, rfl,
        (orderItems_perm (claimedIds_nodup s _) returned).mem_iff.mp member⟩
  | committed _ first =>
      rw [first]
      exact Or.inl (List.mem_cons_of_mem _ member)
  | rescheduled _ first =>
      rw [first]
      exact Or.inl (List.mem_cons_of_mem _ member)
  | crashed => cases member

theorem ItemsHeld.of_step (reached : Reachable codec config s) (held : ItemsHeld s)
    (taken : step codec config s action = some s') (unique : s'.history.autoClaims.Nodup) :
    ItemsHeld s' := by
  have grown := step_autoClaims taken
  rw [grown] at unique
  -- a freshly claimed item is in nobody's hands
  have fresh : ∀ n, ∀ item ∈ s.awaited n, item ∉ action.retries config s := by
    intro n item member
    exact List.disjoint_of_nodup_append unique (held.claimed n item member)
  constructor
  · intro n item member
    rw [grown]
    rcases awaited_of_step_mem reached taken member with before | ⟨_, _, _, now⟩
    · exact List.mem_append_left _ (held.claimed n item before)
    · exact List.mem_append_right _ now
  · intro n
    have effect := step_awaited reached taken n
    generalize s'.awaited n = items at effect
    cases effect with
    | unchanged => exact held.nodup n
    | claimed _ returned =>
        apply (orderItems_perm (claimedIds_nodup s _) returned).nodup_iff.mpr
        exact unique.of_append_right
    | committed _ first =>
        have before := held.nodup n
        rw [first] at before
        exact before.of_cons
    | rescheduled _ first =>
        have before := held.nodup n
        rw [first] at before
        exact before.of_cons
    | crashed => exact List.nodup_nil
  · intro n m item first second
    rcases awaited_of_step_mem reached taken first with before | ⟨_, _, claims, now⟩
    · rcases awaited_of_step_mem reached taken second with other | ⟨_, _, _, now⟩
      · exact held.apart n m item before other
      · exact absurd now (fresh n item before)
    · rcases awaited_of_step_mem reached taken second with other | ⟨_, _, alsoClaims, _⟩
      · exact absurd now (fresh m item other)
      · rw [claims] at alsoClaims
        exact (Action.claimRetryable.inj alsoClaims).1

theorem itemsHeld (reached : ReachableVia codec config ServiceOnly s) : ItemsHeld s := by
  refine reached.invariant ?_ ?_
  · constructor
    · intro n item member
      cases member
    · intro n
      exact List.nodup_nil
    · intro n m item member
      cases member
  · intro before action after earlier held taken service
    exact held.of_step earlier.reachable taken
      (attemptsCounted (earlier.step taken service)).nodup

/-- The claims of an event that its automatic replays have used up: no scheduler will replay them
again. -/
structure UsedUp (s : System Payload) (id : EventId) (used : List RetryableDeadLetterDetail) :
    Prop where
  nodup : used.Nodup
  claimed : ∀ item ∈ used, item ∈ s.claimsOf id
  gone : ∀ n, ∀ item ∈ used, item ∉ s.unreplayed n
  counted : used.length = s.history.autoReplays id

omit [DecidableEq Payload] in
theorem System.mem_claimsOf {id : EventId} {item : RetryableDeadLetterDetail} :
    item ∈ s.claimsOf id ↔ item ∈ s.history.autoClaims ∧ item.eventId = id := by
  simp [System.claimsOf]

/-- A used item does not come back to a scheduler. -/
theorem UsedUp.gone_of_step {id : EventId} {used : List RetryableDeadLetterDetail}
    (usedUp : UsedUp s id used) (taken : step codec config s action = some s')
    (unique : s'.history.autoClaims.Nodup) (n : Nat) : ∀ item ∈ used, item ∉ s'.unreplayed n := by
  intro item member unreplayed
  rcases unreplayed_of_step_mem taken unreplayed with before | now
  · exact usedUp.gone n item member before
  · rw [step_autoClaims taken] at unique
    exact List.disjoint_of_nodup_append unique
      (System.mem_claimsOf.mp (usedUp.claimed item member)).1 now

theorem mem_claimsOf_of_step (taken : step codec config s action = some s') {id : EventId}
    {item : RetryableDeadLetterDetail} (member : item ∈ s.claimsOf id) : item ∈ s'.claimsOf id := by
  rw [claimsOf_of_step taken]
  exact List.mem_append_left _ member

/-- The item of a scheduler's commit is the first in its hands, and its replay returns with the
commit. -/
theorem replaying_of_commit (reached : Reachable codec config s) {n : Nat} {tx : ReplayTx}
    {error : Option String}
    (taken : step codec config s (.replayCommit (.scheduler n) tx error) = some s') :
    ∃ item rest, item.eventId = tx.eventId ∧ s.awaited n = item :: rest ∧
      s.unreplayed n = item :: rest ∧ s'.unreplayed n = rest := by
  have same := step_scheduler_other taken (n := n) (Option.some_ne_none _).symm
  simp only [step, Option.ite_none_right_eq_some, Option.some.injEq] at taken
  obtain ⟨phase, rfl⟩ := taken
  have running : (s.replays (.scheduler n)).inFlight = some tx.eventId := by rw [phase]; rfl
  obtain ⟨item, rest, replaying, sameEvent⟩ := driven reached n tx.eventId running
  refine ⟨item, rest, sameEvent, ?_, ?_, ?_⟩
  · rw [System.awaited_of_pending (by rw [phase]; simp), replaying]
    rfl
  · simp only [System.unreplayed, replaying, running]
    exact if_neg (Option.some_ne_none _)
  · have ended : (ReplayCall.afterCommit tx error).inFlight = none := by
      cases error with
      | none => rfl
      | some message => rfl
    rw [System.unreplayed, same, replaying]
    simp only [System.setReplay, Function.update_self]
    exact if_pos ended

/-- An automatic replay uses up the item that its scheduler is replaying. -/
theorem UsedUp.of_commit (reached : Reachable codec config s) (held : ItemsHeld s) {n : Nat}
    {tx : ReplayTx} {error : Option String} {used : List RetryableDeadLetterDetail}
    (usedUp : UsedUp s tx.eventId used)
    (taken : step codec config s (.replayCommit (.scheduler n) tx error) = some s')
    (moved : tx.moved = true) (unique : s'.history.autoClaims.Nodup) :
    ∃ item rest, s.awaited n = item :: rest ∧ UsedUp s' tx.eventId (item :: used) := by
  obtain ⟨item, rest, same, first, before, left⟩ := replaying_of_commit reached taken
  have inHand : item ∈ s.awaited n := by
    rw [first]
    exact List.mem_cons_self
  have claimed : item ∈ s.claimsOf tx.eventId :=
    System.mem_claimsOf.mpr ⟨held.claimed n item inHand, same⟩
  refine ⟨item, rest, first, ?_⟩
  constructor
  · refine List.nodup_cons.mpr ⟨fun again => usedUp.gone n item again ?_, usedUp.nodup⟩
    rw [before]
    exact List.mem_cons_self
  · intro other member
    apply mem_claimsOf_of_step taken
    rcases List.mem_cons.mp member with rfl | old
    · exact claimed
    · exact usedUp.claimed other old
  · intro m other member unreplayed
    rcases List.mem_cons.mp member with rfl | old
    · rcases unreplayed_of_step_mem taken unreplayed with earlier | claims
      · cases held.apart m n other (s.unreplayed_subset m earlier) inHand
        have once := held.nodup n
        rw [first] at once
        rw [left] at unreplayed
        exact (List.nodup_cons.mp once).1 unreplayed
      · cases claims
    · exact usedUp.gone_of_step taken unique m other old unreplayed
  · have replays := step_autoReplays taken tx.eventId
    have counts : (Action.replayCommit (.scheduler n) tx error : Action Payload).autoReplays? =
        some tx.eventId := if_pos moved
    rw [replays, if_pos counts, List.length_cons, usedUp.counted]

/-- A step uses up no item, or the one that the scheduler it commits for is replaying. -/
theorem UsedUp.of_step (reached : Reachable codec config s) (held : ItemsHeld s) {id : EventId}
    {used : List RetryableDeadLetterDetail} (usedUp : UsedUp s id used)
    (taken : step codec config s action = some s') (unique : s'.history.autoClaims.Nodup) :
    ∃ later, UsedUp s' id later ∧ used ⊆ later ∧
      ∀ n tx error, action = .replayCommit (.scheduler n) tx error → tx.moved = true →
        tx.eventId = id → ∃ item rest, s.awaited n = item :: rest ∧ item ∈ later := by
  by_cases replayed : action.autoReplays? = some id
  · cases action
    all_goals simp only [Action.autoReplays?, reduceCtorEq] at replayed
    case replayCommit caller tx error =>
        cases caller with
        | scheduler n =>
            simp only [Option.ite_none_right_eq_some, Option.some.injEq] at replayed
            obtain ⟨moved, rfl⟩ := replayed
            obtain ⟨item, rest, first, next⟩ := usedUp.of_commit reached held taken moved unique
            refine ⟨item :: used, next, List.subset_cons_self _ _, ?_⟩
            rintro m other answer same _ _
            cases same
            exact ⟨item, rest, first, List.mem_cons_self⟩
        | http request => cases replayed
        | cli process => cases replayed
  · refine ⟨used, ?_, List.Subset.refl _, ?_⟩
    · constructor
      · exact usedUp.nodup
      · intro item member
        exact mem_claimsOf_of_step taken (usedUp.claimed item member)
      · exact usedUp.gone_of_step taken unique
      · rw [step_autoReplays taken, if_neg replayed]
        exact usedUp.counted
    · rintro n tx error rfl moved rfl
      exact absurd (if_pos moved) replayed

omit [DecidableEq Payload] in
theorem usedUp_initial (id : EventId) : UsedUp (System.initial : System Payload) id [] :=
  { nodup := List.nodup_nil
    claimed := fun _ member => by cases member
    gone := fun _ _ member => by cases member
    counted := rfl }

/-- Every automatic replay has used up a claim of its own. -/
def ReplaysCovered (s : System Payload) : Prop :=
  ∀ id, ∃ used, UsedUp s id used

theorem replaysCovered (reached : ReachableVia codec config ServiceOnly s) : ReplaysCovered s := by
  refine reached.invariant ?_ ?_
  · intro id
    exact ⟨[], usedUp_initial id⟩
  · intro before action after earlier covered taken service id
    obtain ⟨used, usedUp⟩ := covered id
    obtain ⟨later, next, _⟩ := usedUp.of_step earlier.reachable (itemsHeld earlier) taken
      (attemptsCounted (earlier.step taken service)).nodup
    exact ⟨later, next⟩

/-! ### The budget of a whole run -/

/-- The items that a call of `ClaimRetryableDeadLetterDetails` returns to its scheduler. -/
def Action.received (config : Config) (s : System Payload) :
    Action Payload → List RetryableDeadLetterDetail
  | .claimRetryable _ now order .ok =>
      orderItems (s.db.claimRetryableDeadLetterDetails 10 config.dlqAutoRetryMaxAttempts now).1
        order
  | _ => []

theorem received_of_step (taken : step codec config s action = some s') :
    (action.received config s).Subperm (action.retries config s) := by
  cases action
  case claimRetryable n now order outcome =>
      cases outcome with
      | ok =>
          simp only [step, Option.ite_none_right_eq_some] at taken
          obtain ⟨⟨_, _, _, returned⟩, _⟩ := taken
          exact (orderItems_perm (claimedIds_nodup s now) returned).subperm
      | failed => exact List.nil_subperm
      | lost => exact List.nil_subperm
  all_goals exact List.nil_subperm

/-- What schedulers receive in a run was claimed, each item as often as it is received. -/
theorem received_subperm {actions : List (Action Payload)}
    (ran : run (step codec config) System.initial actions = some s) :
    (collect (step codec config) (fun before action => action.received config before)
      System.initial actions).Subperm s.history.autoClaims := by
  obtain ⟨added, total, collected⟩ :=
    collect_subperm (fun state => state.history.autoClaims)
      (fun _ _ _ taken => ⟨_, step_autoClaims taken, received_of_step taken⟩) ran
  rw [total]
  exact collected

/-- Over every run with any number of schedulers: every event is claimed at most
`DLQAutoRetryMaxAttempts` times, its claims are numbered 1, 2, …, no two calls receive the same
numbered item, and its automatic replays stay within the same bound. -/
theorem auto_retry_bounded {actions : List (Action Payload)}
    (service : Along (step codec config) ServiceOnly System.initial actions)
    (ran : run (step codec config) System.initial actions = some s) (id : EventId) :
    (s.claimsOf id).length ≤ config.dlqAutoRetryMaxAttempts ∧
      (s.claimsOf id).map RetryableDeadLetterDetail.replayAttempt =
        List.range' 1 (s.claimsOf id).length ∧
      (collect (step codec config) (fun before action => action.received config before)
        System.initial actions).Nodup ∧
      s.history.autoReplays id ≤ config.dlqAutoRetryMaxAttempts := by
  have reached : ReachableVia codec config ServiceOnly s := .of_run .start service ran
  have counted := attemptsCounted reached
  have numbered := counted.numbered id
  have length : (s.claimsOf id).length = s.db.attemptsSpent id := by
    have lengths := congrArg List.length numbered
    rwa [List.length_map, List.length_range'] at lengths
  obtain ⟨used, usedUp⟩ := replaysCovered reached id
  have bounded := counted.bounded id
  refine ⟨by omega, by rw [length]; exact numbered, ?_, ?_⟩
  · obtain ⟨sublist, perm, inside⟩ := received_subperm ran
    exact perm.nodup_iff.mp (counted.nodup.sublist inside)
  · have within := (usedUp.nodup.subperm usedUp.claimed).length_le
    rw [usedUp.counted] at within
    omega

end Steps

/-- The item of the sample event's first automatic retry. -/
def Sample.item : RetryableDeadLetterDetail :=
  { eventId := Sample.event.id
    replayAttempt := 1 }

/-- The event fails, and scheduler 0 retries it. -/
def retriedRun : List (Action String) :=
  failedRun ++
    [.claimRetryable 0 0 [Sample.event.id] .ok,
      .schedulerReplay 0 Sample.item []] ++
    (replayStatements (.scheduler 0) (Sample.replayTx true)).tail ++
    [.schedulerReplayed 0 Sample.item []]

set_option maxRecDepth 4000 in
theorem auto_retry_bounded_of_retriedRun :
    ∃ s, run (step Codec.text Sample.config) System.initial retriedRun = some s ∧
      s.claimsOf Sample.event.id = [Sample.item] ∧ s.history.autoReplays Sample.event.id ≤ 3 := by
  have ran : (run (step Codec.text Sample.config) System.initial retriedRun).map
      (fun s => s.claimsOf Sample.event.id) = some [Sample.item] := by
    decide +kernel
  obtain ⟨s, reaches, claims⟩ := Option.map_eq_some_iff.mp ran
  have service : Along (step Codec.text Sample.config) ServiceOnly System.initial retriedRun := by
    decide +kernel
  obtain ⟨_, _, _, bounded⟩ := auto_retry_bounded service reaches Sample.event.id
  exact ⟨s, reaches, claims, bounded⟩

end WebhookProcessor
