/-
Module: WebhookProcessor.Proofs.ClaimedBatches
Layer: Proofs
Purpose: What `ClaimPendingOutbox` hands to its dispatcher: one message for each reserved row, with
  the row's own columns, in whatever order `RETURNING` listed the rows.
Trusted boundary: none
Main exports: mem_scanClaimed, ids_scanClaimed, scanClaimed_ne_none, mem_claimed, ids_claimed,
  outboxCandidates_nodup
-/
import WebhookProcessor.Proofs.StoreViews
import WebhookProcessor.Model.System

namespace WebhookProcessor

variable {Payload : Type} {codec : Codec Payload}

/-! ### Scanning rows -/

section Scan

variable {α β γ : Type} {f : α → Option β} {xs : List α} {ys : List β}

private theorem exists_of_mem_mapM (mapped : xs.mapM f = some ys) {y : β} (member : y ∈ ys) :
    ∃ x ∈ xs, f x = some y := by
  induction xs generalizing ys with
  | nil =>
      cases mapped
      cases member
  | cons x xs inductionHypothesis =>
      simp only [List.mapM_cons, Option.pure_def, Option.bind_eq_bind, Option.bind_eq_some_iff,
        Option.some.injEq] at mapped
      obtain ⟨first, head, rest, tail, rfl⟩ := mapped
      rcases List.mem_cons.mp member with rfl | later
      · exact ⟨x, List.mem_cons_self, head⟩
      · obtain ⟨z, zMember, found⟩ := inductionHypothesis tail later
        exact ⟨z, List.mem_cons_of_mem _ zMember, found⟩

private theorem map_eq_of_mapM (column : α → γ) (field : β → γ)
    (agree : ∀ x y, f x = some y → field y = column x) (mapped : xs.mapM f = some ys) :
    ys.map field = xs.map column := by
  induction xs generalizing ys with
  | nil =>
      cases mapped
      rfl
  | cons x xs inductionHypothesis =>
      simp only [List.mapM_cons, Option.pure_def, Option.bind_eq_bind, Option.bind_eq_some_iff,
        Option.some.injEq] at mapped
      obtain ⟨first, head, rest, tail, rfl⟩ := mapped
      rw [List.map_cons, List.map_cons, agree x first head, inductionHypothesis tail]

private theorem mapM_ne_none (each : ∀ x ∈ xs, f x ≠ none) : xs.mapM f ≠ none := by
  induction xs with
  | nil => simp
  | cons x xs inductionHypothesis =>
      obtain ⟨y, head⟩ := Option.ne_none_iff_exists'.mp (each x List.mem_cons_self)
      obtain ⟨ys, tail⟩ := Option.ne_none_iff_exists'.mp
        (inductionHypothesis fun z member => each z (List.mem_cons_of_mem _ member))
      simp [head, tail]

end Scan

theorem id_scanOutboxMessage {token : String} {row : OutboxRow} {message : OutboxMessage Payload}
    (scanned : scanOutboxMessage codec token row = some message) : message.id = row.id := by
  simp only [scanOutboxMessage, Option.map_eq_some_iff] at scanned
  obtain ⟨payload, _, rfl⟩ := scanned
  rfl

/-- Every scanned message comes from a returned row. -/
theorem mem_scanClaimed {token : String} {rows : List OutboxRow} {order : List Nat}
    {batch : List (OutboxMessage Payload)}
    (scanned : scanClaimed codec token rows order = some batch)
    {message : OutboxMessage Payload} (member : message ∈ batch) :
    ∃ row ∈ rows, scanOutboxMessage codec token row = some message := by
  obtain ⟨row, listed, found⟩ := exists_of_mem_mapM scanned member
  obtain ⟨_, _, returned⟩ := List.mem_filterMap.mp listed
  exact ⟨row, List.mem_of_find?_eq_some returned, found⟩

/-- Looking up returned rows by id gives the ids back. -/
private theorem ids_of_order {rows : List OutboxRow} {order : List Nat}
    (listed : ∀ n ∈ order, n ∈ rows.map OutboxRow.id) :
    (order.filterMap fun n => rows.find? fun row => row.id = n).map OutboxRow.id = order := by
  induction order with
  | nil => rfl
  | cons n order inductionHypothesis =>
      obtain ⟨row, member, same⟩ := List.mem_map.mp (listed n List.mem_cons_self)
      have rest := inductionHypothesis fun m inOrder => listed m (List.mem_cons_of_mem _ inOrder)
      cases found : rows.find? fun row => row.id = n with
      | none =>
          have missed := List.find?_eq_none.mp found row member
          simp [same] at missed
      | some first =>
          have firstId : first.id = n := by simpa using List.find?_some found
          simp only [List.filterMap_cons, found, List.map_cons, rest, firstId]

/-- The messages stand in the order in which the rows were returned. -/
theorem ids_scanClaimed {token : String} {rows : List OutboxRow} {order : List Nat}
    {batch : List (OutboxMessage Payload)}
    (scanned : scanClaimed codec token rows order = some batch)
    (listed : ∀ n ∈ order, n ∈ rows.map OutboxRow.id) : batch.map OutboxMessage.id = order := by
  have ids := map_eq_of_mapM OutboxRow.id OutboxMessage.id
    (fun _ _ found => id_scanOutboxMessage found) scanned
  rw [ids, ids_of_order listed]

/-- The scan fails only on a payload that does not decode. -/
theorem scanClaimed_ne_none (token : String) {rows : List OutboxRow} (order : List Nat)
    (decodes : ∀ row ∈ rows, codec.unmarshal row.payload ≠ none) :
    scanClaimed codec token rows order ≠ none := by
  refine mapM_ne_none fun row listed => ?_
  obtain ⟨_, _, returned⟩ := List.mem_filterMap.mp listed
  have decoded := decodes row (List.mem_of_find?_eq_some returned)
  simpa [scanOutboxMessage] using decoded

/-! ### The batch of a claim -/

namespace Database

variable (db : Database)

theorem outboxCandidates_nodup (limit : Nat) (lease now : Time) :
    ((db.outboxCandidates limit lease now).map OutboxRow.id).Nodup := by
  have sublist := (List.filter_sublist (l := db.outbox.rows) (p := fun row =>
    decide (row.Claimable now lease ∧ db.locks (.outbox row.eventId) = none))).map OutboxRow.id
  have sorted := ((List.perm_insertionSort (fun first second : OutboxRow => first.id ≤ second.id)
    _).map OutboxRow.id).nodup_iff.mpr (db.outboxIds_nodup.sublist sublist)
  exact sorted.sublist ((List.take_sublist _ _).map OutboxRow.id)

end Database

section Claim

variable {db : Database} {limit : Nat} {lease now : Time} {token : String} {order : List Nat}
  {batch : List (OutboxMessage Payload)}

/-- A claimed message carries the columns of a candidate row and the token of the claim. -/
theorem mem_claimed
    (scanned : scanClaimed codec token (db.claimPendingOutbox limit lease now token).1 order =
      some batch) {message : OutboxMessage Payload} (member : message ∈ batch) :
    message.dispatchToken = token ∧ ∃ row ∈ db.outboxCandidates limit lease now,
      message.id = row.id ∧ message.event.id = row.eventId ∧
        message.event.type = row.eventType ∧ message.event.requestId = row.requestId ∧
        codec.unmarshal row.payload = some message.event.payload := by
  obtain ⟨reserved, returned, found⟩ := mem_scanClaimed scanned member
  obtain ⟨row, candidate, rfl⟩ := List.mem_map.mp returned
  simp only [scanOutboxMessage, Option.map_eq_some_iff] at found
  obtain ⟨payload, decoded, rfl⟩ := found
  exact ⟨rfl, row, candidate, rfl, rfl, rfl, rfl, decoded⟩

theorem ids_claimed
    (scanned : scanClaimed codec token (db.claimPendingOutbox limit lease now token).1 order =
      some batch)
    (returned : order.Perm ((db.claimPendingOutbox limit lease now token).1.map OutboxRow.id)) :
    (batch.map OutboxMessage.id).Perm
      ((db.outboxCandidates limit lease now).map OutboxRow.id) := by
  rw [ids_scanClaimed scanned fun n inOrder => returned.mem_iff.mp inOrder]
  refine returned.trans ?_
  simp only [Database.claimPendingOutbox, List.map_map]
  exact List.Perm.refl _

end Claim

end WebhookProcessor
