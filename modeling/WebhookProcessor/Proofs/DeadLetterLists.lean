/-
Module: WebhookProcessor.Proofs.DeadLetterLists
Layer: Proofs
Purpose: What the dead letter listings show.  The buffer in memory shows the last failures, the
  table the last failure of each event; the two agree exactly as long as no event fails twice within
  the capacity.  In the running service the listing fails only where its query does, and no failed
  event is missing from it unless the listing is full of events that failed no earlier.
Trusted boundary: `Codec.Lawful`
Main exports: addAll_items, Shows, Listed, listing, dead_letter_stores_agree_iff,
  failed_events_listed
-/
import WebhookProcessor.Model.DeadLetterList
import WebhookProcessor.Proofs.Content
import WebhookProcessor.Proofs.ManualReplay
import WebhookProcessor.Queueing.Latest

namespace WebhookProcessor

open Queueing Transition

variable {Payload : Type}

/-! ### The buffer -/

section Buffer

theorem add_of_room {store : DeadLetterStore Payload} (room : 0 < store.capacity)
    (failure : Failure Payload) :
    store.add failure = some { store with
      items := (if store.items.length = store.capacity then store.items.tail else store.items) ++
        [failure.deadLetter] } := by
  unfold DeadLetterStore.add
  split
  · rename_i full
    cases items : store.items with
    | nil =>
        rw [items, List.length_nil] at full
        omega
    | cons => rfl
  · rfl

/-- The buffer holds the last `capacity` failures, oldest first. -/
theorem addAll_items {capacity : Nat} (room : 0 < capacity) (older : List (DeadLetter Payload))
    (failures : List (Failure Payload)) :
    DeadLetterStore.addAll
        { capacity := capacity
          items := (older.take capacity).reverse } failures =
      some
        { capacity := capacity
          items :=
            ((failures.reverse.map Failure.deadLetter ++ older).take capacity).reverse } := by
  induction failures generalizing older with
  | nil => rfl
  | cons failure failures inductionHypothesis =>
      have added := inductionHypothesis (failure.deadLetter :: older)
      rw [reverse_take_cons room] at added
      rw [DeadLetterStore.addAll, add_of_room room, Option.bind_some, List.length_reverse]
      rw [added]
      simp

end Buffer

/-! ### The table -/

section Table

variable {codec : Codec Payload} {db db' : Database}

private theorem exists_of_forall₂ {α β : Type} {related : α → β → Prop} {lefts : List α}
    {rights : List β} (shown : List.Forall₂ related lefts rights) {left : α}
    (member : left ∈ lefts) : ∃ right ∈ rights, related left right := by
  induction shown with
  | nil => cases member
  | @cons _ right _ _ here _ inductionHypothesis =>
      cases member with
      | head => exact ⟨right, List.mem_cons_self, here⟩
      | tail _ later =>
          obtain ⟨other, inRights, there⟩ := inductionHypothesis later
          exact ⟨other, List.mem_cons_of_mem _ inRights, there⟩

theorem columns_of_scan {row : DeadLetterRow} {letter : DeadLetter Payload}
    (scanned : scanDeadLetter codec row = some letter) :
    row.eventId = letter.event.id ∧ row.failedAt = letter.failedAt := by
  obtain ⟨payload, _, rfl⟩ := Option.map_eq_some_iff.mp scanned
  exact ⟨rfl, rfl⟩

variable (codec) in
/-- The rows, in turn, are scanned as the letters. -/
def Shows : List DeadLetterRow → List (DeadLetter Payload) → Prop :=
  List.Forall₂ fun row letter => scanDeadLetter codec row = some letter

variable (codec) in
/-- The table holds the last failure of each event. -/
def Listed (db : Database) (newest : List (Failure Payload)) : Prop :=
  ∃ rows : List DeadLetterRow, rows.Perm db.deadLetters.rows ∧
    Shows codec rows ((latest (fun failure => failure.event.id) newest).map Failure.deadLetter)

/-- What `Add` writes shows the failure. -/
theorem scan_written (lawful : codec.Lawful) {failure : Failure Payload} {payload : String}
    (produced : codec.Produced failure.event.payload)
    (marshalled : codec.marshal failure.event.payload = some payload) :
    scanDeadLetter codec
        (newDeadLetterRow failure.event payload failure.error failure.attempts failure.now) =
      some failure.deadLetter := by
  obtain ⟨text, again, decoded⟩ := lawful.roundTrip _ produced
  cases marshalled.symm.trans again
  simp [scanDeadLetter, newDeadLetterRow, decoded, Failure.deadLetter]

theorem scan_reopened {row : DeadLetterRow} {earlier failure : Failure Payload}
    (scanned : scanDeadLetter codec row = some earlier.deadLetter)
    (same : earlier.event = failure.event) :
    scanDeadLetter codec (row.reopen failure.error failure.attempts failure.now) =
      some failure.deadLetter := by
  obtain ⟨payload, decoded, shows⟩ := Option.map_eq_some_iff.mp scanned
  have event := congrArg DeadLetter.event shows
  simp only [Failure.deadLetter, same] at event
  simp [scanDeadLetter, DeadLetterRow.reopen, decoded, Failure.deadLetter, ← event]

namespace Shows

variable {rows : List DeadLetterRow} {letters : List (DeadLetter Payload)}

/-- The rows of the other events show their letters as before. -/
theorem filter (shown : Shows codec rows letters) (id : EventId) :
    Shows codec (rows.filter fun row => row.eventId ≠ id)
      (letters.filter fun letter => letter.event.id ≠ id) := by
  apply List.rel_filter _ shown
  intro row letter scanned
  simp [(columns_of_scan scanned).1]

theorem take (shown : Shows codec rows letters) (limit : Nat) :
    Shows codec (rows.take limit) (letters.take limit) :=
  List.forall₂_take limit shown

theorem exists_letter (shown : Shows codec rows letters) {row : DeadLetterRow}
    (member : row ∈ rows) : ∃ letter ∈ letters, scanDeadLetter codec row = some letter :=
  exists_of_forall₂ shown member

theorem exists_row (shown : Shows codec rows letters) {letter : DeadLetter Payload}
    (member : letter ∈ letters) : ∃ row ∈ rows, scanDeadLetter codec row = some letter :=
  exists_of_forall₂ (List.Forall₂.flip shown) member

theorem columns (shown : Shows codec rows letters) :
    (letters.map fun letter => letter.event.id) = rows.map DeadLetterRow.eventId ∧
      letters.map DeadLetter.failedAt = rows.map DeadLetterRow.failedAt := by
  induction shown with
  | nil => exact ⟨rfl, rfl⟩
  | cons scanned _ inductionHypothesis =>
      obtain ⟨sameId, sameTime⟩ := columns_of_scan scanned
      obtain ⟨sameIds, sameTimes⟩ := inductionHypothesis
      simp [sameId, sameTime, sameIds, sameTimes]

/-- `ListDeadLetters` scans them all. -/
theorem mapM (shown : Shows codec rows letters) :
    rows.mapM (scanDeadLetter codec) = some letters := by
  induction shown with
  | nil => rfl
  | cons scanned _ inductionHypothesis =>
      simp [List.mapM_cons, scanned, inductionHypothesis]

/-- Rows that can be scanned one by one can be scanned together. -/
theorem of_forall (scans : ∀ row ∈ rows, ∃ letter, scanDeadLetter codec row = some letter) :
    ∃ letters, Shows codec rows letters := by
  induction rows with
  | nil => exact ⟨[], List.Forall₂.nil⟩
  | cons row rows inductionHypothesis =>
      obtain ⟨⟨letter, scanned⟩, scansLater⟩ := List.forall_mem_cons.mp scans
      obtain ⟨letters, shown⟩ := inductionHypothesis scansLater
      exact ⟨letter :: letters, List.Forall₂.cons scanned shown⟩

end Shows

/-- One `Add`. -/
theorem Listed.add (lawful : codec.Lawful) {newest : List (Failure Payload)}
    (listed : Listed codec db newest) {failure : Failure Payload}
    (produced : codec.Produced failure.event.payload)
    (consistent : ∀ earlier ∈ newest, earlier.event.id = failure.event.id →
      earlier.event = failure.event)
    (added : db.addDeadLetter codec failure = some db') : Listed codec db' (failure :: newest) := by
  obtain ⟨payload, marshalled, rfl⟩ := Option.map_eq_some_iff.mp added
  obtain ⟨rows, perm, shown⟩ := listed
  obtain ⟨written, after, origin⟩ := db.deadLetters.rows_upsert_perm
    (newDeadLetterRow failure.event payload failure.error failure.attempts failure.now)
    (fun row => row.reopen failure.error failure.attempts failure.now) fun _ => rfl
  refine ⟨written :: rows.filter fun row => row.eventId ≠ failure.event.id,
    ((perm.filter _).cons written).trans after.symm, ?_⟩
  have shows : scanDeadLetter codec written = some failure.deadLetter := by
    rcases origin with ⟨rfl, _⟩ | ⟨old, member, sameId, rfl⟩
    · exact scan_written lawful produced marshalled
    · obtain ⟨letter, listed, scanned⟩ := shown.exists_letter (perm.mem_iff.mpr member)
      obtain ⟨earlier, inLatest, rfl⟩ := List.mem_map.mp listed
      refine scan_reopened scanned (consistent earlier ?_ ?_)
      · exact (latest_sublist _ newest).subset inLatest
      · exact (columns_of_scan scanned).1.symm.trans sameId
  rw [latest, List.map_cons]
  refine List.Forall₂.cons shows ?_
  have others := shown.filter failure.event.id
  rwa [List.filter_map] at others

/-- All of them. -/
theorem Listed.addAll (lawful : codec.Lawful) {newest failures : List (Failure Payload)}
    (listed : Listed codec db newest)
    (produced : ∀ failure ∈ failures, codec.Produced failure.event.payload)
    (consistent : ∀ first ∈ newest ++ failures, ∀ second ∈ newest ++ failures,
      first.event.id = second.event.id → first.event = second.event) :
    ∃ db', db.addDeadLetters codec failures = some db' ∧
      Listed codec db' (failures.reverse ++ newest) := by
  induction failures generalizing db newest with
  | nil => exact ⟨db, rfl, listed⟩
  | cons failure failures inductionHypothesis =>
      obtain ⟨producedHere, producedLater⟩ := List.forall_mem_cons.mp produced
      obtain ⟨payload, marshalled, _⟩ := lawful.roundTrip _ producedHere
      obtain ⟨next, adds⟩ : ∃ next, db.addDeadLetter codec failure = some next :=
        ⟨_, by rw [Database.addDeadLetter, marshalled, Option.map_some]⟩
      have listedNext := listed.add lawful producedHere
        (fun earlier member => consistent earlier (by simp [member]) failure (by simp)) adds
      obtain ⟨db', addsLater, listedLater⟩ := inductionHypothesis listedNext producedLater
        fun first inFirst second inSecond => consistent first (List.perm_middle.mem_iff.mpr inFirst)
          second (List.perm_middle.mem_iff.mpr inSecond)
      refine ⟨db', ?_, ?_⟩
      · rw [Database.addDeadLetters, adds, Option.bind_some, addsLater]
      · simpa using listedLater

instance : IsTrans DeadLetterRow DeadLetterRow.ListedBefore :=
  ⟨fun _ _ _ first second => le_trans second first⟩

instance : Std.Total DeadLetterRow.ListedBefore :=
  ⟨fun first second => le_total second.failedAt first.failedAt⟩

/-- Rows that failed at different times are listed in one order only. -/
theorem sorted_of_newestFirst {rows scan : List DeadLetterRow} (perm : scan.Perm rows)
    (newestFirst : rows.Pairwise fun first second => second.failedAt < first.failedAt) :
    scan.insertionSort DeadLetterRow.ListedBefore = rows := by
  have sorted := (List.perm_insertionSort DeadLetterRow.ListedBefore scan).trans perm
  apply sorted.eq_of_pairwise
  · intro first second inSorted inRows before after
    have apart : (rows.map DeadLetterRow.failedAt).Nodup :=
      List.pairwise_map.mpr (newestFirst.imp fun later => later.ne')
    exact List.inj_on_of_nodup_map apart (sorted.mem_iff.mp inSorted) inRows
      (le_antisymm after before)
  · exact List.pairwise_insertionSort _ scan
  · exact newestFirst.imp fun later => later.le

theorem Listed.list {newest : List (Failure Payload)} (listed : Listed codec db newest)
    (newestFirst : newest.Pairwise fun first second => second.now < first.now) (limit : Nat)
    {scan : List DeadLetterRow} (perm : scan.Perm db.deadLetters.rows) :
    listDeadLetters codec limit .complete scan =
      some (((latest (fun failure => failure.event.id) newest).take limit).map
        Failure.deadLetter) := by
  obtain ⟨rows, permRows, shown⟩ := listed
  have rowsNewestFirst : rows.Pairwise fun first second => second.failedAt < first.failedAt := by
    have times : (rows.map DeadLetterRow.failedAt).Pairwise fun first second => second < first := by
      rw [← shown.columns.2, List.map_map]
      exact List.pairwise_map.mpr (newestFirst.sublist (latest_sublist _ newest))
    exact List.pairwise_map.mp times
  rw [listDeadLetters, sorted_of_newestFirst (perm.trans permRows.symm) rowsNewestFirst]
  rw [(shown.take limit).mapM, List.map_take]

end Table

/-! ### The two repositories -/

section Repositories

variable {codec : Codec Payload} {capacity : Nat} {failures : List (Failure Payload)}

theorem deadLetter_injective :
    Function.Injective (Failure.deadLetter : Failure Payload → DeadLetter Payload) := by
  rintro ⟨⟩ ⟨⟩ same
  simpa [Failure.deadLetter] using same

/-- `NewDeadLetterStore` after one `Add` for each failure. -/
theorem new_addAll (room : 0 < capacity) (failures : List (Failure Payload)) :
    ∃ store, (DeadLetterStore.new capacity).addAll failures = some store ∧
      store.snapshot.items.reverse = (failures.reverse.take capacity).map Failure.deadLetter := by
  have added := addAll_items room [] failures
  rw [List.take_nil, List.reverse_nil] at added
  refine ⟨_, added, ?_⟩
  rw [DeadLetterStore.snapshot, List.reverse_reverse, List.append_nil, List.map_take]

/-- The table after one `Add` for each failure. -/
theorem empty_addDeadLetters (lawful : codec.Lawful)
    (inTurn : failures.Pairwise fun first second => first.now < second.now)
    (produced : ∀ failure ∈ failures, codec.Produced failure.event.payload)
    (consistent : ∀ first ∈ failures, ∀ second ∈ failures,
      first.event.id = second.event.id → first.event = second.event) :
    ∃ db, Database.empty.addDeadLetters codec failures = some db ∧
      ∀ rows : List DeadLetterRow, rows.Perm db.deadLetters.rows → ∀ limit,
        listDeadLetters codec limit .complete rows =
          some (((latest (fun failure => failure.event.id) failures.reverse).take limit).map
            Failure.deadLetter) := by
  have nothing : Listed codec Database.empty ([] : List (Failure Payload)) :=
    ⟨[], List.Perm.nil, List.Forall₂.nil⟩
  obtain ⟨db, adds, listed⟩ := nothing.addAll lawful produced (by simpa using consistent)
  rw [List.append_nil] at listed
  refine ⟨db, adds, fun rows perm limit => listed.list ?_ limit perm⟩
  exact List.pairwise_reverse.mpr inTurn

/-- The repository in memory shows the last failures, oldest first; the one in the database shows
the last failure of each event, newest first.  They show the same letters exactly as long as no
event occurs twice among the last `capacity` failures, and no event that the first one shows is
missing in the second. -/
theorem dead_letter_stores_agree_iff (lawful : codec.Lawful) (room : 0 < capacity)
    (inTurn : failures.Pairwise fun first second => first.now < second.now)
    (produced : ∀ failure ∈ failures, codec.Produced failure.event.payload)
    (consistent : ∀ first ∈ failures, ∀ second ∈ failures,
      first.event.id = second.event.id → first.event = second.event) :
    ∃ store db, (DeadLetterStore.new capacity).addAll failures = some store ∧
      Database.empty.addDeadLetters codec failures = some db ∧
      ∀ rows : List DeadLetterRow, rows.Perm db.deadLetters.rows →
        ∃ shown, persistentSnapshot codec capacity .complete rows = some shown ∧
          (shown.items.map fun letter => letter.event.id).Nodup ∧
          (∀ letter ∈ store.snapshot.items, ∃ other ∈ shown.items,
            other.event = letter.event ∧ letter.failedAt ≤ other.failedAt) ∧
          (shown.items = store.snapshot.items.reverse ↔
            ((failures.reverse.take capacity).map fun failure => failure.event.id).Nodup) := by
  obtain ⟨store, buffered, remembered⟩ := new_addAll room failures
  obtain ⟨db, stored, listed⟩ := empty_addDeadLetters lawful inTurn produced consistent
  refine ⟨store, db, buffered, stored, fun rows perm => ?_⟩
  refine ⟨_, by rw [persistentSnapshot, listed rows perm, Option.map_some], ?_, ?_, ?_⟩
  · rw [List.map_map]
    have apart := nodup_latest (fun failure : Failure Payload => failure.event.id) failures.reverse
    exact apart.sublist ((List.take_sublist capacity _).map _)
  · intro letter member
    rw [← List.mem_reverse, remembered] at member
    obtain ⟨failure, inBuffer, rfl⟩ := List.mem_map.mp member
    have newestFirst := List.pairwise_reverse.mpr inTurn
    obtain ⟨newest, inTable, sameId, order⟩ := exists_take_latest
      (fun failure : Failure Payload => failure.event.id) newestFirst inBuffer
    refine ⟨newest.deadLetter, List.mem_map_of_mem inTable, ?_, ?_⟩
    · apply consistent newest _ failure _ sameId
      · exact List.mem_reverse.mp ((latest_sublist _ _).subset (List.mem_of_mem_take inTable))
      · exact List.mem_reverse.mp (List.mem_of_mem_take inBuffer)
    · rcases order with rfl | later
      · exact le_refl _
      · exact later.le
  · rw [remembered, (List.map_injective_iff.mpr deadLetter_injective).eq_iff]
    exact take_latest_eq_iff _

end Repositories

/-- Three failures of two events within one hour. -/
def repeatedFailures : List (Failure String) :=
  [{ event := Sample.event, error := "timeout", attempts := 1, now := 0 },
    { event := { Sample.event with id := "evt-2" }, error := "timeout", attempts := 1, now := 60 },
    { event := Sample.event, error := "refused", attempts := 1, now := 3600 }]

theorem dead_letter_stores_agree_iff_of_repeatedFailures :
    (∃ store db, (DeadLetterStore.new 3).addAll repeatedFailures = some store ∧
      Database.empty.addDeadLetters Codec.text repeatedFailures = some db ∧
      ∀ rows : List DeadLetterRow, rows.Perm db.deadLetters.rows →
        ∃ shown, persistentSnapshot Codec.text 3 .complete rows = some shown ∧
          shown.items ≠ store.snapshot.items.reverse) ∧
    ∃ store db, (DeadLetterStore.new 2).addAll repeatedFailures = some store ∧
      Database.empty.addDeadLetters Codec.text repeatedFailures = some db ∧
      ∀ rows : List DeadLetterRow, rows.Perm db.deadLetters.rows →
        ∃ shown, persistentSnapshot Codec.text 2 .complete rows = some shown ∧
          shown.items = store.snapshot.items.reverse := by
  have agree (capacity : Nat) (room : 0 < capacity) :=
    dead_letter_stores_agree_iff Codec.text_lawful room
      (show repeatedFailures.Pairwise fun first second => first.now < second.now by decide)
      (fun failure _ => ⟨failure.event.payload, rfl⟩) (by decide)
  constructor
  · obtain ⟨store, db, buffered, stored, shows⟩ := agree 3 (by decide)
    refine ⟨store, db, buffered, stored, fun rows perm => ?_⟩
    obtain ⟨shown, listed, _, _, same⟩ := shows rows perm
    exact ⟨shown, listed, fun equal => absurd (same.mp equal) (by decide)⟩
  · obtain ⟨store, db, buffered, stored, shows⟩ := agree 2 (by decide)
    refine ⟨store, db, buffered, stored, fun rows perm => ?_⟩
    obtain ⟨shown, listed, _, _, same⟩ := shows rows perm
    exact ⟨shown, listed, same.mpr (by decide)⟩

/-! ### One page of the table -/

section Listing

variable {rows : List DeadLetterRow}

/-- The rows that `ListDeadLetters` scans. -/
def listing (limit : Nat) (rows : List DeadLetterRow) : List DeadLetterRow :=
  (rows.insertionSort DeadLetterRow.ListedBefore).take limit

theorem mem_of_listing {limit : Nat} {row : DeadLetterRow} (listed : row ∈ listing limit rows) :
    row ∈ rows := by
  have sorted := List.perm_insertionSort DeadLetterRow.ListedBefore rows
  exact sorted.mem_iff.mp (List.mem_of_mem_take listed)

theorem length_listing (limit : Nat) (rows : List DeadLetterRow) :
    (listing limit rows).length = min limit rows.length := by
  rw [listing, List.length_take, List.length_insertionSort]

theorem listing_newestFirst (limit : Nat) (rows : List DeadLetterRow) :
    (listing limit rows).Pairwise DeadLetterRow.ListedBefore :=
  (List.pairwise_insertionSort DeadLetterRow.ListedBefore rows).sublist (List.take_sublist limit _)

theorem nodup_listing (unique : (rows.map DeadLetterRow.eventId).Nodup) (limit : Nat) :
    ((listing limit rows).map DeadLetterRow.eventId).Nodup := by
  have sorted := List.perm_insertionSort DeadLetterRow.ListedBefore rows
  have sortedUnique := (sorted.map DeadLetterRow.eventId).nodup_iff.mpr unique
  exact sortedUnique.sublist ((List.take_sublist limit _).map _)

/-- A row is in the listing, or the listing is full of rows that failed no earlier. -/
theorem listed_or_full {row : DeadLetterRow} (member : row ∈ rows) (limit : Nat) :
    row ∈ listing limit rows ∨ (listing limit rows).length = limit ∧
      ∀ other ∈ listing limit rows, row.failedAt ≤ other.failedAt := by
  unfold listing
  have sorted := List.pairwise_insertionSort DeadLetterRow.ListedBefore rows
  have present := (List.perm_insertionSort DeadLetterRow.ListedBefore rows).mem_iff.mpr member
  generalize rows.insertionSort DeadLetterRow.ListedBefore = ordered at sorted present
  rw [← List.take_append_drop limit ordered] at sorted present
  rcases List.mem_append.mp present with first | later
  · exact Or.inl first
  · right
    constructor
    · have beyond := List.length_pos_of_mem later
      rw [List.length_drop] at beyond
      rw [List.length_take]
      omega
    · intro other listed
      exact (List.pairwise_append.mp sorted).2.2 other listed row later

/-- The letter of a row is shown, or the listing is full of letters that failed no earlier. -/
theorem shown_or_full {codec : Codec Payload} {limit : Nat} {letters : List (DeadLetter Payload)}
    (shown : Shows codec (listing limit rows) letters) {row : DeadLetterRow} (member : row ∈ rows)
    {letter : DeadLetter Payload} (scanned : scanDeadLetter codec row = some letter) :
    letter ∈ letters ∨
      letters.length = limit ∧ ∀ other ∈ letters, letter.failedAt ≤ other.failedAt := by
  rcases listed_or_full member limit with listed | ⟨full, noEarlier⟩
  · left
    obtain ⟨same, inLetters, again⟩ := shown.exists_letter listed
    cases scanned.symm.trans again
    exact inLetters
  · right
    refine ⟨shown.length_eq.symm.trans full, ?_⟩
    intro other inLetters
    obtain ⟨otherRow, listed, otherScanned⟩ := shown.exists_row inLetters
    rw [← (columns_of_scan scanned).2, ← (columns_of_scan otherScanned).2]
    exact noEarlier otherRow listed

/-- Rows that were scanned before an error are dropped. -/
theorem listDeadLetters_of_incomplete (codec : Codec Payload) (limit : Nat) {answer : RowsAnswer}
    (incomplete : answer ≠ .complete) (rows : List DeadLetterRow) :
    listDeadLetters codec limit answer rows = none := by
  cases answer with
  | complete => exact absurd rfl incomplete
  | refused => rfl
  | brokenOff delivered => exact Option.bind_fun_none _

end Listing

/-! ### The running service -/

section Service

variable [DecidableEq Payload] {codec : Codec Payload} {config : Config} {s : System Payload}

/-- Every dead letter can be shown, with the content that was accepted. -/
theorem scan_of_stored (lawful : codec.Lawful) (reached : Reachable codec config s)
    {row : DeadLetterRow} (member : row ∈ s.db.deadLetters.rows) :
    ∃ letter, scanDeadLetter codec row = some letter ∧ letter.event ∈ s.history.accepted := by
  have sound := contentSound lawful reached
  have submitted := sound.deadLetters row.eventId row (s.db.deadLetter?_of_mem member)
  obtain ⟨event, accepted, sameId, sameType, sameRequest, marshalled⟩ := submitted
  obtain ⟨text, again, decoded⟩ := lawful.roundTrip _ (sound.produced event accepted)
  cases marshalled.symm.trans again
  refine ⟨_, by rw [scanDeadLetter, decoded, Option.map_some], ?_⟩
  rw [← sameId, ← sameType, ← sameRequest]
  exact accepted

/-- What `ListDeadLetters` scans can be scanned. -/
theorem listing_shown (lawful : codec.Lawful) (reached : Reachable codec config s)
    {rows : List DeadLetterRow} (perm : rows.Perm s.db.deadLetters.rows) (limit : Nat) :
    ∃ letters, Shows codec (listing limit rows) letters ∧
      ∀ letter ∈ letters, letter.event ∈ s.history.accepted := by
  have scans : ∀ row ∈ listing limit rows,
      ∃ letter, scanDeadLetter codec row = some letter ∧ letter.event ∈ s.history.accepted := by
    intro row listed
    exact scan_of_stored lawful reached (perm.mem_iff.mp (mem_of_listing listed))
  obtain ⟨letters, shown⟩ : ∃ letters, Shows codec (listing limit rows) letters := by
    apply Shows.of_forall
    intro row listed
    obtain ⟨letter, scanned, _⟩ := scans row listed
    exact ⟨letter, scanned⟩
  refine ⟨letters, shown, ?_⟩
  intro letter member
  obtain ⟨row, listed, scanned⟩ := shown.exists_row member
  obtain ⟨same, again, accepted⟩ := scans row listed
  cases scanned.symm.trans again
  exact accepted

/-- `GET /dead-letters` of the running service fails exactly where its query is not answered
completely.  Otherwise, in whatever order the table is read, it answers the newest failures, one for
each event, with the content that was accepted, and a failed event is missing only when as many
others as the listing holds failed no earlier. -/
theorem failed_events_listed (lawful : codec.Lawful) (reached : Reachable codec config s)
    (limit : Nat) {rows : List DeadLetterRow} (perm : rows.Perm s.db.deadLetters.rows) :
    (∀ answer, answer ≠ .complete →
      deadLettersHandler (persistentSnapshot codec limit answer rows) =
        .internalServerError "failed to list dead letters") ∧
    ∃ response, deadLettersHandler (persistentSnapshot codec limit .complete rows) = .ok response ∧
      response.count = min limit rows.length ∧
      response.items.Pairwise (fun first second => second.failedAt ≤ first.failedAt) ∧
      (response.items.map fun letter => letter.event.id).Nodup ∧
      (∀ letter ∈ response.items, letter.event ∈ s.history.accepted) ∧
      ∀ id, s.db.status? id = some .failed →
        ∃ row letter, s.db.deadLetter? id = some row ∧ scanDeadLetter codec row = some letter ∧
          (letter ∈ response.items ∨
            response.count = limit ∧
              ∀ other ∈ response.items, letter.failedAt ≤ other.failedAt) := by
  constructor
  · intro answer incomplete
    rw [persistentSnapshot, listDeadLetters_of_incomplete codec limit incomplete, Option.map_none,
      deadLettersHandler]
  obtain ⟨letters, shown, accepted⟩ := listing_shown lawful reached perm limit
  have listed : listDeadLetters codec limit .complete rows = some letters := shown.mapM
  refine ⟨{ count := letters.length, items := letters }, ?_, ?_, ?_, ?_, accepted, ?_⟩
  · rw [persistentSnapshot, listed, Option.map_some, deadLettersHandler]
  · exact shown.length_eq.symm.trans (length_listing limit rows)
  · have times : (letters.map DeadLetter.failedAt).Pairwise fun first second => second ≤ first := by
      rw [shown.columns.2]
      exact List.pairwise_map.mpr (listing_newestFirst limit rows)
    exact List.pairwise_map.mp times
  · rw [shown.columns.1]
    apply nodup_listing
    have unique : (s.db.deadLetters.rows.map DeadLetterRow.eventId).Nodup :=
      List.pairwise_map.mpr s.db.deadLetters.unique
    exact (perm.map _).nodup_iff.mpr unique
  · intro id failed
    have recorded := (failureRecorded reached).failed id failed
    obtain ⟨row, found⟩ := Option.ne_none_iff_exists'.mp recorded
    have member := s.db.deadLetters.mem_of_lookup _ found
    obtain ⟨letter, scanned, _⟩ := scan_of_stored lawful reached member
    exact ⟨row, letter, found, scanned,
      shown_or_full shown (perm.mem_iff.mpr member) scanned⟩

end Service

set_option maxRecDepth 4000 in
theorem failed_events_listed_of_failedRun :
    ∃ s, run (step Codec.text Sample.config) System.initial failedRun = some s ∧
      s.db.status? Sample.event.id = some .failed ∧
      ∀ rows : List DeadLetterRow, rows.Perm s.db.deadLetters.rows →
        ∃ response,
          deadLettersHandler (persistentSnapshot Codec.text 10 .complete rows) = .ok response ∧
          response.count = 1 ∧ ∃ letter ∈ response.items, letter.event.id = Sample.event.id := by
  have ran : (run (step Codec.text Sample.config) System.initial failedRun).map
      (fun s => (s.db.status? Sample.event.id, s.db.deadLetters.rows.length)) =
        some (some .failed, 1) := by
    decide +kernel
  obtain ⟨s, reaches, ends⟩ := Option.map_eq_some_iff.mp ran
  obtain ⟨failed, length⟩ := Prod.mk.inj ends
  refine ⟨s, reaches, failed, fun rows perm => ?_⟩
  obtain ⟨_, response, answered, count, _, _, _, shows⟩ :=
    failed_events_listed Codec.text_lawful (Reachable.of_run reaches) 10 perm
  rw [perm.length_eq, length] at count
  refine ⟨response, answered, count, ?_⟩
  obtain ⟨row, letter, found, scanned, listed | ⟨full, _⟩⟩ := shows _ failed
  · refine ⟨letter, listed, ?_⟩
    rw [← (columns_of_scan scanned).1]
    exact s.db.deadLetters.key_of_lookup _ found
  · rw [count] at full
    cases full

end WebhookProcessor
