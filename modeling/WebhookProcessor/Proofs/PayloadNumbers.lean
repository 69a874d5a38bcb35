/-
Module: WebhookProcessor.Proofs.PayloadNumbers
Layer: Proofs
Purpose: What becomes of the numbers in a payload.  The rows of `events` and `outbox` and the messages
  in the broker carry the JSON value of the body when each number is the shortest decimal of the
  float64 it is read as, and the processor gets that value when each number is itself a float64.
Trusted boundary: `JsonText`
Main exports: Verbatim, PayloadKept, payload_kept_of_verbatim
-/
import WebhookProcessor.Model.Payloads
import WebhookProcessor.Proofs.Content

namespace WebhookProcessor

open Transition Json Binary64

def IsInteger (q : ℚ) : Prop :=
  q.den = 1

instance : DecidablePred IsInteger := fun q =>
  inferInstanceAs (Decidable (q.den = 1))

theorem IsInteger.exists_eq {q : ℚ} (integer : IsInteger q) : ∃ n : ℤ, q = n :=
  ⟨q.num, (Rat.den_eq_one_iff q).mp integer |>.symm⟩

/-- The text denotes the JSON value. -/
def Denotes (text : JsonText) (raw : String) (json : Value) : Prop :=
  ∃ stored, text.parse raw = some stored ∧ stored.Same json

/-- Wherever the service keeps the payload of the event or passes it on, it is the JSON value
`json`. -/
structure PayloadKept (text : JsonText) (s : System PayloadMap) (id : EventId) (json : Value) :
    Prop where
  events : ∃ row, s.db.event? id = some row ∧ Denotes text row.payload json
  outbox : ∃ row, s.db.outboxFor? id = some row ∧ Denotes text row.payload json
  broker : ∀ message ∈ s.history.enqueued, message.messageId = id →
    Denotes text message.body.payload json
  processor : ∀ event ∈ s.history.attempted, event.id = id → event.payload.json.Same json

/-- A float64 that no shorter decimal is read back as. -/
def Verbatim (q : ℚ) : Prop :=
  Representable q ∧ IsShortest q

instance : DecidablePred Verbatim := fun q =>
  decidable_of_iff (Representable q ∧ shortest q = q)
    (and_congr_right fun representable =>
      (printed_shortest representable).eq_self_iff representable)

/-- The number comes out of the tables and the broker as it went in. -/
def JsonText.Keeps (text : JsonText) (q : ℚ) : Prop :=
  text.printed (nearest q) = q

section Decoding

variable {text : JsonText} {json : Value} {payload : PayloadMap}

/-- A function that leaves the numbers of a value alone leaves the value alone. -/
theorem same_mapNumbers_iff (f : ℚ → ℚ) (distinct : json.DistinctKeys) :
    (json.canonical.mapNumbers f).Same json ↔ json.All fun number => f number = number := by
  rw [Tree.Same, ← Tree.canonical_mapNumbers, Tree.canonical_canonical, Tree.canonical_mapNumbers,
    Tree.mapNumbers_eq_self_iff, Tree.all_canonical_iff distinct]

/-- Decoding keeps the JSON value exactly when it rounds no number. -/
theorem same_decoded_iff (decoded : decodePayload json = some payload)
    (distinct : json.DistinctKeys) : payload.json.Same json ↔ json.All Representable := by
  rw [json_of_decodePayload decoded, Tree.canonical_mapNumbers, same_mapNumbers_iff _ distinct]
  exact ⟨Tree.All.imp fun _ => nearest_eq_self_iff.mp, Tree.All.imp fun _ => nearest_eq_self_iff.mpr⟩

/-- The text of the decoded map denotes the value when the printer undoes the rounding. -/
theorem denotes_render_iff (decoded : decodePayload json = some payload)
    (distinct : json.DistinctKeys) :
    Denotes text (text.render payload.json) json ↔ json.All text.Keeps := by
  have parsed := text.parse_render payload.json payload.floats
  rw [json_of_decodePayload decoded, Tree.canonical_mapNumbers, Tree.mapNumbers_mapNumbers]
    at parsed
  have kept := same_mapNumbers_iff (text.printed ∘ nearest) distinct
  rw [json_of_decodePayload decoded, Tree.canonical_mapNumbers]
  constructor
  · rintro ⟨stored, found, same⟩
    rw [parsed] at found
    cases found
    exact kept.mp same
  · exact fun keeps => ⟨_, parsed, kept.mpr keeps⟩

/-- A number that is a float64 comes out as it went in when nothing shorter is read back as it. -/
theorem keeps_iff_isShortest {q : ℚ} (float : Float64 q) : text.Keeps q ↔ IsShortest q := by
  rw [JsonText.Keeps, nearest_of_representable float.1]
  exact (text.printed_float q float).eq_self_iff float.1

/-- The numbers of a decoded value are float64s unless they are rounded. -/
theorem floats_of_decoded (decoded : decodePayload json = some payload)
    (representable : json.All Representable) : json.All Float64 := by
  unfold decodePayload at decoded
  split at decoded
  · rename_i accepted
    refine accepted.2.and representable |>.imp ?_
    rintro number ⟨inRange, float⟩
    rw [InRange, nearest_of_representable float] at inRange
    exact ⟨float, inRange⟩
  · cases decoded

end Decoding

variable {text : JsonText} {config : Config} {s : System PayloadMap}

/-- The columns with this id hold the text of the accepted payload. -/
theorem ContentSound.payload_eq {Payload : Type} {codec : Codec Payload} {s : System Payload}
    (sound : ContentSound codec s) {event : Event Payload} (accepted : event ∈ s.history.accepted)
    {eventType requestId payload : String}
    (submitted : Submitted codec s event.id eventType requestId payload) :
    codec.marshal event.payload = some payload := by
  obtain ⟨other, member, sameId, _, _, marshalled⟩ := submitted
  have same := List.inj_on_of_nodup_map sound.unique member accepted sameId
  rwa [same] at marshalled

/-- The tables and the broker carry the text of the decoded map, and the processor gets the map. -/
theorem payloadKept_iff (reached : Reachable (goCodec text) config s)
    {event : Event PayloadMap} (accepted : event ∈ s.history.accepted) {json : Value}
    (decoded : decodePayload json = some event.payload) (distinct : json.DistinctKeys) :
    PayloadKept text s event.id json ↔
      json.All text.Keeps ∧ (event ∈ s.history.attempted → json.All Representable) := by
  have sound := contentSound (goCodec_lawful text) reached
  have denotes : ∀ raw, (goCodec text).marshal event.payload = some raw →
      (Denotes text raw json ↔ json.All text.Keeps) := by
    intro raw marshalled
    cases marshalled
    exact denotes_render_iff decoded distinct
  have passes := same_decoded_iff decoded distinct
  constructor
  · rintro ⟨⟨row, found, kept⟩, _, _, processor⟩
    refine ⟨(denotes _ (sound.payload_eq accepted (sound.events _ row found))).mp kept, ?_⟩
    exact fun attempted => passes.mp (processor event attempted rfl)
  · rintro ⟨keeps, float⟩
    have stored := sound.stored event accepted
    obtain ⟨row, found⟩ := Option.ne_none_iff_exists'.mp stored
    obtain ⟨outboxRow, outboxFound⟩ :=
      Option.ne_none_iff_exists'.mp ((outboxSound reached).present event.id stored)
    constructor
    · refine ⟨row, found, ?_⟩
      exact (denotes _ (sound.payload_eq accepted (sound.events _ row found))).mpr keeps
    · refine ⟨outboxRow, outboxFound, ?_⟩
      exact (denotes _ (sound.payload_eq accepted (sound.outbox _ outboxRow outboxFound))).mpr keeps
    · intro message sent sameId
      obtain ⟨original, member, named, marshalled⟩ := sound.messages message sent
      have one := List.inj_on_of_nodup_map sound.unique member accepted (named.symm.trans sameId)
      rw [one] at marshalled
      rw [← Option.some.inj marshalled]
      exact (denotes _ rfl).mpr keeps
    · intro passed attempted sameId
      have one := List.inj_on_of_nodup_map sound.unique (sound.attempted passed attempted) accepted
        sameId
      rw [one] at attempted ⊢
      exact passes.mpr (float attempted)

theorem verbatim_of_integer {q : ℚ} (integer : IsInteger q) (small : |q| < 2 ^ 53) :
    Verbatim q := by
  obtain ⟨n, rfl⟩ := integer.exists_eq
  have bounded : |n| < 2 ^ 53 := by exact_mod_cast small
  exact ⟨⟨n, 0, bounded.le, by norm_num, by simp⟩, isShortest_of_abs_lt bounded⟩

/-- Let `createEventHandler` accept a body whose payload is a JSON value with distinct keys.  In every
later state of the service its rows, its messages and the events passed to the processor denote that
same JSON value if each of its numbers is a float64 that no shorter decimal is read back as, which
holds of every integer below `2 ^ 53` in size; once the event was passed to the processor, they
denote it only then. -/
theorem payload_kept_of_verbatim (reached : Reachable (goCodec text) config s)
    {event : Event PayloadMap} (accepted : event ∈ s.history.accepted)
    {body : EventJson} {header : String}
    (decoded : ((goCodec text).unmarshalEvent body).map
      (fun read => { read with requestId := header }) = some event)
    {json : Value} (parsed : text.parse body.payload = some json)
    (distinct : json.DistinctKeys) :
    (json.All Verbatim → PayloadKept text s event.id json) ∧
      (event ∈ s.history.attempted → PayloadKept text s event.id json → json.All Verbatim) ∧
      ((json.All fun number => IsInteger number ∧ |number| < 2 ^ 53) → json.All Verbatim) := by
  have payload : decodePayload json = some event.payload := by
    obtain ⟨read, unmarshalled, rfl⟩ := Option.map_eq_some_iff.mp decoded
    obtain ⟨value, opened, rfl⟩ := Option.map_eq_some_iff.mp unmarshalled
    change (text.parse body.payload).bind decodePayload = some value at opened
    rwa [parsed] at opened
  rw [payloadKept_iff reached accepted payload distinct]
  refine ⟨?_, ?_, ?_⟩
  · intro verbatim
    have representable := verbatim.imp fun number (both : Verbatim number) => both.1
    refine ⟨?_, fun _ => representable⟩
    have floats := floats_of_decoded payload representable
    exact (floats.and verbatim).imp fun number both => (keeps_iff_isShortest both.1).mpr both.2.2
  · rintro attempted ⟨keeps, representable⟩
    have floats := floats_of_decoded payload (representable attempted)
    exact (floats.and keeps).imp fun number both =>
      ⟨both.1.1, (keeps_iff_isShortest both.1).mp both.2⟩
  · exact Tree.All.imp fun number both => verbatim_of_integer both.1 both.2

/-- The float64 `2 ^ 54 + 8` is written as the shorter decimal 18014398509481990. -/
example : Representable 18014398509481992 ∧ ¬ Verbatim 18014398509481992 := by decide +kernel

def payloadEvent (payload : PayloadMap) : Event PayloadMap :=
  { id := Sample.event.id
    type := Sample.event.type
    requestId := Sample.event.requestId
    payload := payload }

/-- The body with the payload text `raw` is accepted, stored as `stored`, published, delivered and
passed to the processor. -/
def payloadRun (payload : PayloadMap) (raw stored : String) : List (Action PayloadMap) :=
  let message : OutboxMessage PayloadMap :=
    { id := 1
      event := payloadEvent payload
      attempts := 0
      dispatchToken := "token-1" }
  let claim : Claim PayloadMap :=
    { event := payloadEvent payload
      since := 0
      number := 1 }
  let sent : Message := { Sample.message with body := { Sample.body with payload := stored } }
  saveStatements 0 { Sample.body with payload := raw } (payloadEvent payload) stored 0 1 ++
    publishStatements 0 0 message sent.body ++ attemptStatements 0 sent claim none

def exactJson : Value :=
  .object
    (.member "ids"
      (.array (.item (.number (-9007199254740991)) (.item (.number 100000000000000000000) .noItem)))
      (.member "live" (.bool true) (.member "amount" (.number 100) .noMember)))

def exactText : String :=
  "\x7b\"ids\":[-9007199254740991,100000000000000000000],\"live\":true,\"amount\":100\x7d"

def exactPayload : PayloadMap :=
  (decodePayload exactJson).get (by decide +kernel)

/-- The keys are stored in another order, the integers as they came. -/
def exactRun : List (Action PayloadMap) :=
  payloadRun exactPayload exactText
    "\x7b\"amount\":100,\"ids\":[-9007199254740991,100000000000000000000],\"live\":true\x7d"

set_option maxRecDepth 4000 in
theorem payload_kept_of_verbatim_of_exactRun :
    ∃ s, run (step (goCodec .plain) Sample.config) System.initial exactRun = some s ∧
      s.history.attempted = [payloadEvent exactPayload] ∧
      PayloadKept .plain s "evt-1" exactJson := by
  have ran : (run (step (goCodec .plain) Sample.config) System.initial exactRun).map
      (fun s => (s.history.accepted, s.history.attempted)) =
        some ([payloadEvent exactPayload], [payloadEvent exactPayload]) := by
    decide +kernel
  obtain ⟨s, reaches, lists⟩ := Option.map_eq_some_iff.mp ran
  obtain ⟨accepted, attempted⟩ := Prod.mk.inj lists
  refine ⟨s, reaches, attempted, ?_⟩
  have decoded : ((goCodec .plain).unmarshalEvent { Sample.body with payload := exactText }).map
      (fun read => { read with requestId := "req-1" }) = some (payloadEvent exactPayload) := by
    decide +kernel
  have parsed : JsonText.plain.parse exactText = some exactJson := by
    decide +kernel
  exact (payload_kept_of_verbatim (Reachable.of_run reaches)
    (accepted ▸ List.mem_singleton_self _) decoded parsed (by decide +kernel)).1
    (by decide +kernel)

def roundedJson : Value :=
  .object (.member "id" (.number 9007199254740993) .noMember)

def roundedPayload : PayloadMap :=
  (decodePayload roundedJson).get (by decide +kernel)

/-- The body has `2 ^ 53 + 1`, the row `2 ^ 53`. -/
def roundedRun : List (Action PayloadMap) :=
  payloadRun roundedPayload "\x7b\"id\":9007199254740993\x7d" "\x7b\"id\":9007199254740992\x7d"

set_option maxRecDepth 4000 in
/-- The integer `2 ^ 53 + 1` of an accepted body reaches the tables, the broker and the processor as
`2 ^ 53`. -/
theorem payload_integer_changed :
    JsonText.plain.parse "\x7b\"id\":9007199254740993\x7d" = some roundedJson ∧
      roundedJson.DistinctKeys ∧ roundedJson.All IsInteger ∧
      ∃ s, run (step (goCodec .plain) Sample.config) System.initial roundedRun = some s ∧
        s.history.accepted = [payloadEvent roundedPayload] ∧
        (s.db.event? "evt-1").map EventRow.payload =
          some "\x7b\"id\":9007199254740992\x7d" ∧
        ¬ PayloadKept .plain s "evt-1" roundedJson := by
  refine ⟨by decide +kernel, by decide +kernel, by decide +kernel, ?_⟩
  have ran : (run (step (goCodec .plain) Sample.config) System.initial roundedRun).map
      (fun s => (s.history.accepted, s.history.attempted,
        (s.db.event? "evt-1").map EventRow.payload)) =
        some ([payloadEvent roundedPayload], [payloadEvent roundedPayload],
          some "\x7b\"id\":9007199254740992\x7d") := by
    decide +kernel
  have changed : ¬ roundedPayload.json.Same roundedJson := by
    decide +kernel
  obtain ⟨s, reaches, lists⟩ := Option.map_eq_some_iff.mp ran
  obtain ⟨accepted, others⟩ := Prod.mk.inj lists
  obtain ⟨attempted, stored⟩ := Prod.mk.inj others
  refine ⟨s, reaches, accepted, stored, ?_⟩
  intro kept
  exact changed (kept.processor _ (attempted ▸ List.mem_singleton_self _) rfl)

end WebhookProcessor
