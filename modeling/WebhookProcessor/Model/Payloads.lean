/-
Module: WebhookProcessor.Model.Payloads
Layer: Model
Purpose: `encoding/json` on `models.go: Event.Payload`, a `map[string]any`.  A number decoded into
  an `any` becomes the nearest float64, a number too large for one fails the decoding, the last of
  equal keys is kept, and `json.Marshal` lists the keys of a map in order and writes a float64 with
  the fewest digits that are read back as it.
Trusted boundary: the texts of `encoding/json` are the parameter `JsonText`, which carries what is
  assumed of them.
Main exports: JsonText, PayloadMap, decodePayload, goCodec, goCodec_lawful, JsonText.plain
-/
import WebhookProcessor.Json.Text
import WebhookProcessor.Model.Data
import WebhookProcessor.Numeric.Shortest

namespace WebhookProcessor

open Json Binary64

/-- A finite float64. -/
def Float64 (q : ℚ) : Prop :=
  Representable q ∧ |q| < 2 ^ 1024

/-- The texts of `encoding/json`.  `parse` is the value that a text denotes, with exact numbers;
`render` is the text of a decoded value, in which the float64 `q` stands as the number
`printed q`: `strconv.AppendFloat` is called with precision -1. -/
structure JsonText where
  parse : String → Option Value
  render : Value → String
  printed : ℚ → ℚ
  printed_float : ∀ q, Float64 q → Printed q (printed q)
  parse_render : ∀ value : Value, value.All Float64 →
    parse (render value) = some (value.mapNumbers printed)

/-- What `map[string]any` can be filled from: a nil map stands for `null`. -/
def IsMap : Value → Prop
  | .null | .object _ => True
  | _ => False

instance : DecidablePred IsMap
  | .null | .object _ => .isTrue trivial
  | .bool _ | .number _ | .string _ | .array _ => .isFalse not_false

/-- `map[string]any` after `json.Unmarshal`, read as the JSON value it stands for: its numbers are
float64s and the members of its maps are listed by key. -/
structure PayloadMap where
  json : Value
  isMap : IsMap json
  sorted : json.canonical = json
  floats : json.All Float64
deriving DecidableEq

theorem isMap_mapNumbers (f : ℚ → ℚ) (json : Value) : IsMap (json.mapNumbers f) ↔ IsMap json := by
  cases json with
  | _ => rfl

theorem isMap_canonical (json : Value) : IsMap json.canonical ↔ IsMap json := by
  cases json with
  | _ => rfl

theorem floats_decoded {json : Value} (inRange : json.All InRange) :
    (json.mapNumbers nearest).canonical.All Float64 := by
  apply Tree.All.canonical
  apply (Tree.all_mapNumbers nearest json).mpr
  exact inRange.imp fun number bounded => ⟨representable_nearest number, bounded⟩

/-- `json.Unmarshal` of a JSON value into the payload map. -/
def decodePayload (json : Value) : Option PayloadMap :=
  if accepted : IsMap json ∧ json.All InRange then
    some
      { json := (json.mapNumbers nearest).canonical
        isMap := (isMap_canonical _).mpr ((isMap_mapNumbers nearest json).mpr accepted.1)
        sorted := Tree.canonical_canonical _
        floats := floats_decoded accepted.2 }
  else none

theorem json_of_decodePayload {json : Value} {payload : PayloadMap}
    (decoded : decodePayload json = some payload) :
    payload.json = (json.mapNumbers nearest).canonical := by
  unfold decodePayload at decoded
  split at decoded
  · cases decoded
    rfl
  · cases decoded

/-- `json.Marshal` and `json.Unmarshal` on payload maps; a map of finite numbers always
marshals. -/
def goCodec (text : JsonText) : Codec PayloadMap :=
  { marshal := fun payload => some (text.render payload.json)
    unmarshal := fun raw => (text.parse raw).bind decodePayload }

/-- What is marshalled decodes to the same map: each number is read back as the float64 it was
written for. -/
theorem decodePayload_printed (text : JsonText) (payload : PayloadMap) :
    decodePayload (payload.json.mapNumbers text.printed) = some payload := by
  have isMap := (isMap_mapNumbers text.printed payload.json).mpr payload.isMap
  have inRange : (payload.json.mapNumbers text.printed).All InRange := by
    apply (Tree.all_mapNumbers text.printed payload.json).mpr
    apply payload.floats.imp
    intro number float
    rw [InRange, (text.printed_float number float).readBack]
    exact float.2
  have readBack : (payload.json.mapNumbers text.printed).mapNumbers nearest = payload.json := by
    rw [Tree.mapNumbers_mapNumbers, Tree.mapNumbers_eq_self_iff]
    exact payload.floats.imp fun number float => (text.printed_float number float).readBack
  rw [decodePayload, dif_pos ⟨isMap, inRange⟩]
  simp only [readBack, payload.sorted]

theorem goCodec_lawful (text : JsonText) : (goCodec text).Lawful := by
  constructor
  intro payload _
  refine ⟨_, rfl, ?_⟩
  change (text.parse (text.render payload.json)).bind decodePayload = some payload
  rw [text.parse_render _ payload.floats]
  exact decodePayload_printed text payload

/-- Texts without blanks. -/
def JsonText.plain : JsonText :=
  { parse := Json.parse
    render := fun value => Json.render (value.mapNumbers shortest)
    printed := shortest
    printed_float := fun _ float => printed_shortest float.1
    parse_render := fun value floats => by
      apply Json.parse_render
      apply (Tree.all_mapNumbers shortest value).mpr
      exact floats.imp fun _ float => terminating_shortest float.1 }

end WebhookProcessor
