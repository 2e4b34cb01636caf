import JavaOutline.Entity.Basic
import JavaOutline.Json.Read
import JavaOutline.Json.Write

/-!
# Entities as JSON

An entity is written as an object with the members `value`, `type` and `range`, and a range as an
object with the members `start` and `end`. Reading is more liberal: members may stand in any order
and unknown ones are passed over, and in place of either object there may be an array of its values
in order. A known member must not be repeated.
-/

namespace JavaOutline

namespace Extent

/-- An extent as a JSON value. -/
def json (extent : Extent) : Json :=
  .ofMembers [("start", .natural extent.first), ("end", .natural extent.last)]

end Extent

namespace Entity

/-- An entity as a JSON value. -/
def json (entity : Entity) : Json :=
  .ofMembers
    [("value", .ofString entity.value), ("type", .ofString entity.kind.name),
     ("range", entity.extent.json)]

end Entity

namespace Json

/-- The value of the one member of a name; `none` if it is absent or repeated. -/
def member? (members : List (String × Json)) (name : String) : Option Json :=
  match members.filter (·.1 = name) with
  | [(_, value)] => some value
  | _ => none

/-- The values of a record with the given member names, in their order, from an object or from an
array of as many items. All keys of the object must be texts. -/
def record? (names : List String) : Json → Option (List Json)
  | .array items => if items.length = names.length then some items else none
  | .object members => do
    let members ← members.mapM fun (key, value) => (text? key).map (·, value)
    names.mapM (member? members)
  | _ => none

/-- The offset that a value stands for. -/
def offset? : Json → Option Nat
  | .natural n => if n < offsetBound then some n else none
  | _ => none

/-- The text that a value stands for. -/
def string? : Json → Option String
  | .string codePoints => text? codePoints
  | _ => none

end Json

/-- Reads an extent from a JSON value. -/
def Extent.ofJson? (json : Json) : Option Extent := do
  match ← json.record? ["start", "end"] with
  | [first, last] => return ⟨← first.offset?, ← last.offset?⟩
  | _ => none

/-- Reads a kind from a JSON value: its name, or an object with the name as only key and with the
value `null`. -/
def EntityKind.ofJson? : Json → Option EntityKind
  | .string codePoints => (Json.text? codePoints).bind ofName?
  | .object [(key, .null)] => (Json.text? key).bind ofName?
  | _ => none

/-- Reads an entity from a JSON value. -/
def Entity.ofJson? (json : Json) : Option Entity := do
  match ← json.record? ["value", "type", "range"] with
  | [value, kind, extent] =>
    return ⟨← value.string?, ← EntityKind.ofJson? kind, ← Extent.ofJson? extent⟩
  | _ => none

/-- Reads an entity from a JSON text. -/
def Entity.read? (text : String) : Option Entity :=
  (Json.read? text.toList).bind ofJson?

end JavaOutline
