import JavaOutline.Proofs.Json.Layout
import JavaOutline.Proofs.Json.Records

/-!
# Entities through JSON

An entity is a record of its value, its kind and its extent, and an extent a record of its ends.
Every JSON value that holds these records is read as the entity, from every text that spells it.
-/

namespace JavaOutline

/-! ## Values that hold an entity -/

/-- Whether a JSON value holds an extent. -/
def Extent.IsHeldBy (extent : Extent) (json : Json) : Prop :=
  json.IsRecord [("start", .natural extent.first), ("end", .natural extent.last)]

/-- Whether a JSON value holds an entity. -/
def Entity.IsHeldBy (entity : Entity) (json : Json) : Prop :=
  ∃ range, entity.extent.IsHeldBy range ∧
    json.IsRecord
      [("value", .ofString entity.value), ("type", .ofString entity.kind.name), ("range", range)]

theorem Entity.isHeldBy_json (entity : Entity) : entity.IsHeldBy entity.json :=
  ⟨entity.extent.json, Json.isRecord_ofMembers _, Json.isRecord_ofMembers _⟩

theorem Extent.ofJson?_eq {extent : Extent} (first_lt : extent.first < offsetBound)
    (last_lt : extent.last < offsetBound) {json : Json} (held : extent.IsHeldBy json) :
    ofJson? json = some extent := by
  have fields := held.record?_eq (by simp)
  simp only [List.map_cons, List.map_nil] at fields
  simp only [ofJson?, fields, Json.offset?, if_pos first_lt, if_pos last_lt,
    Option.bind_eq_bind, Option.bind_some]
  rfl

theorem EntityKind.ofJson?_name (kind : EntityKind) :
    ofJson? (.ofString kind.name) = some kind := by
  rw [Json.ofString, ofJson?, Json.text?_codePoints, Option.bind_some, ofName?_name]

theorem Entity.ofJson?_eq {entity : Entity} (first_lt : entity.extent.first < offsetBound)
    (last_lt : entity.extent.last < offsetBound) {json : Json} (held : entity.IsHeldBy json) :
    ofJson? json = some entity := by
  obtain ⟨range, range_held, record⟩ := held
  have fields := record.record?_eq (by simp)
  have value_read : (Json.ofString entity.value).string? = some entity.value :=
    Json.text?_codePoints entity.value
  simp only [List.map_cons, List.map_nil] at fields
  simp only [ofJson?, fields, value_read, EntityKind.ofJson?_name,
    Extent.ofJson?_eq first_lt last_lt range_held, Option.bind_eq_bind, Option.bind_some]
  rfl

/-! ## Texts that spell an entity -/

/-- Whether a text spells a JSON value, with any white space around it. -/
def Json.IsSpelledBy (json : Json) (text : String) : Prop :=
  ∃ left cs right, IsBlankText left ∧ IsBlankText right ∧ Spells cs json ∧
    text.toList = left ++ (cs ++ right)

theorem Entity.isPlain_json (entity : Entity) : entity.json.IsPlain := by
  simp only [json, Extent.json, Json.ofMembers, Json.ofString, List.map_cons, List.map_nil,
    Json.IsPlain, Json.MembersPlain, Json.isText_codePoints, and_self]

theorem Json.IsPlain.isSpelledBy_compact {json : Json} (plain : json.IsPlain) :
    json.IsSpelledBy json.compact :=
  ⟨[], json.compact.toList, [], isBlankText_nil, isBlankText_nil, plain.spells_compact, by simp⟩

/-- **Entities survive JSON.** An entity whose ends are offsets is read back from its compact form
and from every text that spells a JSON value that holds it. -/
theorem Entity.read?_compact_and_spelled {entity : Entity}
    (first_lt : entity.extent.first < offsetBound) (last_lt : entity.extent.last < offsetBound) :
    read? entity.json.compact = some entity ∧
      ∀ (json : Json) (text : String), entity.IsHeldBy json → json.IsSpelledBy text →
        read? text = some entity := by
  have read (json : Json) (text : String) (held : entity.IsHeldBy json)
      (spelled : json.IsSpelledBy text) : read? text = some entity := by
    obtain ⟨left, cs, right, blank_left, blank_right, spells, text_eq⟩ := spelled
    rw [read?, text_eq, spells.read?_eq blank_left blank_right, Option.bind_some,
      ofJson?_eq first_lt last_lt held]
  exact ⟨read _ _ entity.isHeldBy_json entity.isPlain_json.isSpelledBy_compact, read⟩

/-- A call whose text has a quote, a backslash and a line break, up to the last offset of all. -/
def quotingCall : Entity :=
  ⟨"f(\"\\\n\")", .methodInvocation, ⟨7, offsetBound - 1⟩⟩

/-- The members of the call in reverse after an unknown one, with an array for the extent. -/
def quotingCallReversed : Json :=
  .ofMembers
    [("line", .bool true), ("range", .array [.natural 7, .natural (offsetBound - 1)]),
     ("type", .ofString "METHOD_INVOCATION"), ("value", .ofString "f(\"\\\n\")")]

theorem quotingCall_isHeldBy_reversed : quotingCall.IsHeldBy quotingCallReversed := by
  have unknown : ∀ other ∈ [("line", Json.bool true)], other.1 ∉ ["value", "type", "range"] := by
    simp
  refine ⟨_, .array, .object ?_ unknown⟩
  exact List.reverse_perm ([_, _, _] ++ [_])

theorem Entity.read?_quotingCall :
    (7 < offsetBound ∧ offsetBound - 1 < offsetBound) ∧
      read? quotingCall.json.compact = some quotingCall ∧
      read? quotingCallReversed.compact = some quotingCall := by
  have bounds : quotingCall.extent.first < offsetBound ∧ quotingCall.extent.last < offsetBound := by
    decide
  have read := Entity.read?_compact_and_spelled bounds.1 bounds.2
  have plain : quotingCallReversed.IsPlain := by
    simp only [quotingCallReversed, Json.ofMembers, Json.ofString, List.map_cons, List.map_nil,
      Json.IsPlain, Json.MembersPlain, Json.AllPlain, Json.isText_codePoints, and_self]
  exact ⟨by decide, read.1, read.2 _ _ quotingCall_isHeldBy_reversed plain.isSpelledBy_compact⟩

example : quotingCallReversed.compact =
    "\x7b\"line\":true,\"range\":[7,18446744073709551615],\"type\":\"METHOD_INVOCATION\"," ++
      "\"value\":\"f(\\\"\\\\\\n\\\")\"\x7d" := by
  decide +kernel

end JavaOutline
