import JavaOutline.Entity.Json
import Mathlib.Data.List.Perm.Basic

/-!
# Records as JSON values

A value holds a record if it is an object with the fields of the record, in any order and among any
others, or an array of their values in order. Either is read as the values of the fields in order.
-/

namespace JavaOutline.Json

/-- Whether a value holds a record with the given fields. -/
inductive IsRecord (fields : List (String × Json)) : Json → Prop
  | object {members others : List (String × Json)} (perm : members.Perm (fields ++ others))
      (unknown : ∀ other ∈ others, other.1 ∉ fields.map Prod.fst) :
      IsRecord fields (.ofMembers members)
  | array : IsRecord fields (.array (fields.map Prod.snd))

theorem isRecord_ofMembers (fields : List (String × Json)) :
    IsRecord fields (.ofMembers fields) := by
  have perm : fields.Perm (fields ++ []) := by rw [List.append_nil]
  exact .object perm nofun

theorem mapM_map_eq_some {α β γ : Type} {f : β → Option γ} {g : α → β} {h : α → γ} {xs : List α}
    (found : ∀ x ∈ xs, f (g x) = some (h x)) : (xs.map g).mapM f = some (xs.map h) := by
  induction xs with
  | nil => rfl
  | cons x xs induction =>
      rw [List.map_cons, List.mapM_cons, found x (List.mem_cons_self ..),
        induction fun y member => found y (List.mem_cons_of_mem x member)]
      rfl

theorem text?_codePoints (text : String) : text? (codePoints text) = some text := by
  have chars : (text.toList.map Char.toNat).mapM (fun n =>
      if Nat.isValidChar n then some (Char.ofNat n) else none) = some (text.toList.map id) := by
    refine mapM_map_eq_some fun c _ => ?_
    have valid : c.toNat.isValidChar := c.valid
    rw [if_pos valid, Char.ofNat_toNat, id]
  rw [text?, codePoints, chars, List.map_id, Option.map_some, String.ofList_toList]

theorem mapM_keys_ofMembers (members : List (String × Json)) :
    (members.map fun (key, value) => (codePoints key, value)).mapM
      (fun (key, value) => (text? key).map (·, value)) = some members := by
  have texts (member : String × Json) (_ : member ∈ members) :
      (text? (codePoints member.1)).map (·, member.2) = some (id member) := by
    rw [text?_codePoints, Option.map_some, id]
  exact (mapM_map_eq_some texts).trans (by rw [List.map_id])

theorem filter_name_eq_singleton {fields : List (String × Json)}
    (distinct : (fields.map Prod.fst).Nodup) {name : String} {value : Json}
    (known : (name, value) ∈ fields) : fields.filter (·.1 = name) = [(name, value)] := by
  induction fields with
  | nil => cases known
  | cons field fields induction =>
      obtain ⟨apart, distinct⟩ := List.nodup_cons.mp distinct
      rcases List.mem_cons.mp known with rfl | known
      · have others : fields.filter (·.1 = name) = [] := by
          rw [List.filter_eq_nil_iff]
          intro other member same
          exact apart (List.mem_map.mpr ⟨other, member, of_decide_eq_true same⟩)
        rw [List.filter_cons_of_pos (by simp), others]
      · have differs : field.1 ≠ name := by
          rintro rfl
          exact apart (List.mem_map.mpr ⟨_, known, rfl⟩)
        rw [List.filter_cons_of_neg (by simpa using differs), induction distinct known]

/-- A field is found whatever stands before and after it. -/
theorem member?_eq_some {fields members others : List (String × Json)}
    (distinct : (fields.map Prod.fst).Nodup) (perm : members.Perm (fields ++ others))
    (unknown : ∀ other ∈ others, other.1 ∉ fields.map Prod.fst) {name : String} {value : Json}
    (known : (name, value) ∈ fields) : member? members name = some value := by
  have others_nil : others.filter (·.1 = name) = [] := by
    rw [List.filter_eq_nil_iff]
    intro other member same
    exact unknown other member
      (List.mem_map.mpr ⟨(name, value), known, (of_decide_eq_true same).symm⟩)
  have found : members.filter (·.1 = name) = [(name, value)] := by
    rw [← List.perm_singleton, ← filter_name_eq_singleton distinct known]
    simpa [others_nil] using perm.filter (·.1 = name)
  rw [member?, found]

/-- **Both forms of a record.** A record is read as the values of its fields in order, from an
object whatever the order of its members and whatever other members it has, or from an array. -/
theorem IsRecord.record?_eq {fields : List (String × Json)} {json : Json}
    (record : IsRecord fields json) (distinct : (fields.map Prod.fst).Nodup) :
    json.record? (fields.map Prod.fst) = some (fields.map Prod.snd) := by
  cases record with
  | object perm unknown =>
      rw [ofMembers, record?, mapM_keys_ofMembers]
      exact mapM_map_eq_some fun _ known => member?_eq_some distinct perm unknown known
  | array => simp [record?]

end JavaOutline.Json
