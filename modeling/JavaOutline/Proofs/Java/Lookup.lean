import JavaOutline.Java.Declaration
import Mathlib.Data.List.Lex
import Mathlib.Data.List.Pairwise

/-!
# Looking up methods

A method is declared at a place: the index of a type in its file, then the index of a member in each
type around it. The methods of a file are listed in the order of their places, and the look-up of a
name stops at the first of them that has it, so it finds the earliest declaration.
-/

namespace JavaOutline

namespace Member

/-! ## The two traversals -/

mutual

theorem findMethod?_eq_find? (name : String) (member : Member) :
    member.findMethod? name = member.methods.find? (·.name.text = name) := by
  cases member with
  | field | initializer => rfl
  | method found =>
      rw [findMethod?, methods, List.find?_singleton]
      simp
  | type header members => exact findMethodIn?_eq_find? name members

/-- The look-up in some members finds the first of their methods that has the name. -/
theorem findMethodIn?_eq_find? (name : String) (members : List Member) :
    findMethodIn? name members = (methodsOf members).find? (·.name.text = name) := by
  cases members with
  | nil => rfl
  | cons member members =>
      rw [findMethodIn?, methodsOf, List.find?_append, findMethod?_eq_find? name member,
        findMethodIn?_eq_find? name members]

end

/-! ## Places -/

/-- Whether a member declares a method at a place in it: it is the method itself, or a type with a
member that declares it. -/
inductive Declares : Member → List Nat → Method → Prop
  | method (found : Method) : Declares (.method found) [] found
  | type {header : TypeHeader} {members : List Member} {index : Nat} {member : Member}
      {place : List Nat} {found : Method} (stands : members[index]? = some member)
      (declares : member.Declares place found) :
      Declares (.type header members) (index :: place) found

mutual

/-- The methods that a member declares, with their places in it. -/
def places : Member → List (List Nat × Method)
  | .method found => [([], found)]
  | .type _ members => placesFrom 0 members
  | .field _ | .initializer .. => []

/-- The methods that some members declare, with their places, where the first of the members has the
given index. -/
def placesFrom (first : Nat) : List Member → List (List Nat × Method)
  | [] => []
  | member :: members =>
    member.places.map (fun (place, found) => (first :: place, found)) ++
      placesFrom (first + 1) members

end

mutual

theorem map_snd_places (member : Member) : member.places.map (·.2) = member.methods := by
  cases member with
  | field | initializer | method => rfl
  | type header members => exact map_snd_placesFrom 0 members

theorem map_snd_placesFrom (first : Nat) (members : List Member) :
    (placesFrom first members).map (·.2) = methodsOf members := by
  cases members with
  | nil => rfl
  | cons member members =>
      rw [placesFrom, methodsOf, List.map_append, List.map_map, ← map_snd_places member,
        ← map_snd_placesFrom (first + 1) members]
      rfl

end

mutual

theorem mem_places_iff {member : Member} {place : List Nat} {found : Method} :
    (place, found) ∈ member.places ↔ member.Declares place found := by
  cases member with
  | field | initializer => exact ⟨nofun, nofun⟩
  | method =>
      rw [places, List.mem_singleton, Prod.mk.injEq]
      constructor
      · rintro ⟨rfl, rfl⟩
        exact .method _
      · rintro ⟨⟩
        exact ⟨rfl, rfl⟩
  | type header members =>
      rw [places, mem_placesFrom_iff]
      constructor
      · rintro ⟨index, member, rest, stands, rfl, declares⟩
        rw [Nat.zero_add]
        exact .type stands declares
      · rintro (_ | @⟨_, _, index, member, rest, _, stands, declares⟩)
        exact ⟨index, member, rest, stands, by rw [Nat.zero_add], declares⟩

theorem mem_placesFrom_iff {first : Nat} {members : List Member} {place : List Nat}
    {found : Method} :
    (place, found) ∈ placesFrom first members ↔ ∃ index member rest,
      members[index]? = some member ∧ place = (first + index) :: rest ∧
        member.Declares rest found := by
  cases members with
  | nil => simp [placesFrom]
  | cons head members =>
      rw [placesFrom, List.mem_append, mem_placesFrom_iff, List.mem_map]
      constructor
      · rintro (⟨⟨rest, found⟩, member, ⟨⟩⟩ | ⟨index, member, rest, stands, rfl, declares⟩)
        · exact ⟨0, head, rest, rfl, rfl, mem_places_iff.mp member⟩
        · exact ⟨index + 1, member, rest, stands, by rw [Nat.add_right_comm, Nat.add_assoc],
            declares⟩
      · rintro ⟨index, member, rest, stands, rfl, declares⟩
        cases index with
        | zero =>
            cases stands
            exact .inl ⟨(rest, found), mem_places_iff.mpr declares, rfl⟩
        | succ index =>
            exact .inr ⟨index, member, rest, stands, by rw [Nat.add_right_comm, Nat.add_assoc],
              declares⟩

end

mutual

/-- The methods of a member are listed in the order of their places. -/
theorem pairwise_places (member : Member) :
    member.places.Pairwise fun left right => left.1 < right.1 := by
  cases member with
  | field | initializer => exact .nil
  | method => exact List.pairwise_singleton _ _
  | type header members => exact pairwise_placesFrom 0 members

theorem pairwise_placesFrom (first : Nat) (members : List Member) :
    (placesFrom first members).Pairwise fun left right => left.1 < right.1 := by
  cases members with
  | nil => exact .nil
  | cons member members =>
      rw [placesFrom, List.pairwise_append, List.pairwise_map]
      refine ⟨?_, pairwise_placesFrom (first + 1) members, ?_⟩
      · exact (pairwise_places member).imp fun lt => List.cons_lt_cons_iff.mpr (.inr ⟨rfl, lt⟩)
      · rintro left here ⟨place, found⟩ later
        obtain ⟨⟨rest, _⟩, -, rfl⟩ := List.mem_map.mp here
        obtain ⟨index, _, rest', -, rfl, -⟩ := mem_placesFrom_iff.mp later
        exact List.cons_lt_cons_iff.mpr (.inl (by omega))

end

end Member

/-- In a list by increasing places, the first value that is sought is the one with the least
place. -/
theorem find?_map_snd_eq_some_iff {α : Type} {entries : List (List Nat × α)}
    (increasing : entries.Pairwise fun left right => left.1 < right.1) {sought : α → Bool}
    {value : α} :
    (entries.map (·.2)).find? sought = some value ↔
      ∃ place, (place, value) ∈ entries ∧ sought value = true ∧
        ∀ place' other, (place', other) ∈ entries → sought other = true → place ≤ place' := by
  constructor
  · intro found
    rw [List.find?_map, Option.map_eq_some_iff] at found
    obtain ⟨⟨place, _⟩, found, rfl⟩ := found
    obtain ⟨is_sought, before, after, rfl, passed⟩ := List.find?_eq_some_iff_append.mp found
    refine ⟨place, List.mem_append_right _ List.mem_cons_self, is_sought, ?_⟩
    intro place' other member other_sought
    rcases List.mem_append.mp member with earlier | later
    · have := passed _ earlier
      simp [other_sought] at this
    · rcases List.mem_cons.mp later with same | later
      · exact (Prod.mk.inj same).1 ▸ le_refl _
      · have apart := (List.pairwise_append.mp increasing).2.1
        exact le_of_lt ((List.pairwise_cons.mp apart).1 _ later)
  · rintro ⟨place, member, is_sought, least⟩
    obtain ⟨before, after, rfl⟩ := List.append_of_mem member
    rw [List.find?_map, Option.map_eq_some_iff]
    refine ⟨(place, value), List.find?_eq_some_iff_append.mpr ?_, rfl⟩
    refine ⟨is_sought, before, after, rfl, ?_⟩
    rintro ⟨place', other⟩ earlier
    have lt := (List.pairwise_append.mp increasing).2.2 _ earlier _ List.mem_cons_self
    rw [Bool.not_eq_true', Function.comp_apply]
    by_contra other_sought
    rw [Bool.not_eq_false] at other_sought
    exact absurd lt (not_lt.mpr (least _ _ (List.mem_append_left _ earlier) other_sought))

namespace CompilationUnit

/-- The types of a file as members. -/
def members (unit : CompilationUnit) : List Member :=
  unit.types.map fun type => .type type.header type.members

/-- Whether a file declares a method at a place: the index of a type, and the place in the type. -/
def Declares (unit : CompilationUnit) (place : List Nat) (found : Method) : Prop :=
  ∃ index type rest, unit.types[index]? = some type ∧ place = index :: rest ∧
    (Member.type type.header type.members).Declares rest found

variable (unit : CompilationUnit)

theorem methodsOf_members : Member.methodsOf unit.members = unit.methods := by
  rw [members, methods]
  induction unit.types with
  | nil => rfl
  | cons type types induction =>
      rw [List.map_cons, Member.methodsOf, induction, Member.methods, List.flatMap_cons]

theorem findMethodIn?_members (name : String) :
    Member.findMethodIn? name unit.members = unit.findMethod? name := by
  rw [members, findMethod?]
  induction unit.types with
  | nil => rfl
  | cons type types induction =>
      rw [List.map_cons, Member.findMethodIn?, induction, Member.findMethod?, List.findSome?_cons]
      cases Member.findMethodIn? name type.members <;> rfl

variable {unit}

theorem mem_placesFrom_members_iff {place : List Nat} {found : Method} :
    (place, found) ∈ Member.placesFrom 0 unit.members ↔ unit.Declares place found := by
  rw [Member.mem_placesFrom_iff]
  simp only [members, List.getElem?_map, Option.map_eq_some_iff, Nat.zero_add]
  constructor
  · rintro ⟨index, _, rest, ⟨type, stands, rfl⟩, place_eq, declares⟩
    exact ⟨index, type, rest, stands, place_eq, declares⟩
  · rintro ⟨index, type, rest, stands, place_eq, declares⟩
    exact ⟨index, _, rest, ⟨type, stands, rfl⟩, place_eq, declares⟩

/-- **A look-up finds the earliest declaration.** It gives the first of the listed methods that has
the name, and nothing if none has it; and this is the method of the name that is declared at the
least place. -/
theorem findMethod?_first_declared (unit : CompilationUnit) (name : String) :
    unit.findMethod? name = unit.methods.find? (·.name.text = name) ∧
    (unit.findMethod? name = none ↔ ∀ method ∈ unit.methods, method.name.text ≠ name) ∧
    ∀ method, unit.findMethod? name = some method ↔
      ∃ place, unit.Declares place method ∧ method.name.text = name ∧
        ∀ place' other, unit.Declares place' other → other.name.text = name → place ≤ place' := by
  have first : unit.findMethod? name = unit.methods.find? (·.name.text = name) := by
    rw [← findMethodIn?_members, Member.findMethodIn?_eq_find?, methodsOf_members]
  refine ⟨first, ?_, fun method => ?_⟩
  · rw [first, List.find?_eq_none]
    simp
  · rw [first, ← methodsOf_members, ← Member.map_snd_placesFrom 0,
      find?_map_snd_eq_some_iff (Member.pairwise_placesFrom 0 unit.members)]
    simp [mem_placesFrom_members_iff]

end CompilationUnit

end JavaOutline
