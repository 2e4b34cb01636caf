import Mathlib
import JavaOutline.Proofs.Reading.PlacedStatements
import JavaOutline.Reading.Declaration

/-!
# Declarations are placed

-/

set_option mvcgen.warning false

open Std.Do

namespace JavaOutline

open Construct

section Places

variable {before middle after : Cursor}

/-- A type as a member is placed where the type is. -/
theorem Construct.AllPlaced.memberType {decl : TypeDecl}
    (placed : AllPlaced [.type decl] before after) :
    AllPlaced [.member (.type decl.header decl.members)] before after := by
  cases placed with
  | cons earlier placed later =>
    cases placed with
    | mk spans solid parts toMiddle => exact .cons earlier (.mk spans nofun parts toMiddle) later

theorem Construct.Read?.memberType {result : Option TypeDecl}
    (read : Read? .type result before after) :
    Read? .member (result.map fun type => .type type.header type.members) before after := by
  cases result with
  | none => exact read
  | some type => exact AllPlaced.memberType read

@[grind .]
theorem Construct.AllPlaced.initializer {isStatic : Bool} {body : Block}
    (placed : AllPlaced [.block body] before after) :
    AllPlaced [.member (.initializer (after.spanFrom before.here) isStatic body)] before after :=
  .enclose placed nofun rfl

@[grind .]
theorem Construct.AllPlaced.field {type : TypeRef} {name : String}
    (placed : AllPlaced [.typeRef type] before after) :
    AllPlaced [.member (.field ⟨after.spanFrom before.here, type, name⟩)] before after :=
  .enclose placed nofun rfl

@[grind .]
theorem Construct.AllPlaced.method {result : Option TypeRef} {name : Name}
    {parameters : List Parameter} {body : Option Block}
    (front : AllPlaced (result.toList.map .typeRef ++ [.name name]) before middle)
    (inner : AllPlaced (parameters.map .parameter ++ body.toList.map .block) middle after) :
    AllPlaced [.member (.method ⟨after.spanFrom before.here, result, name, parameters, body⟩)]
      before after := by
  refine .enclose ?_ nofun rfl
  have parts := front.append inner
  simpa only [Construct.parts, Member.parts, List.append_assoc, List.cons_append,
    List.nil_append] using parts

@[grind .]
theorem Construct.AllPlaced.type {kind : TypeKind} {token : Token} {members : List Member}
    (order : middle.IsOrdered) (head : middle.rest.head? = some token)
    (earlier : before.Reaches middle)
    (placed : AllPlaced (members.map .member) middle.tail after) :
    AllPlaced [.type ⟨⟨after.spanFrom before.here, kind, ⟨token.text, token.span⟩⟩, members⟩]
      before after := by
  obtain ⟨rest, head⟩ := List.head?_eq_some_iff.mp head
  refine .enclose (.cons_of ?_ earlier placed) nofun rfl
  exact .token order head rfl rfl

@[grind .]
theorem Construct.AllPlaced.namelessType {kind : TypeKind} {members : List Member}
    (order : middle.IsOrdered) (earlier : before.Reaches middle)
    (placed : AllPlaced (members.map .member) middle after) :
    AllPlaced [.type ⟨⟨after.spanFrom before.here, kind, ⟨"", .point middle.here⟩⟩, members⟩]
      before after := by
  refine .enclose (.cons_of ?_ earlier placed) nofun rfl
  exact .point order rfl nofun rfl

end Places

namespace Parser

@[spec high]
theorem placed_manyParameters {step : Parser (Option (Option Parameter))} (origin : Cursor)
    (read : ∀ before : Cursor, origin.Reaches before → ⦃before.place⦄ step
      ⦃⇓ result after => ⌜Read? .parameter result.join before after⌝⦄) :
    ⦃origin.place⦄ many step ⦃⇓ parameters after =>
      ⌜AllPlaced ((parameters.filterMap id).map .parameter) origin after⌝⦄ :=
  placed_manyOptions .parameter read

@[spec high]
theorem placed_manyMembers {step : Parser (Option (Option Member))} (origin : Cursor)
    (read : ∀ before : Cursor, origin.Reaches before → ⦃before.place⦄ step
      ⦃⇓ result after => ⌜Read? .member result.join before after⌝⦄) :
    ⦃origin.place⦄ many step ⦃⇓ members after =>
      ⌜AllPlaced ((members.filterMap id).map .member) origin after⌝⦄ :=
  placed_manyOptions .member read

@[spec high]
theorem placed_manyTypes {step : Parser (Option (Option TypeDecl))} (origin : Cursor)
    (read : ∀ before : Cursor, origin.Reaches before → ⦃before.place⦄ step
      ⦃⇓ result after => ⌜Read? .type result.join before after⌝⦄) :
    ⦃origin.place⦄ many step ⦃⇓ types after =>
      ⌜AllPlaced ((types.filterMap id).map .type) origin after⌝⦄ :=
  placed_manyOptions .type read

@[spec high]
theorem placed_parameters (before : Cursor) (order : before.IsOrdered) :
    ⦃before.place⦄ parameters ⦃⇓ parameters after =>
      ⌜AllPlaced (parameters.map .parameter) before after⌝⦄ := by
  mvcgen [parameters, -onward_parameters] <;> grind -ring -linarith

section Members

-- A member begins before its modifiers, at the place `before`.
variable {before current : Cursor} {start : Nat} (here : before.here = start)

include here

theorem placed_methodFrom {type : TypeRef} {name : Token} (order : current.IsOrdered)
    (front : AllPlaced [.typeRef type, .name ⟨name.text, name.span⟩] before current) :
    ⦃current.place⦄ methodFrom start type name ⦃⇓ method after =>
      ⌜AllPlaced [.member (.method method)] before after⌝⦄ := by
  have front : AllPlaced ((some type).toList.map .typeRef ++ [.name ⟨name.text, name.span⟩])
    before current := front
  have blocks := placed_block
  mvcgen [methodFrom, blocks, -place_block] <;> clear blocks <;> grind -ring -linarith

theorem placed_constructorFrom {name : Token} {rest : List Token} (order : current.IsOrdered)
    (reaches : before.Reaches current) (head : current.rest = name :: rest) :
    ⦃current.place⦄ constructorFrom start name ⦃⇓ method after =>
      ⌜AllPlaced [.member (.method method)] before after⌝⦄ := by
  have front : AllPlaced ((none : Option TypeRef).toList.map .typeRef ++
      [.name ⟨name.text, name.span⟩]) before current.tail :=
    AllPlaced.widen (.token order head rfl rfl) reaches .refl
  have blocks := placed_block
  mvcgen [constructorFrom, blocks, -place_block] <;> clear blocks <;> grind -ring -linarith

theorem placed_typedMember? (order : before.IsOrdered) (reaches : before.Reaches current) :
    ⦃current.place⦄ typedMember? start ⦃⇓ result after =>
      ⌜Read? .member result before after⌝⦄ := by
  have methods := @placed_methodFrom before
  mvcgen [typedMember?, methods] <;> clear methods <;> grind -ring -linarith

end Members

section Types

variable {type? : Parser (Option TypeDecl)}
  (places : ∀ before : Cursor, before.IsOrdered →
    ⦃before.place⦄ type? ⦃⇓ result after => ⌜Read? .type result before after⌝⦄)

include places

theorem placed_memberWith (enclosing : String) (before : Cursor) (order : before.IsOrdered) :
    ⦃before.place⦄ memberWith type? enclosing ⦃⇓ result after =>
      ⌜Read? .member result before after⌝⦄ := by
  have blocks := placed_block
  have members := @placed_typedMember? before
  have constructors := @placed_constructorFrom before
  mvcgen [memberWith, places, blocks, constructors, members, -place_block,
    -readAfter_memberWith] <;>
    clear places blocks constructors members <;> grind -ring -linarith [Read?.memberType]

theorem placed_membersWith (enclosing : String) (before : Cursor) (order : before.IsOrdered) :
    ⦃before.place⦄ membersWith type? enclosing ⦃⇓ members after =>
      ⌜AllPlaced (members.map .member) before after⌝⦄ := by
  have members := placed_memberWith places
  mvcgen [membersWith, members, -readAfter_membersWith, -readAfter_memberWith,
    -readAfter_manyMembers] <;> clear places members <;> grind -ring -linarith

theorem placed_typeDeclWith (before : Cursor) (order : before.IsOrdered) :
    ⦃before.place⦄ typeDeclWith type? ⦃⇓ result after =>
      ⌜Read? .type result before after⌝⦄ := by
  have members := placed_membersWith places
  mvcgen [typeDeclWith, members, -readAfter_membersWith] <;> clear places members <;>
    grind -ring -linarith

end Types

theorem placed_typeDeclUpTo (n : Nat) (before : Cursor) (order : before.IsOrdered) :
    ⦃before.place⦄ typeDeclUpTo n ⦃⇓ result after => ⌜Read? .type result before after⌝⦄ := by
  induction n generalizing before with
  | zero =>
      refine triple_iff.mpr ?_
      rintro cursor rfl
      exact Cursor.Reaches.refl
  | succ n induction => exact placed_typeDeclWith induction before order

theorem placed_typeDecls (before : Cursor) (order : before.IsOrdered) :
    ⦃before.place⦄ typeDecls ⦃⇓ types after => ⌜AllPlaced (types.map .type) before after⌝⦄ := by
  have types := placed_typeDeclUpTo
  mvcgen [typeDecls, types, -readAfter_typeDecls, -readAfter_typeDeclUpTo, -readAfter_manyTypes] <;>
    clear types <;> grind -ring -linarith

theorem placed_compilationUnit (size : Nat) (before : Cursor) (order : before.IsOrdered) :
    ⦃before.place⦄ compilationUnit size ⦃⇓ unit after =>
      ⌜unit.span = ⟨0, size⟩ ∧ AllPlaced (unit.types.map .type) before after⌝⦄ := by
  have types := placed_typeDecls
  mvcgen [compilationUnit, types, -readAfter_typeDecls] <;> clear types <;> grind -ring -linarith

end Parser

end JavaOutline
