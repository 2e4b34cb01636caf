import Mathlib
import JavaOutline.Proofs.Java.Lookup
import JavaOutline.Proofs.Reading.Statements
import JavaOutline.Reading.Declaration

/-!
# Methods are laid out

Every method of a file was read somewhere among the tokens of the file: its span holds at least one
token, and its body is laid out inside it. Looking a method up by its name finds one of these.
-/

set_option mvcgen.warning false

open Std.Do

namespace JavaOutline

namespace Cursor

/-- Whether reading at least one token leads from one place to another. -/
def ReachesOn (before after : Cursor) : Prop :=
  ∃ cursor, before.Reaches cursor ∧ cursor.rest ≠ [] ∧ cursor.tail.Reaches after

@[grind →]
theorem ReachesOn.reaches {before after : Cursor} (reachesOn : before.ReachesOn after) :
    before.Reaches after := by
  obtain ⟨cursor, reaches, _, later⟩ := reachesOn
  exact (reaches.tail).trans later

@[grind →]
theorem ReachesOn.trans {before middle after : Cursor} (reachesOn : before.ReachesOn middle)
    (reaches : middle.Reaches after) : before.ReachesOn after := by
  obtain ⟨cursor, first, more, later⟩ := reachesOn
  exact ⟨cursor, first, more, later.trans reaches⟩

/-- On tokens in order, the span over at least one token is not empty. -/
theorem ReachesOn.here_lt_behind {source : Source} {before after : Cursor}
    (reachesOn : before.ReachesOn after) (order : before.InOrder source) :
    before.here < after.behind := by
  obtain ⟨cursor, reaches, more, later⟩ := reachesOn
  have here_le := order.here_le reaches
  have here_lt := (order.reaches reaches).here_lt_behind_tail more
  have behind_le := (order.reaches reaches).tail.behind_le later
  omega

end Cursor

/-- Whether a block was read from one place to another, beginning with its brace. -/
def Block.ReadFrom (body : Block) (before after : Cursor) : Prop :=
  before.isAt .openBrace ∧ Parser.block before = (body, after)

theorem Block.ReadFrom.laidOut {body : Block} {before after : Cursor}
    (read : body.ReadFrom before after) : body.LaidOut before after := by
  have laidOut := Parser.laidOut_block before
  rw [read.2] at laidOut
  exact laidOut

/-- Whether a method was read between two places. -/
structure Method.LaidOut (method : Method) (before after : Cursor) : Prop where
  /-- At least one token was read. -/
  reachesOn : before.ReachesOn after
  /-- The span runs from the one place to the other. -/
  spans : before.Spans method.span after
  /-- The body was read in between. -/
  read : ∀ body, method.body = some body → before.Between body.ReadFrom after

/-- The body of a method is laid out inside it. -/
theorem Method.LaidOut.body {method : Method} {before after : Cursor}
    (laidOut : method.LaidOut before after) (body : Block) (body_eq : method.body = some body) :
    before.Between body.LaidOut after := by
  obtain ⟨first, last, reaches, read, later⟩ := laidOut.read body body_eq
  exact ⟨first, last, reaches, read.laidOut, later⟩

/-- Whether a method was read somewhere after a place. -/
def Method.ReadAfter (origin : Cursor) (method : Method) : Prop :=
  ∃ before after, origin.Reaches before ∧ method.LaidOut before after

/-- Whether the methods of a member were read somewhere after a place. -/
def Member.ReadAfter (origin : Cursor) (member : Member) : Prop :=
  ∀ method ∈ member.methods, method.ReadAfter origin

/-- Whether the methods of a type were read somewhere after a place. -/
def TypeDecl.ReadAfter (origin : Cursor) (type : TypeDecl) : Prop :=
  ∀ member ∈ type.members, member.ReadAfter origin

section ReadAfter

variable {origin cursor : Cursor}

@[grind →]
theorem Method.ReadAfter.trans {method : Method} (read : method.ReadAfter cursor)
    (reaches : origin.Reaches cursor) : method.ReadAfter origin := by
  obtain ⟨before, after, reaches_before, laidOut⟩ := read
  exact ⟨before, after, reaches.trans reaches_before, laidOut⟩

@[grind →]
theorem Member.ReadAfter.trans {member : Member} (read : member.ReadAfter cursor)
    (reaches : origin.Reaches cursor) : member.ReadAfter origin :=
  fun method found => (read method found).trans reaches

@[grind →]
theorem TypeDecl.ReadAfter.trans {type : TypeDecl} (read : type.ReadAfter cursor)
    (reaches : origin.Reaches cursor) : type.ReadAfter origin :=
  fun member found => (read member found).trans reaches

theorem Member.mem_methodsOf {members : List Member} {method : Method} :
    method ∈ Member.methodsOf members ↔ ∃ member ∈ members, method ∈ member.methods := by
  induction members with
  | nil => simp [Member.methodsOf]
  | cons member members induction => simp [Member.methodsOf, induction]

@[grind .]
theorem Member.readAfter_method {method : Method} (read : method.ReadAfter origin) :
    (Member.method method).ReadAfter origin := by
  intro found member
  rw [Member.methods, List.mem_singleton] at member
  rw [member]
  exact read

@[grind .]
theorem Member.readAfter_field (field : Field) : (Member.field field).ReadAfter origin := nofun

@[grind .]
theorem Member.readAfter_initializer (span : Span) (isStatic : Bool) (body : Block) :
    (Member.initializer span isStatic body).ReadAfter origin := nofun

@[grind .]
theorem Member.readAfter_type {type : TypeDecl} (read : type.ReadAfter origin) :
    (Member.type type.header type.members).ReadAfter origin := by
  intro method found
  rw [Member.methods, Member.mem_methodsOf] at found
  obtain ⟨member, member_mem, method_mem⟩ := found
  exact read member member_mem method method_mem

end ReadAfter

namespace Parser

@[spec]
theorem place_block (before : Cursor) :
    ⦃before.place⦄ block ⦃⇓ body after =>
      ⌜body.LaidOut before after ∧ (before.isAt .openBrace → body.ReadFrom before after)⌝⦄ := by
  refine triple_iff.mpr ?_
  rintro cursor rfl
  exact ⟨laidOut_block cursor, fun found => ⟨found, rfl⟩⟩

@[spec]
theorem onward_skipThrows (origin : Cursor) :
    ⦃origin.onward⦄ skipThrows ⦃⇓ _ => origin.onward⦄ := by
  mvcgen [skipThrows] <;> grind -ring -linarith

@[spec]
theorem onward_parameters (origin : Cursor) :
    ⦃origin.onward⦄ parameters ⦃⇓ _ => origin.onward⦄ := by
  mvcgen [parameters] <;> grind -ring -linarith

@[spec]
theorem onward_skipConstants (origin : Cursor) :
    ⦃origin.onward⦄ skipConstants ⦃⇓ _ => origin.onward⦄ := by
  mvcgen [skipConstants] <;> grind -ring -linarith

theorem laidOut_methodFrom (before : Cursor) {start : Nat} (here : before.here = start)
    (result : TypeRef) (name : Token) {current : Cursor} (read : before.ReachesOn current) :
    ⦃current.place⦄ methodFrom start result name
      ⦃⇓ method after => ⌜method.LaidOut before after⌝⦄ := by
  mvcgen [methodFrom] <;> grind -ring -linarith [Method.LaidOut, Cursor.Spans, Cursor.Between]

theorem laidOut_constructorFrom (before : Cursor) {start : Nat} (here : before.here = start)
    (name : Token) {current : Cursor} (reaches : before.Reaches current)
    (more : current.rest ≠ []) :
    ⦃current.place⦄ constructorFrom start name
      ⦃⇓ method after => ⌜method.LaidOut before after⌝⦄ := by
  have read : before.ReachesOn current.tail := ⟨current, reaches, more, .refl⟩
  mvcgen [constructorFrom] <;> grind -ring -linarith [Method.LaidOut, Cursor.Spans, Cursor.Between]

theorem readAfter_typedMember? (before : Cursor) {start : Nat} (here : before.here = start)
    {current : Cursor} (reaches : before.Reaches current) :
    ⦃current.place⦄ typedMember? start ⦃⇓ result after =>
      ⌜before.Reaches after ∧ ∀ member, result = some member → member.ReadAfter before⌝⦄ := by
  have methods := @laidOut_methodFrom before
  mvcgen [typedMember?, methods] <;>
    grind -ring -linarith [Cursor.ReachesOn, Method.ReadAfter, Method.LaidOut]

/-- What is read one at a time, now and then nothing, was all read after the place where reading
began. -/
theorem place_manyOptions {α : Type} {step : Parser (Option (Option α))}
    (readAfter : Cursor → α → Prop)
    (trans : ∀ {origin cursor value},
      readAfter cursor value → origin.Reaches cursor → readAfter origin value)
    (read : ∀ before : Cursor, ⦃before.place⦄ step ⦃⇓ result after =>
      ⌜result.elim (after = before) fun value? =>
        before.Reaches after ∧ ∀ value, value? = some value → readAfter before value⌝⦄)
    (before : Cursor) :
    ⦃before.place⦄ many step ⦃⇓ values after =>
      ⌜before.Reaches after ∧ ∀ value ∈ values.filterMap id, readAfter before value⌝⦄ := by
  refine place_many
    (fun value? before after =>
      before.Reaches after ∧ ∀ value, value? = some value → readAfter before value)
    (fun values before after =>
      before.Reaches after ∧ ∀ value ∈ values.filterMap id, readAfter before value)
    (fun _ => ⟨.refl, nofun⟩) ?_ read before
  rintro value? values before middle after ⟨reaches, first⟩ ⟨reaches_after, later⟩
  refine ⟨reaches.trans reaches_after, fun value found => ?_⟩
  cases value? with
  | none => exact trans (later value found) reaches
  | some _ =>
      cases found with
      | head => exact first _ rfl
      | tail _ found => exact trans (later value found) reaches

@[spec]
theorem readAfter_manyMembers {step : Parser (Option (Option Member))}
    (read : ∀ before : Cursor, ⦃before.place⦄ step ⦃⇓ result after =>
      ⌜result.elim (after = before) fun member? =>
        before.Reaches after ∧ ∀ member, member? = some member → member.ReadAfter before⌝⦄)
    (before : Cursor) :
    ⦃before.place⦄ many step ⦃⇓ members after =>
      ⌜before.Reaches after ∧ ∀ member ∈ members.filterMap id, member.ReadAfter before⌝⦄ :=
  place_manyOptions Member.ReadAfter Member.ReadAfter.trans read before

@[spec]
theorem readAfter_manyTypes {step : Parser (Option (Option TypeDecl))}
    (read : ∀ before : Cursor, ⦃before.place⦄ step ⦃⇓ result after =>
      ⌜result.elim (after = before) fun type? =>
        before.Reaches after ∧ ∀ type, type? = some type → type.ReadAfter before⌝⦄)
    (before : Cursor) :
    ⦃before.place⦄ many step ⦃⇓ types after =>
      ⌜before.Reaches after ∧ ∀ type ∈ types.filterMap id, type.ReadAfter before⌝⦄ :=
  place_manyOptions TypeDecl.ReadAfter TypeDecl.ReadAfter.trans read before

section Types

variable {type? : Parser (Option TypeDecl)}
  (reads : ∀ before : Cursor, ⦃before.place⦄ type? ⦃⇓ result after =>
    ⌜before.Reaches after ∧ ∀ type, result = some type → type.ReadAfter before⌝⦄)

include reads

@[spec]
theorem readAfter_memberWith (enclosing : String) (before : Cursor) :
    ⦃before.place⦄ memberWith type? enclosing ⦃⇓ result after =>
      ⌜before.Reaches after ∧ ∀ member, result = some member → member.ReadAfter before⌝⦄ := by
  have members := @readAfter_typedMember? before
  have constructors := @laidOut_constructorFrom before
  mvcgen [memberWith, reads, constructors, members] <;>
    grind -ring -linarith [Method.ReadAfter, Method.LaidOut, Option.map_eq_some_iff]

@[spec]
theorem readAfter_membersWith (enclosing : String) (before : Cursor) :
    ⦃before.place⦄ membersWith type? enclosing ⦃⇓ members after =>
      ⌜before.Reaches after ∧ ∀ member ∈ members, member.ReadAfter before⌝⦄ := by
  mvcgen [membersWith, reads] <;> grind -ring -linarith

theorem readAfter_typeDeclWith (before : Cursor) :
    ⦃before.place⦄ typeDeclWith type? ⦃⇓ result after =>
      ⌜before.Reaches after ∧ ∀ type, result = some type → type.ReadAfter before⌝⦄ := by
  mvcgen [typeDeclWith, reads] <;> grind -ring -linarith [TypeDecl.ReadAfter]

end Types

@[spec]
theorem readAfter_typeDeclUpTo (n : Nat) (before : Cursor) :
    ⦃before.place⦄ typeDeclUpTo n ⦃⇓ result after =>
      ⌜before.Reaches after ∧ ∀ type, result = some type → type.ReadAfter before⌝⦄ := by
  induction n generalizing before with
  | zero =>
      refine triple_iff.mpr ?_
      rintro cursor rfl
      exact ⟨.refl, nofun⟩
  | succ n induction => exact readAfter_typeDeclWith induction before

@[spec]
theorem readAfter_typeDecls (before : Cursor) :
    ⦃before.place⦄ typeDecls ⦃⇓ types _ => ⌜∀ type ∈ types, type.ReadAfter before⌝⦄ := by
  mvcgen [typeDecls] <;> grind -ring -linarith

theorem readAfter_compilationUnit (size : Nat) (before : Cursor) :
    ⦃before.place⦄ compilationUnit size
      ⦃⇓ unit _ => ⌜∀ type ∈ unit.types, type.ReadAfter before⌝⦄ := by
  mvcgen [compilationUnit] <;> grind -ring -linarith

end Parser

theorem Member.mem_of_findMethodIn? {name : String} {members : List Member} {method : Method}
    (found : Member.findMethodIn? name members = some method) :
    method ∈ Member.methodsOf members := by
  rw [Member.findMethodIn?_eq_find?] at found
  exact List.mem_of_find?_eq_some found

/-- A method that is found in a file was read among the tokens of the file. -/
theorem Parser.readAfter_of_findMethod? {size : Nat} {cursor : Cursor} {name : String}
    {method : Method}
    (found : (Parser.compilationUnit size cursor).1.findMethod? name = some method) :
    method.ReadAfter cursor := by
  obtain ⟨type, type_mem, found⟩ := List.exists_of_findSome?_eq_some found
  obtain ⟨member, member_mem, method_mem⟩ :=
    Member.mem_methodsOf.mp (Member.mem_of_findMethodIn? found)
  have read : ∀ type ∈ (Parser.compilationUnit size cursor).1.types, type.ReadAfter cursor :=
    Parser.triple_iff.mp (Parser.readAfter_compilationUnit size cursor) cursor rfl
  exact read type type_mem member member_mem method method_mem

theorem CompilationUnit.readAfter_of_findMethod? {source : Source} {name : String}
    {method : Method} (found : (CompilationUnit.read source).findMethod? name = some method) :
    method.ReadAfter (.start (Token.scan 0 source.chars)) :=
  Parser.readAfter_of_findMethod? found

end JavaOutline
