import JavaOutline.Proofs.Java.Relocation
import Mathlib.Logic.Basic

/-!
# Constructs without their offsets

Relocating twice is relocating once. Erasing the offsets of a construct puts all of them at the
start of the file, so what a construct was relocated from does not show in what is left of it.
-/

namespace JavaOutline

open Relocatable (relocate)

/-- Values that are relocated offset by offset. -/
class LawfulRelocatable (α : Type) [Relocatable α] : Prop where
  /-- Relocating twice is relocating once. -/
  relocate_relocate (f g : Nat → Nat) (value : α) :
    relocate g (relocate f value) = relocate (g ∘ f) value

open LawfulRelocatable (relocate_relocate)

instance : LawfulRelocatable String := ⟨fun _ _ _ => rfl⟩

instance {α : Type} [Relocatable α] [LawfulRelocatable α] : LawfulRelocatable (Option α) where
  relocate_relocate f g value := by
    cases value with
    | none => rfl
    | some value => exact congrArg some (relocate_relocate f g value)

instance {α : Type} [Relocatable α] [LawfulRelocatable α] : LawfulRelocatable (List α) where
  relocate_relocate f g values := by
    refine List.map_map.trans (List.map_congr_left fun value _ => ?_)
    exact relocate_relocate f g value

instance : LawfulRelocatable Span := ⟨fun _ _ _ => rfl⟩

instance : LawfulRelocatable Name := ⟨fun _ _ _ => rfl⟩

instance : LawfulRelocatable TypeRef := ⟨fun _ _ _ => rfl⟩

/-! ## Expressions -/

mutual

theorem Expr.relocate_relocate (f g : Nat → Nat) (expr : Expr) :
    (expr.relocate f).relocate g = expr.relocate (g ∘ f) := by
  cases expr with
  | name | literal | this | super | excerpt | missing => rfl
  | fieldAccess span receiver field =>
      exact congrArg (Expr.fieldAccess _ · _) (Expr.relocate_relocate f g receiver)
  | arrayAccess span array index =>
      exact congrArg₂ (Expr.arrayAccess _) (Expr.relocate_relocate f g array)
        (Expr.relocate_relocate f g index)
  | call span method arguments =>
      exact congrArg (Expr.call _ _) (Expr.relocateAll_relocateAll f g arguments)
  | memberCall span receiver method arguments =>
      exact congrArg₂ (Expr.memberCall _ · _ ·) (Expr.relocate_relocate f g receiver)
        (Expr.relocateAll_relocateAll f g arguments)
  | creation span type arguments body =>
      exact congrArg₂ (Expr.creation _ _) (Expr.relocateAll_relocateAll f g arguments)
        (LawfulRelocatable.relocate_relocate f g body)
  | innerCreation span outer type arguments body =>
      simp only [Expr.relocate, Expr.relocate_relocate f g outer,
        Expr.relocateAll_relocateAll f g arguments, LawfulRelocatable.relocate_relocate]
  | unary span op operand =>
      exact congrArg (Expr.unary _ _) (Expr.relocate_relocate f g operand)
  | update span op operand =>
      exact congrArg (Expr.update _ _) (Expr.relocate_relocate f g operand)
  | binary span op left right =>
      exact congrArg₂ (Expr.binary _ _) (Expr.relocate_relocate f g left)
        (Expr.relocate_relocate f g right)
  | instanceOf span operand type binding =>
      exact congrArg (Expr.instanceOf _ · _ _) (Expr.relocate_relocate f g operand)
  | conditional span condition whenTrue whenFalse =>
      simp only [Expr.relocate, Expr.relocate_relocate f g condition,
        Expr.relocate_relocate f g whenTrue, Expr.relocate_relocate f g whenFalse,
        LawfulRelocatable.relocate_relocate]
  | assignment span op target value =>
      exact congrArg₂ (Expr.assignment _ _) (Expr.relocate_relocate f g target)
        (Expr.relocate_relocate f g value)
  | cast span type operand =>
      exact congrArg (Expr.cast _ _) (Expr.relocate_relocate f g operand)
  | parenthesized span inner =>
      exact congrArg (Expr.parenthesized _) (Expr.relocate_relocate f g inner)

theorem Expr.relocateAll_relocateAll (f g : Nat → Nat) (exprs : List Expr) :
    Expr.relocateAll g (Expr.relocateAll f exprs) = Expr.relocateAll (g ∘ f) exprs := by
  cases exprs with
  | nil => rfl
  | cons expr exprs =>
      exact congrArg₂ List.cons (Expr.relocate_relocate f g expr)
        (Expr.relocateAll_relocateAll f g exprs)

end

instance : LawfulRelocatable Expr := ⟨Expr.relocate_relocate⟩

/-! ## Statements -/

instance : LawfulRelocatable Parameter := ⟨fun _ _ _ => rfl⟩

instance : LawfulRelocatable Declarator where
  relocate_relocate f g declarator :=
    congrArg (Declarator.mk _ _) (relocate_relocate f g declarator.value)

instance : LawfulRelocatable Variables where
  relocate_relocate f g declaration :=
    congrArg (Variables.mk _ _) (relocate_relocate f g declaration.declarators)

instance : LawfulRelocatable ForInit where
  relocate_relocate f g init := by
    cases init with
    | nothing => rfl
    | locals declaration => exact congrArg ForInit.locals (relocate_relocate f g declaration)
    | exprs exprs => exact congrArg ForInit.exprs (relocate_relocate f g exprs)

instance : LawfulRelocatable SwitchLabel where
  relocate_relocate f g label := by
    cases label with
    | case span values => exact congrArg (SwitchLabel.case _) (relocate_relocate f g values)
    | default span => rfl

mutual

theorem Stmt.relocate_relocate (f g : Nat → Nat) (stmt : Stmt) :
    (stmt.relocate f).relocate g = stmt.relocate (g ∘ f) := by
  cases stmt with
  | localType | empty | unparsed => rfl
  | locals | expr | constructorCall | assertion | jump | returns | throws =>
      simp only [Stmt.relocate, LawfulRelocatable.relocate_relocate]
  | conditional span condition whenTrue whenFalse =>
      cases whenFalse with
      | none =>
          simp only [Stmt.relocate, Stmt.relocate_relocate f g whenTrue,
            LawfulRelocatable.relocate_relocate]
      | some whenFalse =>
          simp only [Stmt.relocate, Stmt.relocate_relocate f g whenTrue,
            Stmt.relocate_relocate f g whenFalse, LawfulRelocatable.relocate_relocate]
  | whileLoop span condition body =>
      simp only [Stmt.relocate, Stmt.relocate_relocate f g body,
        LawfulRelocatable.relocate_relocate]
  | doLoop span body condition =>
      simp only [Stmt.relocate, Stmt.relocate_relocate f g body,
        LawfulRelocatable.relocate_relocate]
  | forLoop span init condition update body =>
      simp only [Stmt.relocate, Stmt.relocate_relocate f g body,
        LawfulRelocatable.relocate_relocate]
  | forEach span element collection body =>
      simp only [Stmt.relocate, Stmt.relocate_relocate f g body,
        LawfulRelocatable.relocate_relocate]
  | switch span selector groups =>
      simp only [Stmt.relocate, SwitchGroup.relocateAll_relocateAll f g groups,
        LawfulRelocatable.relocate_relocate]
  | synchronized span lock body =>
      simp only [Stmt.relocate, Block.relocate_relocate f g body,
        LawfulRelocatable.relocate_relocate]
  | tries span resources body handlers cleanup =>
      have cleanup_eq : Block.relocateOption g (Block.relocateOption f cleanup) =
          Block.relocateOption (g ∘ f) cleanup := by
        cases cleanup with
        | none => rfl
        | some cleanup => exact congrArg some (Block.relocate_relocate f g cleanup)
      simp only [Stmt.relocate, Block.relocate_relocate f g body,
        Handler.relocateAll_relocateAll f g handlers, cleanup_eq,
        LawfulRelocatable.relocate_relocate]
  | labeled span label body =>
      simp only [Stmt.relocate, Stmt.relocate_relocate f g body,
        LawfulRelocatable.relocate_relocate]
  | block inner => exact congrArg Stmt.block (Block.relocate_relocate f g inner)

theorem Stmt.relocateAll_relocateAll (f g : Nat → Nat) (stmts : List Stmt) :
    Stmt.relocateAll g (Stmt.relocateAll f stmts) = Stmt.relocateAll (g ∘ f) stmts := by
  cases stmts with
  | nil => rfl
  | cons stmt stmts =>
      exact congrArg₂ List.cons (Stmt.relocate_relocate f g stmt)
        (Stmt.relocateAll_relocateAll f g stmts)

theorem Block.relocate_relocate (f g : Nat → Nat) (block : Block) :
    (block.relocate f).relocate g = block.relocate (g ∘ f) := by
  obtain ⟨span, statements⟩ := block
  exact congrArg (Block.mk _) (Stmt.relocateAll_relocateAll f g statements)

theorem SwitchGroup.relocateAll_relocateAll (f g : Nat → Nat) (groups : List SwitchGroup) :
    SwitchGroup.relocateAll g (SwitchGroup.relocateAll f groups) =
      SwitchGroup.relocateAll (g ∘ f) groups := by
  cases groups with
  | nil => rfl
  | cons group groups =>
      obtain ⟨span, arrow, labels, statements⟩ := group
      simp only [SwitchGroup.relocateAll, SwitchGroup.relocate,
        SwitchGroup.relocateAll_relocateAll f g groups,
        Stmt.relocateAll_relocateAll f g statements, LawfulRelocatable.relocate_relocate]

theorem Handler.relocateAll_relocateAll (f g : Nat → Nat) (handlers : List Handler) :
    Handler.relocateAll g (Handler.relocateAll f handlers) =
      Handler.relocateAll (g ∘ f) handlers := by
  cases handlers with
  | nil => rfl
  | cons handler handlers =>
      obtain ⟨span, types, name, body⟩ := handler
      simp only [Handler.relocateAll, Handler.relocate, Block.relocate_relocate f g body,
        Handler.relocateAll_relocateAll f g handlers, LawfulRelocatable.relocate_relocate]

end

instance : LawfulRelocatable Block := ⟨Block.relocate_relocate⟩

/-! ## Declarations -/

instance : LawfulRelocatable Field := ⟨fun _ _ _ => rfl⟩

instance : LawfulRelocatable Method where
  relocate_relocate f g method := by
    change Method.mk _ (relocate g (relocate f method.result)) _
      (relocate g (relocate f method.parameters)) (relocate g (relocate f method.body)) = _
    simp only [relocate_relocate]
    rfl

instance : LawfulRelocatable TypeHeader := ⟨fun _ _ _ => rfl⟩

mutual

theorem Member.relocate_relocate (f g : Nat → Nat) (member : Member) :
    (member.relocate f).relocate g = member.relocate (g ∘ f) := by
  cases member with
  | field | method | initializer =>
      simp only [Member.relocate, LawfulRelocatable.relocate_relocate]
  | type header members =>
      simp only [Member.relocate, Member.relocateAll_relocateAll f g members,
        LawfulRelocatable.relocate_relocate]

theorem Member.relocateAll_relocateAll (f g : Nat → Nat) (members : List Member) :
    Member.relocateAll g (Member.relocateAll f members) = Member.relocateAll (g ∘ f) members := by
  cases members with
  | nil => rfl
  | cons member members =>
      exact congrArg₂ List.cons (Member.relocate_relocate f g member)
        (Member.relocateAll_relocateAll f g members)

end

instance : LawfulRelocatable Member := ⟨Member.relocate_relocate⟩

instance : LawfulRelocatable TypeDecl where
  relocate_relocate f g decl := congrArg (TypeDecl.mk _) (relocate_relocate f g decl.members)

instance : LawfulRelocatable CompilationUnit where
  relocate_relocate f g unit :=
    congrArg (CompilationUnit.mk _ _) (relocate_relocate f g unit.types)

/-- A file without its offsets: all of them are at the start. -/
def CompilationUnit.erased (unit : CompilationUnit) : CompilationUnit :=
  relocate (fun _ => 0) unit

/-- Relocating a file does not change what is left of it without its offsets. -/
theorem CompilationUnit.erased_relocate (f : Nat → Nat) (unit : CompilationUnit) :
    (relocate f unit).erased = unit.erased :=
  relocate_relocate f (fun _ => 0) unit

end JavaOutline
