import JavaOutline.Java.Declaration
import JavaOutline.Token.Basic

/-!
# Moving constructs to other offsets

Everything that is read carries offsets. Relocating it applies one function to all of them and
changes nothing else. Adding a number relocates a construct to another place of its file, and the
constant function erases where it stands.
-/

namespace JavaOutline

/-- Values that hold offsets. -/
class Relocatable (α : Type) where
  /-- The value with a function applied to its offsets. -/
  relocate : (Nat → Nat) → α → α

open Relocatable (relocate)

instance : Relocatable Unit := ⟨fun _ => id⟩

instance : Relocatable Bool := ⟨fun _ => id⟩

instance : Relocatable String := ⟨fun _ => id⟩

/-- A number among what is read is a count and no offset. -/
instance : Relocatable Nat := ⟨fun _ => id⟩

instance {α : Type} [Relocatable α] : Relocatable (Option α) := ⟨fun f => Option.map (relocate f)⟩

instance {α : Type} [Relocatable α] : Relocatable (List α) := ⟨fun f => List.map (relocate f)⟩

instance {α β : Type} [Relocatable α] [Relocatable β] : Relocatable (α × β) :=
  ⟨fun f => Prod.map (relocate f) (relocate f)⟩

instance : Relocatable Span := ⟨fun f span => ⟨f span.start, f span.stop⟩⟩

instance : Relocatable Token := ⟨fun f token => { token with span := relocate f token.span }⟩

instance : Relocatable Name := ⟨fun f name => { name with span := relocate f name.span }⟩

instance : Relocatable TypeRef := ⟨fun f type => { type with span := relocate f type.span }⟩

mutual

/-- An expression at other offsets. -/
def Expr.relocate (f : Nat → Nat) : Expr → Expr
  | .name span text => .name (Relocatable.relocate f span) text
  | .literal span kind text => .literal (Relocatable.relocate f span) kind text
  | .this span => .this (Relocatable.relocate f span)
  | .super span => .super (Relocatable.relocate f span)
  | .fieldAccess span receiver field =>
    .fieldAccess (Relocatable.relocate f span) (receiver.relocate f) (Relocatable.relocate f field)
  | .arrayAccess span array index =>
    .arrayAccess (Relocatable.relocate f span) (array.relocate f) (index.relocate f)
  | .call span method arguments =>
    .call (Relocatable.relocate f span) (Relocatable.relocate f method)
      (Expr.relocateAll f arguments)
  | .memberCall span receiver method arguments =>
    .memberCall (Relocatable.relocate f span) (receiver.relocate f)
      (Relocatable.relocate f method) (Expr.relocateAll f arguments)
  | .creation span type arguments body =>
    .creation (Relocatable.relocate f span) (Relocatable.relocate f type)
      (Expr.relocateAll f arguments) (Relocatable.relocate f body)
  | .innerCreation span outer type arguments body =>
    .innerCreation (Relocatable.relocate f span) (outer.relocate f) (Relocatable.relocate f type)
      (Expr.relocateAll f arguments) (Relocatable.relocate f body)
  | .unary span op operand => .unary (Relocatable.relocate f span) op (operand.relocate f)
  | .update span op operand => .update (Relocatable.relocate f span) op (operand.relocate f)
  | .binary span op left right =>
    .binary (Relocatable.relocate f span) op (left.relocate f) (right.relocate f)
  | .instanceOf span operand type binding =>
    .instanceOf (Relocatable.relocate f span) (operand.relocate f) (Relocatable.relocate f type)
      binding
  | .conditional span condition whenTrue whenFalse =>
    .conditional (Relocatable.relocate f span) (condition.relocate f) (whenTrue.relocate f)
      (whenFalse.relocate f)
  | .assignment span op target value =>
    .assignment (Relocatable.relocate f span) op (target.relocate f) (value.relocate f)
  | .cast span type operand =>
    .cast (Relocatable.relocate f span) (Relocatable.relocate f type) (operand.relocate f)
  | .parenthesized span inner => .parenthesized (Relocatable.relocate f span) (inner.relocate f)
  | .excerpt span kind => .excerpt (Relocatable.relocate f span) kind
  | .missing span => .missing (Relocatable.relocate f span)

/-- Some expressions at other offsets. -/
def Expr.relocateAll (f : Nat → Nat) : List Expr → List Expr
  | [] => []
  | expr :: exprs => expr.relocate f :: Expr.relocateAll f exprs

end

instance : Relocatable Expr := ⟨Expr.relocate⟩

theorem Expr.relocateAll_eq (f : Nat → Nat) (exprs : List Expr) :
    Expr.relocateAll f exprs = Relocatable.relocate f exprs := by
  induction exprs with
  | nil => rfl
  | cons expr exprs induction =>
      rw [Expr.relocateAll, induction]
      rfl

section Exprs

variable (f : Nat → Nat) (span : Span)

theorem span_relocate (expr : Expr) : (relocate f expr).span = relocate f expr.span := by
  cases expr <;> rfl

theorem relocate_call (method : Name) (arguments : List Expr) :
    relocate f (Expr.call span method arguments) =
      .call (relocate f span) (relocate f method) (relocate f arguments) :=
  congrArg _ (Expr.relocateAll_eq f arguments)

theorem relocate_memberCall (receiver : Expr) (method : Name) (arguments : List Expr) :
    relocate f (Expr.memberCall span receiver method arguments) =
      .memberCall (relocate f span) (relocate f receiver) (relocate f method)
        (relocate f arguments) :=
  congrArg _ (Expr.relocateAll_eq f arguments)

theorem relocate_creation (type : TypeRef) (arguments : List Expr) (body : Option Span) :
    relocate f (Expr.creation span type arguments body) =
      .creation (relocate f span) (relocate f type) (relocate f arguments) (relocate f body) :=
  congrArg (Expr.creation _ _ · _) (Expr.relocateAll_eq f arguments)

theorem relocate_innerCreation (outer : Expr) (type : TypeRef) (arguments : List Expr)
    (body : Option Span) :
    relocate f (Expr.innerCreation span outer type arguments body) =
      .innerCreation (relocate f span) (relocate f outer) (relocate f type)
        (relocate f arguments) (relocate f body) :=
  congrArg (Expr.innerCreation _ _ _ · _) (Expr.relocateAll_eq f arguments)

end Exprs

instance : Relocatable Parameter where
  relocate f parameter :=
    ⟨relocate f parameter.span, relocate f parameter.type, relocate f parameter.name⟩

instance : Relocatable Declarator where
  relocate f declarator :=
    ⟨relocate f declarator.span, relocate f declarator.name, relocate f declarator.value⟩

instance : Relocatable Variables where
  relocate f declaration :=
    ⟨relocate f declaration.span, relocate f declaration.type,
      relocate f declaration.declarators⟩

instance : Relocatable ForInit where
  relocate f
    | .nothing => .nothing
    | .locals declaration => .locals (relocate f declaration)
    | .exprs exprs => .exprs (relocate f exprs)

instance : Relocatable SwitchLabel where
  relocate f
    | .case span values => .case (relocate f span) (relocate f values)
    | .default span => .default (relocate f span)

mutual

/-- A statement at other offsets. -/
def Stmt.relocate (f : Nat → Nat) : Stmt → Stmt
  | .locals declaration => .locals (Relocatable.relocate f declaration)
  | .localType span kind name => .localType (Relocatable.relocate f span) kind name
  | .expr span expr => .expr (Relocatable.relocate f span) (Relocatable.relocate f expr)
  | .constructorCall span target outer arguments =>
    .constructorCall (Relocatable.relocate f span) target (Relocatable.relocate f outer)
      (Relocatable.relocate f arguments)
  | .assertion span condition message =>
    .assertion (Relocatable.relocate f span) (Relocatable.relocate f condition)
      (Relocatable.relocate f message)
  | .jump span kind label => .jump (Relocatable.relocate f span) kind (Relocatable.relocate f label)
  | .returns span value => .returns (Relocatable.relocate f span) (Relocatable.relocate f value)
  | .throws span value => .throws (Relocatable.relocate f span) (Relocatable.relocate f value)
  | .conditional span condition whenTrue none =>
    .conditional (Relocatable.relocate f span) (Relocatable.relocate f condition)
      (whenTrue.relocate f) none
  | .conditional span condition whenTrue (some whenFalse) =>
    .conditional (Relocatable.relocate f span) (Relocatable.relocate f condition)
      (whenTrue.relocate f) (some (whenFalse.relocate f))
  | .whileLoop span condition body =>
    .whileLoop (Relocatable.relocate f span) (Relocatable.relocate f condition) (body.relocate f)
  | .doLoop span body condition =>
    .doLoop (Relocatable.relocate f span) (body.relocate f) (Relocatable.relocate f condition)
  | .forLoop span init condition update body =>
    .forLoop (Relocatable.relocate f span) (Relocatable.relocate f init)
      (Relocatable.relocate f condition) (Relocatable.relocate f update) (body.relocate f)
  | .forEach span element collection body =>
    .forEach (Relocatable.relocate f span) (Relocatable.relocate f element)
      (Relocatable.relocate f collection) (body.relocate f)
  | .switch span selector groups =>
    .switch (Relocatable.relocate f span) (Relocatable.relocate f selector)
      (SwitchGroup.relocateAll f groups)
  | .synchronized span lock body =>
    .synchronized (Relocatable.relocate f span) (Relocatable.relocate f lock) (body.relocate f)
  | .tries span resources body handlers cleanup =>
    .tries (Relocatable.relocate f span) (Relocatable.relocate f resources) (body.relocate f)
      (Handler.relocateAll f handlers) (Block.relocateOption f cleanup)
  | .labeled span label body =>
    .labeled (Relocatable.relocate f span) (Relocatable.relocate f label) (body.relocate f)
  | .block inner => .block (inner.relocate f)
  | .empty span => .empty (Relocatable.relocate f span)
  | .unparsed span => .unparsed (Relocatable.relocate f span)

/-- Some statements at other offsets. -/
def Stmt.relocateAll (f : Nat → Nat) : List Stmt → List Stmt
  | [] => []
  | stmt :: stmts => stmt.relocate f :: Stmt.relocateAll f stmts

/-- A block at other offsets. -/
def Block.relocate (f : Nat → Nat) : Block → Block
  | .mk span statements => .mk (Relocatable.relocate f span) (Stmt.relocateAll f statements)

/-- The block of a `finally` clause, if there is one, at other offsets. -/
def Block.relocateOption (f : Nat → Nat) : Option Block → Option Block
  | none => none
  | some block => some (block.relocate f)

/-- A group at other offsets. -/
def SwitchGroup.relocate (f : Nat → Nat) : SwitchGroup → SwitchGroup
  | .mk span arrow labels statements =>
    .mk (Relocatable.relocate f span) arrow (Relocatable.relocate f labels)
      (Stmt.relocateAll f statements)

/-- Some groups at other offsets. -/
def SwitchGroup.relocateAll (f : Nat → Nat) : List SwitchGroup → List SwitchGroup
  | [] => []
  | group :: groups => group.relocate f :: SwitchGroup.relocateAll f groups

/-- A `catch` clause at other offsets. -/
def Handler.relocate (f : Nat → Nat) : Handler → Handler
  | .mk span types name body =>
    .mk (Relocatable.relocate f span) (Relocatable.relocate f types) name (body.relocate f)

/-- Some `catch` clauses at other offsets. -/
def Handler.relocateAll (f : Nat → Nat) : List Handler → List Handler
  | [] => []
  | handler :: handlers => handler.relocate f :: Handler.relocateAll f handlers

end

instance : Relocatable Stmt := ⟨Stmt.relocate⟩

instance : Relocatable Block := ⟨Block.relocate⟩

instance : Relocatable SwitchGroup := ⟨SwitchGroup.relocate⟩

instance : Relocatable Handler := ⟨Handler.relocate⟩

theorem Stmt.relocateAll_eq (f : Nat → Nat) (stmts : List Stmt) :
    Stmt.relocateAll f stmts = Relocatable.relocate f stmts := by
  induction stmts with
  | nil => rfl
  | cons stmt stmts induction =>
      rw [Stmt.relocateAll, induction]
      rfl

theorem SwitchGroup.relocateAll_eq (f : Nat → Nat) (groups : List SwitchGroup) :
    SwitchGroup.relocateAll f groups = Relocatable.relocate f groups := by
  induction groups with
  | nil => rfl
  | cons group groups induction =>
      rw [SwitchGroup.relocateAll, induction]
      rfl

theorem Handler.relocateAll_eq (f : Nat → Nat) (handlers : List Handler) :
    Handler.relocateAll f handlers = Relocatable.relocate f handlers := by
  induction handlers with
  | nil => rfl
  | cons handler handlers induction =>
      rw [Handler.relocateAll, induction]
      rfl

section Statements

variable (f : Nat → Nat) (span : Span)

theorem relocate_block (statements : List Stmt) :
    relocate f (Block.mk span statements) = .mk (relocate f span) (relocate f statements) :=
  congrArg _ (Stmt.relocateAll_eq f statements)

theorem relocate_group (arrow : Bool) (labels : List SwitchLabel) (statements : List Stmt) :
    relocate f (SwitchGroup.mk span arrow labels statements) =
      .mk (relocate f span) arrow (relocate f labels) (relocate f statements) :=
  congrArg _ (Stmt.relocateAll_eq f statements)

theorem relocate_switch (selector : Expr) (groups : List SwitchGroup) :
    relocate f (Stmt.switch span selector groups) =
      .switch (relocate f span) (relocate f selector) (relocate f groups) :=
  congrArg _ (SwitchGroup.relocateAll_eq f groups)

theorem relocate_tries (resources : List Span) (body : Block) (handlers : List Handler)
    (cleanup : Option Block) :
    relocate f (Stmt.tries span resources body handlers cleanup) =
      .tries (relocate f span) (relocate f resources) (relocate f body) (relocate f handlers)
        (relocate f cleanup) := by
  cases cleanup with
  | none => exact congrArg (Stmt.tries _ _ _ · _) (Handler.relocateAll_eq f handlers)
  | some cleanup => exact congrArg (Stmt.tries _ _ _ · _) (Handler.relocateAll_eq f handlers)

theorem relocate_conditional (condition : Expr) (whenTrue : Stmt) (whenFalse : Option Stmt) :
    relocate f (Stmt.conditional span condition whenTrue whenFalse) =
      .conditional (relocate f span) (relocate f condition) (relocate f whenTrue)
        (relocate f whenFalse) := by
  cases whenFalse with
  | none => rfl
  | some whenFalse => rfl

end Statements

instance : Relocatable Field where
  relocate f field := { field with span := relocate f field.span, type := relocate f field.type }

instance : Relocatable Method where
  relocate f method :=
    { span := relocate f method.span
      result := relocate f method.result
      name := relocate f method.name
      parameters := relocate f method.parameters
      body := relocate f method.body }

instance : Relocatable TypeHeader where
  relocate f header :=
    { header with span := relocate f header.span, name := relocate f header.name }

mutual

/-- A member at other offsets. -/
def Member.relocate (f : Nat → Nat) : Member → Member
  | .field found => .field (Relocatable.relocate f found)
  | .method found => .method (Relocatable.relocate f found)
  | .initializer span isStatic body =>
    .initializer (Relocatable.relocate f span) isStatic (Relocatable.relocate f body)
  | .type header members => .type (Relocatable.relocate f header) (Member.relocateAll f members)

/-- Some members at other offsets. -/
def Member.relocateAll (f : Nat → Nat) : List Member → List Member
  | [] => []
  | member :: members => member.relocate f :: Member.relocateAll f members

end

instance : Relocatable Member := ⟨Member.relocate⟩

theorem Member.relocateAll_eq (f : Nat → Nat) (members : List Member) :
    Member.relocateAll f members = Relocatable.relocate f members := by
  induction members with
  | nil => rfl
  | cons member members induction =>
      rw [Member.relocateAll, induction]
      rfl

instance : Relocatable TypeDecl where
  relocate f decl := ⟨relocate f decl.header, relocate f decl.members⟩

instance : Relocatable CompilationUnit where
  relocate f unit :=
    { unit with span := relocate f unit.span, types := relocate f unit.types }

end JavaOutline
