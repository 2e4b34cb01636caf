import JavaOutline.Java.Expr

/-!
# Statements

The statements of a method body. Tokens that make no statement are kept as unparsed statements, so
that a body can always be read.
-/

namespace JavaOutline

/-- The kinds of type declaration. -/
inductive TypeKind where
  | classType | interfaceType | enumType | recordType | annotationType
  deriving DecidableEq, Repr

/-- A variable with its type, as a method or a loop over a collection declares it. -/
structure Parameter where
  /-- Where the parameter stands. -/
  span : Span
  /-- Its type. -/
  type : TypeRef
  /-- Its name. -/
  name : Name
  deriving DecidableEq, Repr

/-- One variable of a declaration. -/
structure Declarator where
  /-- Where the declarator stands. -/
  span : Span
  /-- The name of the variable. -/
  name : Name
  /-- Its initial value. -/
  value : Option Expr
  deriving Repr

/-- A declaration of variables of one type. -/
structure Variables where
  /-- Where the declaration stands. -/
  span : Span
  /-- The common type. -/
  type : TypeRef
  /-- The variables. -/
  declarators : List Declarator
  deriving Repr

/-- The first part of a `for` header. -/
inductive ForInit where
  | nothing
  | locals (declaration : Variables)
  | exprs (exprs : List Expr)
  deriving Repr

/-- Which constructor an explicit constructor call names. -/
inductive ConstructorTarget where
  | this | super
  deriving DecidableEq, Repr

/-- The two jumps. -/
inductive JumpKind where
  | break | continue
  deriving DecidableEq, Repr

/-- A label of a `switch`. -/
inductive SwitchLabel where
  | case (span : Span) (values : List Expr)
  | default (span : Span)
  deriving Repr

/-- Where a label stands. -/
def SwitchLabel.span : SwitchLabel → Span
  | case span _ | default span => span

mutual

/-- A statement. -/
inductive Stmt where
  | locals (declaration : Variables)
  | localType (span : Span) (kind : TypeKind) (name : String)
  | expr (span : Span) (expr : Expr)
  | constructorCall (span : Span) (target : ConstructorTarget) (outer : Option Expr)
      (arguments : List Expr)
  | assertion (span : Span) (condition : Expr) (message : Option Expr)
  | jump (span : Span) (kind : JumpKind) (label : Option Name)
  | returns (span : Span) (value : Option Expr)
  | throws (span : Span) (value : Expr)
  | conditional (span : Span) (condition : Expr) (whenTrue : Stmt) (whenFalse : Option Stmt)
  | whileLoop (span : Span) (condition : Expr) (body : Stmt)
  | doLoop (span : Span) (body : Stmt) (condition : Expr)
  | forLoop (span : Span) (init : ForInit) (condition : Option Expr) (update : List Expr)
      (body : Stmt)
  | forEach (span : Span) (element : Parameter) (collection : Expr) (body : Stmt)
  | switch (span : Span) (selector : Expr) (groups : List SwitchGroup)
  | synchronized (span : Span) (lock : Expr) (body : Block)
  /-- A `try`, with the spans of its resources. -/
  | tries (span : Span) (resources : List Span) (body : Block) (handlers : List Handler)
      (cleanup : Option Block)
  | labeled (span : Span) (label : Name) (body : Stmt)
  | block (inner : Block)
  | empty (span : Span)
  | unparsed (span : Span)

/-- Statements in braces. -/
inductive Block where
  | mk (span : Span) (statements : List Stmt)

/-- Labels of a `switch` with the statements they guard; `arrow` tells `case x ->` from
`case x:`. -/
inductive SwitchGroup where
  | mk (span : Span) (arrow : Bool) (labels : List SwitchLabel) (statements : List Stmt)

/-- A `catch` clause with the types it catches. -/
inductive Handler where
  | mk (span : Span) (types : List TypeRef) (name : String) (body : Block)

end

/-- Where a block stands. -/
def Block.span : Block → Span
  | mk span _ => span

/-- The statements of a block. -/
def Block.statements : Block → List Stmt
  | mk _ statements => statements

/-- Where a group stands. -/
def SwitchGroup.span : SwitchGroup → Span
  | mk span .. => span

/-- Where a `catch` clause stands. -/
def Handler.span : Handler → Span
  | mk span .. => span

namespace Stmt

/-- Where a statement stands. -/
def span : Stmt → Span
  | locals declaration => declaration.span
  | block inner => inner.span
  | localType span .. | expr span _ | constructorCall span .. | assertion span .. | jump span ..
  | returns span _ | throws span _ | conditional span .. | whileLoop span .. | doLoop span ..
  | forLoop span .. | forEach span .. | switch span .. | synchronized span .. | tries span ..
  | labeled span .. | empty span | unparsed span => span

/-- What a statement is called in a report. -/
def title : Stmt → String
  | locals .. => "local variable declaration"
  | localType .. => "local type declaration"
  | expr .. => "expression statement"
  | constructorCall .. => "explicit constructor call"
  | assertion .. => "assert statement"
  | jump _ .break _ => "break statement"
  | jump _ .continue _ => "continue statement"
  | returns .. => "return statement"
  | throws .. => "throw statement"
  | conditional .. => "if statement"
  | whileLoop .. => "while statement"
  | doLoop .. => "do statement"
  | forLoop .. => "for statement"
  | forEach .. => "enhanced for statement"
  | switch .. => "switch statement"
  | synchronized .. => "synchronized statement"
  | tries .. => "try statement"
  | labeled .. => "labeled statement"
  | block .. => "block"
  | empty .. => "empty statement"
  | unparsed .. => "unparsed statement"

end Stmt

end JavaOutline
