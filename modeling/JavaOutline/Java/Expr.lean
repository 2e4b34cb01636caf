import JavaOutline.Java.Operator
import JavaOutline.Source.Span

/-!
# Expressions

Every expression carries the span it was read from. Constructs whose inside plays no part in an
outline (lambdas, array creations, patterns and the like) are excerpts: a kind and a span. An
operand that the source lacks is a missing expression with an empty span.
-/

namespace JavaOutline

/-- A name where it stands. -/
structure Name where
  /-- The characters of the name. -/
  text : String
  /-- Where the name stands. -/
  span : Span
  deriving DecidableEq, Repr

/-- A type where it stands. Its text has no white space but around `extends` and `super`. -/
structure TypeRef where
  /-- The type, such as `Map<String,Integer>[]`. -/
  text : String
  /-- Where the type stands. -/
  span : Span
  deriving DecidableEq, Repr

/-- The kinds of expression that are kept as a piece of source text. -/
inductive ExcerptKind where
  | arrayCreation | arrayInitializer | lambda | methodReference | classLiteral | switch | pattern
  deriving DecidableEq, Repr

/-- An expression. -/
inductive Expr where
  | name (span : Span) (text : String)
  | literal (span : Span) (kind : LiteralKind) (text : String)
  | this (span : Span)
  | super (span : Span)
  | fieldAccess (span : Span) (receiver : Expr) (field : Name)
  | arrayAccess (span : Span) (array index : Expr)
  /-- A call without receiver, `this(..)` and `super(..)` among them. -/
  | call (span : Span) (method : Name) (arguments : List Expr)
  | memberCall (span : Span) (receiver : Expr) (method : Name) (arguments : List Expr)
  /-- An allocation, with the span of the anonymous class body if there is one. -/
  | creation (span : Span) (type : TypeRef) (arguments : List Expr) (body : Option Span)
  /-- An allocation inside an enclosing instance. -/
  | innerCreation (span : Span) (outer : Expr) (type : TypeRef) (arguments : List Expr)
      (body : Option Span)
  | unary (span : Span) (op : UnaryOp) (operand : Expr)
  | update (span : Span) (op : UpdateOp) (operand : Expr)
  | binary (span : Span) (op : BinaryOp) (left right : Expr)
  /-- A type test, with the name it binds if there is one. -/
  | instanceOf (span : Span) (operand : Expr) (type : TypeRef) (binding : Option String)
  | conditional (span : Span) (condition whenTrue whenFalse : Expr)
  | assignment (span : Span) (op : AssignOp) (target value : Expr)
  | cast (span : Span) (type : TypeRef) (operand : Expr)
  | parenthesized (span : Span) (inner : Expr)
  | excerpt (span : Span) (kind : ExcerptKind)
  | missing (span : Span)
  deriving Repr, Inhabited

/-- What an excerpt is called in a report. -/
def ExcerptKind.title : ExcerptKind → String
  | .arrayCreation => "array creation"
  | .arrayInitializer => "array initializer"
  | .lambda => "lambda expression"
  | .methodReference => "method reference"
  | .classLiteral => "class literal"
  | .switch => "switch expression"
  | .pattern => "pattern"

namespace Expr

/-- Where an expression stands. -/
def span : Expr → Span
  | name span _ | literal span _ _ | this span | super span | fieldAccess span _ _
  | arrayAccess span _ _ | call span _ _ | memberCall span _ _ _ | creation span _ _ _
  | innerCreation span _ _ _ _ | unary span _ _ | update span _ _ | binary span _ _ _
  | instanceOf span _ _ _ | conditional span _ _ _ | assignment span _ _ _ | cast span _ _
  | parenthesized span _ | excerpt span _ | missing span => span

/-- What an expression is called in a report. -/
def title : Expr → String
  | name .. => "name"
  | literal .. => "literal"
  | this .. => "this"
  | super .. => "super"
  | fieldAccess .. => "field access"
  | arrayAccess .. => "array access"
  | call .. | memberCall .. => "method call"
  | creation .. | innerCreation .. => "class instance creation"
  | unary .. => "unary expression"
  | update .. => "postfix expression"
  | binary .. => "binary expression"
  | instanceOf .. => "instanceof expression"
  | conditional .. => "conditional expression"
  | assignment .. => "assignment"
  | cast .. => "cast expression"
  | parenthesized .. => "parenthesized expression"
  | excerpt _ kind => kind.title
  | missing .. => "missing expression"

end Expr

end JavaOutline
