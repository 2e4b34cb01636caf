import JavaOutline.Java.Expr

/-!
# Rendering expressions

The text of an expression with a fixed layout: operators stand in parentheses with their operands,
with single spaces around them, as in `(i < list.size())` or `(! done)`, and parentheses of the
source are not doubled. Excerpts and allocations with a class body are copied from the source. A
missing expression has no rendering.
-/

namespace JavaOutline

/-- An expression that has no rendering. -/
structure Unrenderable where
  /-- What the expression is called in a report. -/
  title : String
  /-- Where the expression stands. -/
  span : Span
  deriving DecidableEq, Repr

namespace Expr

/-- Whether the rendering of an expression has parentheses around it. -/
def hasParens : Expr → Bool
  | unary .. | update .. | binary .. | instanceOf .. | conditional .. | assignment .. | cast ..
  | parenthesized .. => true
  | _ => false

/-- The source text of an expression. -/
def copy (source : Source) (expr : Expr) : Except Unrenderable String :=
  match source.slice? expr.span with
  | some text => .ok text
  | none => .error ⟨expr.title, expr.span⟩

mutual

/-- The rendering of an expression. -/
def render (source : Source) : Expr → Except Unrenderable String
  | name _ text => return text
  | literal _ _ text => return text
  | this _ => return "this"
  | super _ => return "super"
  | fieldAccess _ receiver field => do
    let receiver ← render source receiver
    return receiver ++ "." ++ field.text
  | arrayAccess _ array index => do
    let array ← render source array
    let index ← render source index
    return array ++ "[" ++ index ++ "]"
  | call _ method arguments => do
    let arguments ← renderAll source arguments
    return method.text ++ "(" ++ ", ".intercalate arguments ++ ")"
  | memberCall _ receiver method arguments => do
    let receiver ← render source receiver
    let arguments ← renderAll source arguments
    return receiver ++ "." ++ method.text ++ "(" ++ ", ".intercalate arguments ++ ")"
  | creation span type arguments body => do
    if body.isSome then copy source (creation span type arguments body)
    else
      let arguments ← renderAll source arguments
      return "new " ++ type.text ++ "(" ++ ", ".intercalate arguments ++ ")"
  | innerCreation span outer type arguments body => do
    if body.isSome then copy source (innerCreation span outer type arguments body)
    else
      let outer ← render source outer
      let arguments ← renderAll source arguments
      return outer ++ ".new " ++ type.text ++ "(" ++ ", ".intercalate arguments ++ ")"
  | unary _ op operand => do
    let operand ← render source operand
    return "(" ++ op.symbol ++ " " ++ operand ++ ")"
  | update _ op operand => do
    let operand ← render source operand
    return "(" ++ operand ++ " " ++ op.symbol ++ ")"
  | binary _ op left right => do
    let left ← render source left
    let right ← render source right
    return "(" ++ left ++ " " ++ op.symbol ++ " " ++ right ++ ")"
  | instanceOf _ operand type binding => do
    let operand ← render source operand
    let binding := match binding with
      | some binding => " " ++ binding
      | none => ""
    return "(" ++ operand ++ " instanceof " ++ type.text ++ binding ++ ")"
  | conditional _ condition whenTrue whenFalse => do
    let condition ← render source condition
    let whenTrue ← render source whenTrue
    let whenFalse ← render source whenFalse
    return "(" ++ condition ++ " ? " ++ whenTrue ++ " : " ++ whenFalse ++ ")"
  | assignment _ op target value => do
    let target ← render source target
    let value ← render source value
    return "(" ++ target ++ " " ++ op.symbol ++ " " ++ value ++ ")"
  | cast _ type operand => do
    let operand ← render source operand
    return "((" ++ type.text ++ ") " ++ operand ++ ")"
  | parenthesized _ inner => do
    let text ← render source inner
    return if inner.hasParens then text else "(" ++ text ++ ")"
  | excerpt span kind => copy source (excerpt span kind)
  | missing span => .error ⟨(missing span).title, span⟩

/-- The renderings of some expressions. -/
def renderAll (source : Source) : List Expr → Except Unrenderable (List String)
  | [] => return []
  | expr :: exprs => do
    let text ← render source expr
    let texts ← renderAll source exprs
    return text :: texts

end

end Expr

end JavaOutline
