/-!
# Operators and literals

Each operator has its written symbol; binary operators also have a precedence, and a higher one
binds tighter.
-/

namespace JavaOutline

/-- The kinds of literal. -/
inductive LiteralKind where
  | integer | floating | character | string | textBlock | boolean | null
  deriving DecidableEq, Repr

/-- The operators written before their operand. -/
inductive UnaryOp where
  | plus | minus | not | complement | increment | decrement
  deriving DecidableEq, Repr

/-- The operators written after their operand. -/
inductive UpdateOp where
  | increment | decrement
  deriving DecidableEq, Repr

/-- The operators written between two operands. -/
inductive BinaryOp where
  | or | and | bitOr | bitXor | bitAnd
  | equal | notEqual | less | greater | lessEqual | greaterEqual
  | shiftLeft | shiftRight | shiftRightZero
  | add | subtract | multiply | divide | remainder
  deriving DecidableEq, Repr

/-- The assignments: the plain one, and those that first combine with the old value. -/
inductive AssignOp where
  | assign | add | subtract | multiply | divide | remainder
  | bitAnd | bitOr | bitXor | shiftLeft | shiftRight | shiftRightZero
  deriving DecidableEq, Repr

/-- The written form of an operator before its operand. -/
def UnaryOp.symbol : UnaryOp → String
  | .plus => "+"
  | .minus => "-"
  | .not => "!"
  | .complement => "~"
  | .increment => "++"
  | .decrement => "--"

/-- The written form of an operator after its operand. -/
def UpdateOp.symbol : UpdateOp → String
  | .increment => "++"
  | .decrement => "--"

/-- The written form of a binary operator. -/
def BinaryOp.symbol : BinaryOp → String
  | .or => "||"
  | .and => "&&"
  | .bitOr => "|"
  | .bitXor => "^"
  | .bitAnd => "&"
  | .equal => "=="
  | .notEqual => "!="
  | .less => "<"
  | .greater => ">"
  | .lessEqual => "<="
  | .greaterEqual => ">="
  | .shiftLeft => "<<"
  | .shiftRight => ">>"
  | .shiftRightZero => ">>>"
  | .add => "+"
  | .subtract => "-"
  | .multiply => "*"
  | .divide => "/"
  | .remainder => "%"

/-- How tight a binary operator binds. -/
def BinaryOp.precedence : BinaryOp → Nat
  | .or => 1
  | .and => 2
  | .bitOr => 3
  | .bitXor => 4
  | .bitAnd => 5
  | .equal | .notEqual => 6
  | .less | .greater | .lessEqual | .greaterEqual => 7
  | .shiftLeft | .shiftRight | .shiftRightZero => 8
  | .add | .subtract => 9
  | .multiply | .divide | .remainder => 10

/-- How tight a type test binds: as tight as a comparison. -/
def instanceOfPrecedence : Nat := BinaryOp.less.precedence

/-- The written form of an assignment. -/
def AssignOp.symbol : AssignOp → String
  | .assign => "="
  | .add => "+="
  | .subtract => "-="
  | .multiply => "*="
  | .divide => "/="
  | .remainder => "%="
  | .bitAnd => "&="
  | .bitOr => "|="
  | .bitXor => "^="
  | .shiftLeft => "<<="
  | .shiftRight => ">>="
  | .shiftRightZero => ">>>="

end JavaOutline
