import JavaOutline.Java.Operator
import JavaOutline.Reading.Cursor

/-!
# Reading operators

An operator is recognised at the cursor with the number of its tokens. Right shifts and their
assignments consist of `>` tokens that touch.
-/

namespace JavaOutline.Cursor

/-- The assignment operator at the cursor and its number of tokens. -/
def assignOp? (cursor : Cursor) : Option (AssignOp × Nat) :=
  match cursor.kindAhead? 0 with
  | some .assign => some (.assign, 1)
  | some .plusAssign => some (.add, 1)
  | some .minusAssign => some (.subtract, 1)
  | some .starAssign => some (.multiply, 1)
  | some .slashAssign => some (.divide, 1)
  | some .percentAssign => some (.remainder, 1)
  | some .ampAssign => some (.bitAnd, 1)
  | some .pipeAssign => some (.bitOr, 1)
  | some .caretAssign => some (.bitXor, 1)
  | some .shiftLeftAssign => some (.shiftLeft, 1)
  | some .greater =>
    if cursor.isAhead 1 [.greater] && cursor.isAhead 2 [.greaterEqual]
        && cursor.touches 0 && cursor.touches 1 then
      some (.shiftRightZero, 3)
    else if cursor.isAhead 1 [.greaterEqual] && cursor.touches 0 then some (.shiftRight, 2)
    else none
  | _ => none

/-- The binary operator at the cursor and its number of tokens. -/
def binaryOp? (cursor : Cursor) : Option (BinaryOp × Nat) :=
  match cursor.kindAhead? 0 with
  | some .pipePipe => some (.or, 1)
  | some .ampAmp => some (.and, 1)
  | some .pipe => some (.bitOr, 1)
  | some .caret => some (.bitXor, 1)
  | some .amp => some (.bitAnd, 1)
  | some .equal => some (.equal, 1)
  | some .notEqual => some (.notEqual, 1)
  | some .less => some (.less, 1)
  | some .lessEqual => some (.lessEqual, 1)
  | some .greaterEqual => some (.greaterEqual, 1)
  | some .shiftLeft => some (.shiftLeft, 1)
  | some .plus => some (.add, 1)
  | some .minus => some (.subtract, 1)
  | some .star => some (.multiply, 1)
  | some .slash => some (.divide, 1)
  | some .percent => some (.remainder, 1)
  | some .greater =>
    let second := if cursor.touches 0 then cursor.kindAhead? 1 else none
    let third := if cursor.touches 1 then cursor.kindAhead? 2 else none
    match second, third with
    | some .greater, some .greater => some (.shiftRightZero, 3)
    | some .greater, some .greaterEqual => none
    | some .greaterEqual, _ => none
    | some .greater, _ => some (.shiftRight, 2)
    | _, _ => some (.greater, 1)
  | _ => none

/-- The operator before an operand at the cursor. -/
def unaryOp? (cursor : Cursor) : Option UnaryOp :=
  match cursor.kindAhead? 0 with
  | some .plus => some .plus
  | some .minus => some .minus
  | some .bang => some .not
  | some .tilde => some .complement
  | some .increment => some .increment
  | some .decrement => some .decrement
  | _ => none

/-- The operator after an operand at the cursor. -/
def updateOp? (cursor : Cursor) : Option UpdateOp :=
  match cursor.kindAhead? 0 with
  | some .increment => some .increment
  | some .decrement => some .decrement
  | _ => none

end JavaOutline.Cursor
