import JavaOutline.Proofs.Reading.Spelled
import JavaOutline.Proofs.Reading.Types

/-!
# What goes on with an expression

Whether more tokens go on with an expression shows where it ends: behind an operand an operator or a
selector does, and behind a name the arguments of a call. Nothing goes on with the type of a type
test, the block of a lambda or an array initializer. A lambda does not keep its body, so what it
ends with is told from its tokens. A type goes on with a word behind a dot, with type arguments and
with bracket pairs, and the operand of a cast goes on with a type in parentheses.
-/

namespace JavaOutline

/-- Whether an operand without a body may end with a token of this kind. -/
def TokenKind.endsOperand : TokenKind → Bool
  | .word | .closeParen | .closeBracket => true
  | kind => kind.isLiteral

/-- Whether an operator between two operands may begin with a token of this kind. -/
def TokenKind.beginsOperator : TokenKind → Bool
  | .pipePipe | .ampAmp | .pipe | .caret | .amp | .equal | .notEqual | .less | .lessEqual
  | .greater | .greaterEqual | .shiftLeft | .plus | .minus | .star | .slash | .percent
  | .question | .assign | .plusAssign | .minusAssign | .starAssign | .slashAssign | .percentAssign
  | .ampAssign | .pipeAssign | .caretAssign | .shiftLeftAssign => true
  | _ => false

/-- Whether a selector begins with a token of this kind. -/
def TokenKind.beginsSelector : TokenKind → Bool
  | .dot | .openBracket | .doubleColon => true
  | _ => false

/-- Whether a token of this kind is an operator behind an operand. -/
def TokenKind.isUpdate : TokenKind → Bool
  | .increment | .decrement => true
  | _ => false

namespace Token

/-- Whether a token begins an operator between two operands. -/
def isOperator (token : Token) : Bool := token.kind.beginsOperator || token.isWord "instanceof"

/-- Whether a token is a word that is not reserved. -/
def isName (token : Token) : Bool := token.kind = .word && !isReserved token.text

/-- Whether the operand of a cast may begin with a token. -/
def beginsCastOperand (token : Token) : Bool :=
  token.beginsOperand || token.isWord "switch" ||
    [TokenKind.openParen, .bang, .tilde].contains token.kind

end Token

/-- Whether some tokens go on with a type that was read from the tokens in front of them. -/
inductive TypeGoesOn (read : List Token) : List Token → Prop
  /-- A bracket pair does. -/
  | pair {opening closing : Token} {later : List Token} (some_read : read ≠ [])
      (opens : opening.kind = .openBracket) (closes : closing.kind = .closeBracket) :
      TypeGoesOn read (opening :: closing :: later)
  /-- Type arguments do, unless bracket pairs stand in front of them. -/
  | arguments {last opening : Token} {later : List Token} (last_eq : read.getLast? = some last)
      (no_pair : last.kind ≠ .closeBracket) (opens : opening.kind = .less) :
      TypeGoesOn read (opening :: later)
  /-- A word behind a dot does, unless bracket pairs stand in front of it. -/
  | member {last dot word : Token} {later : List Token} (last_eq : read.getLast? = some last)
      (no_pair : last.kind ≠ .closeBracket) (is_dot : dot.kind = .dot) (named : word.isName) :
      TypeGoesOn read (dot :: word :: later)

/-- The tokens of some types in parentheses, with ampersands between the types. -/
inductive IsCastTarget : List Token → Prop
  | mk (opening : Mark .openParen) (type : WrittenType) (more : List (Mark .amp × WrittenType))
      (closing : Mark .closeParen) : IsCastTarget (opening.token ::
        (type.tokens ++ more.flatMap (fun part => part.1.token :: part.2.tokens) ++
          [closing.token]))

namespace Expr

/-- What an expression ends with: the last of its operands. -/
def lastOperand : Expr → Expr
  | unary _ _ operand | cast _ _ operand => operand.lastOperand
  | binary _ _ _ right => right.lastOperand
  | conditional _ _ _ whenFalse => whenFalse.lastOperand
  | assignment _ _ _ value => value.lastOperand
  | expr => expr

/-- Whether it is not known what an expression ends with, as the last operand is a lambda or is
missing. -/
def endsOpen (expr : Expr) : Bool :=
  match expr.lastOperand with
  | excerpt _ .lambda | missing _ => true
  | _ => false

/-- Whether a brace at the end of an expression may be that of a lambda or an array initializer. -/
def endsInBody (expr : Expr) : Bool :=
  match expr.lastOperand with
  | excerpt _ .arrayInitializer => true
  | _ => expr.endsOpen

/-- Whether an expression ends with a type test. -/
def endsInTest (expr : Expr) : Bool :=
  match expr.lastOperand with
  | instanceOf .. => true
  | _ => false

/-- Whether an expression ends with a name that may be called. -/
def endsInName (expr : Expr) : Bool :=
  match expr.lastOperand with
  | name .. | fieldAccess .. => true
  | _ => false

/-- Whether an expression that was read from some tokens may end with a type test. -/
def MayTest (expr : Expr) (read : List Token) : Prop :=
  (expr.endsInTest ∨ expr.endsOpen) ∧ ∃ token ∈ read, token.isWord "instanceof"

/-- Whether an expression that was read from some tokens ends with a name that may be called. Among
the tokens of a lambda, a name may be that of a type test or of a method reference. -/
def MayBeCalled (expr : Expr) (read : List Token) : Prop :=
  expr.endsInName ∨
    expr.endsOpen ∧ ¬∃ token ∈ read, token.isWord "instanceof" ∨ token.kind = .doubleColon

/-- Whether a token is the last one of an operand that other tokens may go on with. -/
def IsOperandEnd (expr : Expr) (last : Token) : Prop :=
  last.kind.endsOperand ∨ last.kind = .closeBrace ∧ expr.endsInBody = false

/-- Whether some tokens go on with an expression that was read from the tokens in front of them. -/
def GoesOn (expr : Expr) (read behind : List Token) : Prop :=
  ∃ last ∈ read.getLast?, ∃ next ∈ behind.head?,
    expr.IsOperandEnd last ∧ next.isOperator ∨
    expr.IsOperandEnd last ∧ next.kind.beginsSelector ∧ ¬expr.MayTest read ∨
    expr.IsOperandEnd last ∧ next.kind.isUpdate ∧ ¬expr.MayTest read ∧
      ¬(expr.endsOpen ∧ last.kind = .closeParen) ∨
    last.isName ∧ next.kind = .openParen ∧ expr.MayBeCalled read

end Expr

end JavaOutline
