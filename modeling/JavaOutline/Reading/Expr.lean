import JavaOutline.Reading.Operator
import JavaOutline.Reading.TypeRef

/-!
# Reading expressions

The grammar of expressions, from the loosest binding rule to the tightest: assignments, conditional
expressions, binary operators by precedence climbing, operators before an operand, and selectors
after one. The rules call each other only after reading a token, so the nesting of calls is bounded
by the number of tokens: `rules n` allows `n` nested calls, and `expr` allows one more than there
are tokens.
-/

namespace JavaOutline

namespace Cursor

/-- Whether a closing parenthesis that matches `depth` open ones comes before any brace or
semicolon, and an arrow follows it. -/
def arrowAfterParens : (depth : Nat) → List Token → Bool
  | _, [] => false
  | depth, token :: rest =>
    match token.kind with
    | .openParen => arrowAfterParens (depth + 1) rest
    | .closeParen =>
      if depth ≤ 1 then rest.head?.any (·.kind = .arrow) else arrowAfterParens (depth - 1) rest
    | .semicolon | .openBrace | .closeBrace => false
    | _ => arrowAfterParens depth rest

/-- Whether a lambda begins at the cursor. -/
def isAtLambda (cursor : Cursor) : Bool :=
  (cursor.isAtIdentifier && cursor.isAhead 1 [.arrow])
    || (cursor.isAt .openParen && arrowAfterParens 0 cursor.rest)

/-- Whether the operand of a cast to a reference type may begin at the cursor. -/
def isAtOperand (cursor : Cursor) : Bool :=
  cursor.rest.head?.any fun token =>
    match token.kind with
    | .word => !isReserved token.text || operandWords.contains token.text
    | .openParen | .bang | .tilde => true
    | kind => kind.isLiteral

end Cursor

namespace Parser

/-- The rules of the grammar that call each other. -/
structure Rules where
  /-- An expression of any kind. -/
  expr : Parser (Option Expr)
  /-- A conditional expression or one that binds tighter. -/
  conditional : Parser (Option Expr)
  /-- Operands joined by binary operators of at least the given precedence. -/
  binary : Nat → Parser (Option Expr)
  /-- An operand with the operators before and after it. -/
  unary : Parser (Option Expr)
  /-- An operand without operators. -/
  primary : Parser (Option Expr)

/-- The expression that stands for one that is not there. -/
def missing : Parser Expr := fun cursor =>
  (.missing (.point cursor.here), cursor)

/-- Reads an expression; one that is not there is missing. -/
def orMissing (parser : Parser (Option Expr)) : Parser Expr := do
  match ← parser with
  | some expr => return expr
  | none => missing

/-- Reads an excerpt that begins at `start` by skipping it. -/
def excerptFrom (start : Nat) (kind : ExcerptKind) : Parser Expr := do
  return .excerpt (← spanFrom start) kind

/-- Reads a lambda. -/
def lambdaWith (rules : Rules) : Parser Expr := do
  let cursor ← get
  if cursor.isAt .openParen then skipParens else advance 1
  discard <| accept .arrow
  if (← get).isAt .openBrace then
    skipBraces
    excerptFrom cursor.here .lambda
  else
    match ← rules.expr with
    | some _ => excerptFrom cursor.here .lambda
    | none => missing

/-- Reads the value of a variable or of an assignment: an array initializer or an expression. -/
def valueWith (rules : Rules) : Parser Expr := do
  let cursor ← get
  if cursor.isAt .openBrace then
    skipBraces
    excerptFrom cursor.here .arrayInitializer
  else orMissing rules.expr

/-- Reads arguments in parentheses. After an argument that does not end at a comma, tokens are
skipped to the next comma. -/
def argumentsWith (rules : Rules) : Parser (List Expr) := do
  discard <| accept .openParen
  let arguments ← many do
    let cursor ← get
    if cursor.atEnd || cursor.isAt .closeParen then return none
    let argument ← rules.expr
    let argument ← match argument with
      | some argument => pure argument
      | none => do
        let argument ← missing
        advance 1
        pure argument
    unless ← accept .comma do
      unless (← get).isAt .closeParen do
        skipTo [.comma, .closeParen]
        discard <| accept .comma
    return some argument
  discard <| accept .closeParen
  return arguments

/-- Reads an allocation that begins at `start`, inside an instance if one is given. -/
def creationWith (rules : Rules) (outer : Option Expr) (start : Nat) : Parser Expr := do
  discard <| acceptWord "new"
  discard skipTypeArguments
  let type ← typeRef
  let cursor ← get
  if cursor.isAt .openBracket || (type.isArray && cursor.isAt .openBrace) then
    repeatWhile do
      let bracket := (← get).isAt .openBracket
      skipBrackets
      return bracket
    skipBraces
    excerptFrom start .arrayCreation
  else
    let arguments ← if cursor.isAt .openParen then argumentsWith rules else pure []
    let cursor ← get
    let body ← if cursor.isAt .openBrace then do
        skipBraces
        pure (some (← spanFrom cursor.here))
      else pure none
    let span ← spanFrom start
    return match outer with
      | none => .creation span type arguments body
      | some outer => .innerCreation span outer type arguments body

/-- Reads a word that begins an operand. -/
def wordWith (rules : Rules) (token : Token) : Parser (Option Expr) := do
  let start := token.span.start
  let name : Name := ⟨token.text, token.span⟩
  if token.text = "true" || token.text = "false" then
    advance 1
    return some (.literal token.span .boolean token.text)
  else if token.text = "null" then
    advance 1
    return some (.literal token.span .null token.text)
  else if token.text = "this" || token.text = "super" then
    advance 1
    if (← get).isAt .openParen then
      let arguments ← argumentsWith rules
      return some (.call (← spanFrom start) name arguments)
    return some (if token.text = "this" then .this token.span else .super token.span)
  else if token.text = "new" then
    return some (← creationWith rules none start)
  else if token.text = "switch" then
    advance 1
    skipParens
    skipBraces
    return some (← excerptFrom start .switch)
  else if isPrimitive token.text then
    advance 1
    discard skipBracketPairs
    let cursor ← get
    if cursor.isAt .dot && cursor.isWordAhead 1 "class" then
      advance 2
      return some (← excerptFrom start .classLiteral)
    return some (.name (← spanFrom start) token.text)
  else if isReserved token.text then
    return none
  else
    advance 1
    if (← get).isAt .openParen then
      let arguments ← argumentsWith rules
      return some (.call (← spanFrom start) name arguments)
    return some (.name token.span token.text)

/-- Reads an operand without operators. Type arguments in front of it are skipped. -/
def primaryWith (rules : Rules) : Parser (Option Expr) := do
  match (← get).rest with
  | [] => return none
  | token :: _ =>
    let literal (kind : LiteralKind) : Parser (Option Expr) := do
      advance 1
      return some (.literal token.span kind token.text)
    match token.kind with
    | .integer => literal .integer
    | .floating => literal .floating
    | .character => literal .character
    | .string => literal .string
    | .textBlock => literal .textBlock
    | .openParen =>
      advance 1
      let inner ← orMissing rules.expr
      discard <| accept .closeParen
      return some (.parenthesized (← spanFrom token.span.start) inner)
    | .openBrace =>
      skipBraces
      return some (← excerptFrom token.span.start .arrayInitializer)
    | .less => if ← skipTypeArguments then rules.primary else return none
    | .word => wordWith rules token
    | _ => return none

/-- Reads what follows a dot after an operand; `none` if no word does. -/
def selectionWith (rules : Rules) (receiver : Expr) : Parser (Option Expr) := do
  let start := receiver.span.start
  advance 1
  discard skipTypeArguments
  match (← get).rest with
  | [] => return none
  | token :: _ =>
    if token.kind ≠ .word then return none
    else if token.text = "new" then
      return some (← creationWith rules (some receiver) start)
    else if token.text = "class" then
      advance 1
      return some (← excerptFrom start .classLiteral)
    else
      advance 1
      let name : Name := ⟨token.text, token.span⟩
      if (← get).isAt .openParen then
        let arguments ← argumentsWith rules
        return some (.memberCall (← spanFrom start) receiver name arguments)
      return some (.fieldAccess (← spanFrom start) receiver name)

/-- Reads brackets after an operand: an index, or the pairs of an array type. -/
def indexWith (rules : Rules) (array : Expr) : Parser Expr := do
  let start := array.span.start
  if (← get).isAtBrackets then
    discard skipBracketPairs
    let cursor ← get
    if cursor.isAt .dot && cursor.isWordAhead 1 "class" then
      advance 2
      excerptFrom start .classLiteral
    else return array
  else
    advance 1
    let index ← orMissing rules.expr
    discard <| accept .closeBracket
    return .arrayAccess (← spanFrom start) array index

/-- Reads a method reference after its receiver. -/
def methodReference (receiver : Expr) : Parser Expr := do
  advance 1
  discard skipTypeArguments
  if (← get).isAt .word then advance 1
  excerptFrom receiver.span.start .methodReference

/-- Whether type arguments may follow an expression, because it may name a type. -/
def maybeType : Expr → Bool
  | .name .. | .fieldAccess .. => true
  | _ => false

/-- Reads one selector or operator after an operand; `none` if there is none. -/
def selectorWith (rules : Rules) (operand : Expr) : Parser (Option Expr) := do
  let cursor ← get
  match cursor.kindAhead? 0 with
  | some .dot => selectionWith rules operand
  | some .openBracket => return some (← indexWith rules operand)
  | some .doubleColon => return some (← methodReference operand)
  | some .less =>
    unless maybeType operand do return none
    discard skipTypeArguments
    if (← get).isAt .doubleColon then return some operand
    set cursor
    return none
  | _ =>
    match cursor.updateOp? with
    | some op =>
      advance 1
      return some (.update (← spanFrom operand.span.start) op operand)
    | none => return none

/-- Reads an operand with the selectors and operators after it. -/
def operandWith (rules : Rules) : Parser (Option Expr) := do
  match ← primaryWith rules with
  | none => return none
  | some operand => return some (← iterate (selectorWith rules) operand)

/-- Reads the further types of a cast to several types at once; `none` if one is missing. -/
def castType? (type : TypeRef) : Parser (Option TypeRef) :=
  iterate (fun type? => do
    match type? with
    | none => return none
    | some (type : TypeRef) =>
      if ← accept .amp then
        match ← typeRef? with
        | some more => return some (some ⟨type.text ++ "&" ++ more.text, type.span.cover more.span⟩)
        | none => return some none
      else return none)
    (some type)

/-- Reads a cast. Where there is none, nothing is read. -/
def castWith (rules : Rules) : Parser (Option Expr) := do
  let before ← get
  advance 1
  let some type ← typeRef? | set before; return none
  let some type ← castType? type | set before; return none
  unless ← accept .closeParen do
    set before
    return none
  let cursor ← get
  let signed := cursor.isAhead 0 [.plus, .minus, .increment, .decrement]
  unless cursor.isAtOperand || (type.isPrimitive && signed) do
    set before
    return none
  let operand ← if cursor.isAtLambda then lambdaWith rules else orMissing rules.unary
  return some (.cast (← spanFrom before.here) type operand)

/-- Reads an operand with the operators before and after it. -/
def unaryWith (rules : Rules) : Parser (Option Expr) := do
  let cursor ← get
  match cursor.unaryOp? with
  | some op =>
    advance 1
    let operand ← orMissing rules.unary
    return some (.unary (← spanFrom cursor.here) op operand)
  | none =>
    if cursor.isAt .openParen then
      match ← castWith rules with
      | some cast => return some cast
      | none => operandWith rules
    else operandWith rules

/-- Reads one type test or binary operator of at least precedence `least`, and what follows it. -/
def binaryStepWith (rules : Rules) (least : Nat) (left : Expr) : Parser (Option Expr) := do
  let cursor ← get
  if cursor.isAtWord "instanceof" then
    if instanceOfPrecedence < least then return none
    advance 1
    discard <| acceptWord "final"
    let type ← typeRef
    skipParens
    let binding ← if (← get).isAtIdentifier then next? else pure none
    return some (.instanceOf (← spanFrom left.span.start) left type (binding.map (·.text)))
  else
    match cursor.binaryOp? with
    | none => return none
    | some (op, width) =>
      if op.precedence < least then return none
      advance width
      let right ← orMissing (rules.binary (op.precedence + 1))
      return some (.binary (← spanFrom left.span.start) op left right)

/-- Reads operands joined by binary operators of at least precedence `least`. -/
def binaryWith (rules : Rules) (least : Nat) : Parser (Option Expr) := do
  match ← unaryWith rules with
  | none => return none
  | some left => return some (← iterate (binaryStepWith rules least) left)

/-- Reads a conditional expression or one that binds tighter. -/
def conditionalWith (rules : Rules) : Parser (Option Expr) := do
  match ← binaryWith rules 0 with
  | none => return none
  | some condition =>
    unless ← accept .question do
      return some condition
    let whenTrue ← orMissing rules.expr
    discard <| accept .colon
    let whenFalse ←
      if (← get).isAtLambda then lambdaWith rules else orMissing rules.conditional
    return some (.conditional (← spanFrom condition.span.start) condition whenTrue whenFalse)

/-- Reads an expression of any kind. -/
def exprWith (rules : Rules) : Parser (Option Expr) := do
  if (← get).isAtLambda then
    return some (← lambdaWith rules)
  match ← conditionalWith rules with
  | none => return none
  | some target =>
    match (← get).assignOp? with
    | none => return some target
    | some (op, width) =>
      advance width
      let value ← valueWith rules
      return some (.assignment (← spanFrom target.span.start) op target value)

/-- The rules, which may call each other `n` times in each other. -/
def rules : Nat → Rules
  | 0 =>
    { expr := pure none
      conditional := pure none
      binary := fun _ => pure none
      unary := pure none
      primary := pure none }
  | n + 1 =>
    { expr := fun cursor => exprWith (rules n) cursor
      conditional := fun cursor => conditionalWith (rules n) cursor
      binary := fun least cursor => binaryWith (rules n) least cursor
      unary := fun cursor => unaryWith (rules n) cursor
      primary := fun cursor => primaryWith (rules n) cursor }

/-- Reads an expression. -/
def expr : Parser (Option Expr) := fun cursor =>
  exprWith (rules (cursor.rest.length + 1)) cursor

end Parser

end JavaOutline
