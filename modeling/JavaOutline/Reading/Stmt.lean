import JavaOutline.Reading.Expr

/-!
# Reading statements

The grammar of statements. A statement always reads at least one token, unless there is none left,
so statements nest at most as deep as there are tokens: `stmtUpTo n` allows `n` nested statements,
and `stmt` and `block` allow one more than there are tokens.
-/

namespace JavaOutline

namespace Cursor

/-- The kind of type whose declaration begins at the cursor, and the number of tokens that say
so. -/
def typeKind? (cursor : Cursor) : Option (TypeKind × Nat) :=
  if cursor.isAt .atSign && cursor.isWordAhead 1 "interface" then some (.annotationType, 2)
  else if cursor.isAtWord "class" then some (.classType, 1)
  else if cursor.isAtWord "interface" then some (.interfaceType, 1)
  else if cursor.isAtWord "enum" then some (.enumType, 1)
  else if cursor.isAtWord "record" && cursor.isAhead 1 [.word] then some (.recordType, 1)
  else none

/-- Whether a label of a `switch` begins at the cursor. -/
def isAtLabel (cursor : Cursor) : Bool :=
  cursor.isAtWord "case"
    || (cursor.isAtWord "default" && cursor.isAhead 1 [.colon, .arrow])

end Cursor

namespace Parser

/-- Reads an expression in parentheses; any of the three may be missing. -/
def conditionWith (rules : Rules) : Parser Expr := do
  discard <| accept .openParen
  let condition ← orMissing rules.expr
  discard <| accept .closeParen
  return condition

/-- Reads the variables of a declaration after its type. -/
def declaratorsWith (rules : Rules) : Parser (List Declarator) := do
  let (declarators, _) ← iterate (fun (declarators, more) => do
    if !more then return none
    match (← get).rest with
    | [] => return none
    | name :: _ =>
      if name.kind = .word then
        advance 1
        discard skipBracketPairs
        let value ← if ← accept .assign then some <$> valueWith rules else pure none
        let declarator : Declarator :=
          ⟨← spanFrom name.span.start, ⟨name.text, name.span⟩, value⟩
        return some (declarators ++ [declarator], ← accept .comma)
      else return none)
    (([] : List Declarator), true)
  return declarators

/-- Reads a declaration of variables without the semicolon after it. Where there is none, nothing
is read. -/
def variablesWith (rules : Rules) : Parser (Option Variables) := do
  let before ← get
  skipVariableModifiers
  let some type ← typeRef? | set before; return none
  let cursor ← get
  unless cursor.isAtIdentifier
      && cursor.isAhead 1 [.assign, .semicolon, .comma, .openBracket, .colon, .closeParen] do
    set before
    return none
  let declarators ← declaratorsWith rules
  return some ⟨← spanFrom before.here, type, declarators⟩

/-- Reads the declaration of a type among statements. Where there is none, nothing is read. -/
def localType? (start : Nat) : Parser (Option Stmt) := do
  let before ← get
  skipModifiers
  let some (kind, width) := (← get).typeKind? | set before; return none
  advance width
  let name ← if (← get).isAt .word then next? else pure none
  skipHeader
  skipBraces
  return some (.localType (← spanFrom start) kind ((name.map (·.text)).getD ""))

/-- The statement that consists of an expression. A call of `this` or `super` is an explicit
constructor call. -/
def statementOf (span : Span) : Expr → Stmt
  | .call callSpan method arguments =>
    if method.text = "this" then .constructorCall span .this none arguments
    else if method.text = "super" then .constructorCall span .super none arguments
    else .expr span (.call callSpan method arguments)
  | .memberCall callSpan receiver method arguments =>
    if method.text = "this" then .constructorCall span .this (some receiver) arguments
    else if method.text = "super" then .constructorCall span .super (some receiver) arguments
    else .expr span (.memberCall callSpan receiver method arguments)
  | expr => .expr span expr

/-- Reads a statement that consists of an expression. If there is none, one token is read and left
unparsed. -/
def exprStmtWith (rules : Rules) (start : Nat) : Parser Stmt := do
  match ← rules.expr with
  | none =>
    match ← next? with
    | some token => return .unparsed token.span
    | none => return .unparsed (.point start)
  | some expr =>
    discard <| accept .semicolon
    return statementOf (← spanFrom start) expr

/-- Reads a declaration of a type or of variables, or else an expression. -/
def declarationWith (rules : Rules) (start : Nat) : Parser Stmt := do
  if let some stmt ← localType? start then
    return stmt
  match ← variablesWith rules with
  | some declaration =>
    discard <| accept .semicolon
    return .locals { declaration with span := ← spanFrom start }
  | none => exprStmtWith rules start

/-- Reads a block. Its braces may be missing. -/
def blockWith (stmt : Parser Stmt) : Parser Block := do
  let start := (← get).here
  discard <| accept .openBrace
  let statements ← many do
    let cursor ← get
    if cursor.atEnd || cursor.isAt .closeBrace then return none
    return some (← stmt)
  discard <| accept .closeBrace
  return .mk (← spanFrom start) statements

/-- Reads expressions with commas between them, up to a token of a kind. -/
def exprsWith (rules : Rules) (stop : TokenKind) : Parser (List Expr) := do
  let (exprs, _) ← iterate (fun (exprs, more) => do
    let cursor ← get
    if !more || cursor.atEnd || cursor.isAt stop then return none
    let expr ← rules.expr
    let expr ← match expr with
      | some expr => pure expr
      | none => do
        let expr ← missing
        advance 1
        pure expr
    return some (exprs ++ [expr], ← accept .comma))
    (([] : List Expr), true)
  return exprs

/-- Reads the header of a loop over a collection, through the colon. Where there is none, nothing
is read. -/
def forEachHeader? : Parser (Option Parameter) := do
  let before ← get
  skipVariableModifiers
  match ← parameter? with
  | some parameter =>
    if ← accept .colon then return some parameter
    set before
    return none
  | none =>
    set before
    return none

/-- Reads a `for` statement. -/
def forWith (rules : Rules) (stmt : Parser Stmt) (start : Nat) : Parser Stmt := do
  advance 1
  discard <| accept .openParen
  match ← forEachHeader? with
  | some element =>
    let collection ← orMissing rules.expr
    discard <| accept .closeParen
    let body ← stmt
    return .forEach (← spanFrom start) element collection body
  | none =>
    let init ← if (← get).isAt .semicolon then pure ForInit.nothing else do
      match ← variablesWith rules with
      | some declaration => pure (.locals declaration)
      | none => pure (.exprs (← exprsWith rules .semicolon))
    discard <| accept .semicolon
    let condition ← if (← get).isAt .semicolon then pure none else rules.expr
    discard <| accept .semicolon
    let update ← exprsWith rules .closeParen
    discard <| accept .closeParen
    let body ← stmt
    return .forLoop (← spanFrom start) init condition update body

/-- Reads one value of a `case` label. A value that does not end at a comma, a colon or an arrow is
a pattern, and is kept as it is written. -/
def caseValueWith (rules : Rules) : Parser Expr := do
  let before ← get
  let value ← if ← acceptWord "default" then
      some <$> excerptFrom before.here .pattern
    else rules.conditional
  let ends := (← get).isAhead 0 [.comma, .colon, .arrow]
  match value with
  | some value =>
    if ends then return value
    set before
    skipTo [.comma, .colon, .arrow]
    excerptFrom before.here .pattern
  | none =>
    set before
    skipTo [.comma, .colon, .arrow]
    excerptFrom before.here .pattern

/-- Reads the values of a `case` label. -/
def caseValuesWith (rules : Rules) : Parser (List Expr) := do
  let (values, _) ← iterate (fun (values, more) => do
    if !more then return none
    let value ← caseValueWith rules
    return some (values ++ [value], ← accept .comma))
    (([] : List Expr), true)
  return values

/-- Reads a label of a `switch`, and says whether it ends in an arrow. -/
def labelWith (rules : Rules) : Parser (SwitchLabel × Bool) := do
  let start := (← get).here
  let values ← if ← acceptWord "default" then pure none else do
    advance 1
    some <$> caseValuesWith rules
  let arrow ← accept .arrow
  unless arrow do
    discard <| accept .colon
  let span ← spanFrom start
  match values with
  | some values => return (.case span values, arrow)
  | none => return (.default span, arrow)

/-- Reads the labels of a group; a label with an arrow is the last one. -/
def labelsWith (rules : Rules) : Parser (List SwitchLabel × Bool) :=
  iterate (fun (labels, arrow) => do
    if arrow || !(← get).isAtLabel then return none
    let (label, arrow) ← labelWith rules
    return some (labels ++ [label], arrow))
    ([], false)

/-- Reads a group of a `switch`: labels and the statements up to the next label. After an arrow
there is one statement. -/
def groupWith (rules : Rules) (stmt : Parser Stmt) : Parser SwitchGroup := do
  let start := (← get).here
  let (labels, arrow) ← labelsWith rules
  let statements ← if arrow then do pure [← stmt] else many do
    let cursor ← get
    if cursor.atEnd || cursor.isAt .closeBrace || cursor.isAtLabel then return none
    return some (← stmt)
  return .mk (← spanFrom start) arrow labels statements

/-- Reads a `switch` statement. -/
def switchWith (rules : Rules) (stmt : Parser Stmt) (start : Nat) : Parser Stmt := do
  advance 1
  let selector ← conditionWith rules
  discard <| accept .openBrace
  let groups ← many do
    let cursor ← get
    if cursor.atEnd || cursor.isAt .closeBrace then return none
    return some (← groupWith rules stmt)
  discard <| accept .closeBrace
  return .switch (← spanFrom start) selector groups

/-- Reads the resources of a `try` and gives their spans. A resource runs to a semicolon; the list
ends at a closing bracket of any kind. -/
def resources : Parser (List Span) := do
  unless ← accept .openParen do return []
  let spans ← many do
    let cursor ← get
    if cursor.atEnd || cursor.isAhead 0 [.closeParen, .closeBrace, .closeBracket] then return none
    skipTo [.semicolon, .closeParen]
    let span := (← get).spanFrom cursor.here
    discard <| accept .semicolon
    return some span
  discard <| accept .closeParen
  return spans.filter (!·.isEmpty)

/-- Reads the types of a `catch` clause. -/
def caughtTypes : Parser (List TypeRef) := do
  let first ← typeRef?
  let more ← many do
    if ← accept .pipe then return some (← typeRef?) else return none
  return (first :: more).filterMap id

/-- Reads a `catch` clause. -/
def handlerWith (stmt : Parser Stmt) : Parser (Option Handler) := do
  let start := (← get).here
  unless ← acceptWord "catch" do return none
  discard <| accept .openParen
  skipVariableModifiers
  let types ← caughtTypes
  let name ← if (← get).isAt .word then next? else pure none
  discard <| accept .closeParen
  let body ← blockWith stmt
  return some (.mk (← spanFrom start) types ((name.map (·.text)).getD "") body)

/-- Reads a `try` statement. -/
def tryWith (stmt : Parser Stmt) (start : Nat) : Parser Stmt := do
  advance 1
  let spans ← resources
  let body ← blockWith stmt
  let handlers ← many (handlerWith stmt)
  let cleanup ← if ← acceptWord "finally" then some <$> blockWith stmt else pure none
  return .tries (← spanFrom start) spans body handlers cleanup

/-- Reads a statement that begins with the token `token`. -/
def stmtAtWith (rules : Rules) (stmt : Parser Stmt) (token : Token) : Parser Stmt := do
  let start := token.span.start
  let cursor ← get
  match token.kind with
  | .semicolon =>
    advance 1
    return .empty (← spanFrom start)
  | .openBrace => return .block (← blockWith stmt)
  | .atSign => declarationWith rules start
  | .word =>
    match token.text with
    | "if" =>
      advance 1
      let condition ← conditionWith rules
      let whenTrue ← stmt
      let whenFalse ← if ← acceptWord "else" then some <$> stmt else pure none
      return .conditional (← spanFrom start) condition whenTrue whenFalse
    | "while" =>
      advance 1
      let condition ← conditionWith rules
      let body ← stmt
      return .whileLoop (← spanFrom start) condition body
    | "do" =>
      advance 1
      let body ← stmt
      discard <| acceptWord "while"
      let condition ← conditionWith rules
      discard <| accept .semicolon
      return .doLoop (← spanFrom start) body condition
    | "for" => forWith rules stmt start
    | "try" => tryWith stmt start
    | "return" =>
      advance 1
      let value ← if (← get).isAt .semicolon then pure none else some <$> orMissing rules.expr
      discard <| accept .semicolon
      return .returns (← spanFrom start) value
    | "throw" =>
      advance 1
      let value ← orMissing rules.expr
      discard <| accept .semicolon
      return .throws (← spanFrom start) value
    | "assert" =>
      advance 1
      let condition ← orMissing rules.expr
      let message ← if ← accept .colon then some <$> orMissing rules.expr else pure none
      discard <| accept .semicolon
      return .assertion (← spanFrom start) condition message
    | word =>
      if word = "break" || word = "continue" then
        advance 1
        let label ← if (← get).isAtIdentifier then next? else pure none
        discard <| accept .semicolon
        return .jump (← spanFrom start) (if word = "break" then .break else .continue)
          (label.map fun token => ⟨token.text, token.span⟩)
      else if word = "switch" && cursor.isAhead 1 [.openParen] then
        switchWith rules stmt start
      else if word = "synchronized" && cursor.isAhead 1 [.openParen] then
        advance 1
        let lock ← conditionWith rules
        let body ← blockWith stmt
        return .synchronized (← spanFrom start) lock body
      else if cursor.isAtIdentifier && cursor.isAhead 1 [.colon] then
        advance 2
        let body ← stmt
        return .labeled (← spanFrom start) ⟨token.text, token.span⟩ body
      else declarationWith rules start
  | _ => exprStmtWith rules start

/-- Reads a statement; at the end of the tokens there is an empty unparsed one. -/
def stmtWith (rules : Rules) (stmt : Parser Stmt) : Parser Stmt := do
  match (← get).rest with
  | [] => return .unparsed (.point (← get).behind)
  | token :: _ => stmtAtWith rules stmt token

/-- Reads a statement with at most `n` statements nested in each other. -/
def stmtUpTo : Nat → Parser Stmt
  | 0 => fun cursor => (.unparsed (.point cursor.behind), cursor)
  | n + 1 => fun cursor => stmtWith (rules (n + 1)) (stmtUpTo n) cursor

/-- Reads a statement. -/
def stmt : Parser Stmt := fun cursor =>
  stmtUpTo (cursor.rest.length + 1) cursor

/-- Reads a block. -/
def block : Parser Block := fun cursor =>
  blockWith (stmtUpTo (cursor.rest.length + 1)) cursor

end Parser

end JavaOutline
