import JavaOutline.Java.Declaration
import JavaOutline.Reading.Stmt
import JavaOutline.Token.Scan

/-!
# Reading declarations and files

The grammar of types and their members. Tokens that begin no declaration are passed over one at a
time, so every text can be read. `CompilationUnit.read` reads a file, and `Block.read` a block that
stands at some offset of its file.
-/

namespace JavaOutline

namespace Parser

/-- Skips the `throws` clause of a method. -/
def skipThrows : Parser Unit := do
  if ← acceptWord "throws" then
    skipToAny [.openBrace, .semicolon]

/-- Reads the parameters of a method. Tokens that begin no parameter are passed over. -/
def parameters : Parser (List Parameter) := do
  discard <| accept .openParen
  let parameters ← many do
    let cursor ← get
    if cursor.atEnd || cursor.isAt .closeParen then return none
    skipVariableModifiers
    match ← parameter? with
    | some parameter =>
      discard <| accept .comma
      return some (some parameter)
    | none =>
      advance 1
      return some none
  discard <| accept .closeParen
  return parameters.filterMap id

/-- Skips the constants of an enumeration, through the semicolon after them. -/
def skipConstants : Parser Unit :=
  repeatWhile do
    if ← accept .semicolon then return false
    let cursor ← get
    if cursor.atEnd || cursor.isAt .closeBrace then return false
    skipModifiers
    unless (← get).isAt .word do return false
    advance 1
    skipParens
    skipBraces
    discard <| accept .comma
    return true

/-- Reads a constructor that begins at `start`, from its name on. -/
def constructorFrom (start : Nat) (name : Token) : Parser Method := do
  advance 1
  let parameters ← if (← get).isAt .openParen then parameters else pure []
  skipThrows
  let body ← if (← get).isAt .openBrace then some <$> block else pure none
  return ⟨← spanFrom start, none, ⟨name.text, name.span⟩, parameters, body⟩

/-- Reads a method that begins at `start`, from its parameters on. -/
def methodFrom (start : Nat) (result : TypeRef) (name : Token) : Parser Method := do
  let parameters ← parameters
  repeatWhile do
    let bracket := (← get).isAt .openBracket
    skipBrackets
    return bracket
  skipThrows
  if ← acceptWord "default" then
    skipTo [.semicolon]
  let body ← if (← get).isAt .openBrace then some <$> block else do
    discard <| accept .semicolon
    pure none
  return ⟨← spanFrom start, some result, ⟨name.text, name.span⟩, parameters, body⟩

/-- Reads a field or a method that begins at `start`, from its type on; `none` if it has no type
or no name. -/
def typedMember? (start : Nat) : Parser (Option Member) := do
  let some type ← typeRef? | return none
  match (← get).rest with
  | [] => return none
  | name :: _ =>
    unless name.kind = .word do return none
    advance 1
    if (← get).isAt .openParen then
      return some (.method (← methodFrom start type name))
    skipTo [.semicolon]
    discard <| accept .semicolon
    return some (.field ⟨← spanFrom start, type, name.text⟩)

/-- Reads a member of the type `enclosing`. Tokens that were read stay read if it is none. -/
def memberWith (type? : Parser (Option TypeDecl)) (enclosing : String) :
    Parser (Option Member) := do
  let start := (← get).here
  skipModifiers
  skipBalanced .less .greater
  let cursor ← get
  if cursor.isAtWord "static" && cursor.isAhead 1 [.openBrace] then
    advance 1
    let body ← block
    return some (.initializer (← spanFrom start) true body)
  if cursor.isAt .openBrace then
    let body ← block
    return some (.initializer (← spanFrom start) false body)
  if cursor.typeKind?.isSome then
    return (← type?).map fun type => .type type.header type.members
  match cursor.rest with
  | [] => return none
  | name :: _ =>
    if name.isWord enclosing && cursor.isAhead 1 [.openParen, .openBrace] then
      return some (.method (← constructorFrom start name))
    typedMember? start

/-- Reads the members of a type up to the brace that closes it. Tokens that begin no member are
passed over. -/
def membersWith (type? : Parser (Option TypeDecl)) (enclosing : String) :
    Parser (List Member) := do
  let members ← many do
    let cursor ← get
    if cursor.atEnd || cursor.isAt .closeBrace then return none
    match ← memberWith type? enclosing with
    | some member => return some (some member)
    | none =>
      advance 1
      return some none
  return members.filterMap id

/-- Reads the declaration of a type. Where there is none, nothing is read. -/
def typeDeclWith (type? : Parser (Option TypeDecl)) : Parser (Option TypeDecl) := do
  let before ← get
  skipModifiers
  let some (kind, width) := (← get).typeKind? | set before; return none
  advance width
  let cursor ← get
  let name ← if cursor.isAt .word then next? else pure none
  let name : Name := match name with
    | some token => ⟨token.text, token.span⟩
    | none => ⟨"", .point cursor.here⟩
  skipHeader
  let members ← if ← accept .openBrace then do
      if kind = .enumType then skipConstants
      let members ← membersWith type? name.text
      discard <| accept .closeBrace
      pure members
    else pure []
  return some ⟨⟨← spanFrom before.here, kind, name⟩, members⟩

/-- Reads the declaration of a type with at most `n` types nested in each other. -/
def typeDeclUpTo : Nat → Parser (Option TypeDecl)
  | 0 => pure none
  | n + 1 => fun cursor => typeDeclWith (typeDeclUpTo n) cursor

/-- Reads the types of a file. Tokens that begin no type are passed over. -/
def typeDecls : Parser (List TypeDecl) := do
  let depth := (← get).rest.length
  let types ← many do
    if (← get).atEnd then return none
    match ← typeDeclUpTo (depth + 1) with
    | some type => return some (some type)
    | none =>
      advance 1
      return some none
  return types.filterMap id

/-- Reads a file: its package, its imports, which are passed over, and its types. -/
def compilationUnit (size : Nat) : Parser CompilationUnit := do
  let package ← if ← acceptWord "package" then do
      let name ← qualifiedName
      discard <| accept .semicolon
      pure (some name)
    else pure none
  repeatWhile do
    let isImport := (← get).isAtWord "import"
    if isImport then
      skipToAny [.semicolon]
      discard <| accept .semicolon
    return isImport
  return ⟨⟨0, size⟩, package, ← typeDecls⟩

end Parser

/-- Reads a file. -/
def CompilationUnit.read (source : Source) : CompilationUnit :=
  (Parser.compilationUnit source.size (.start (Token.scan 0 source.chars))).1

/-- Reads a block that begins at byte `offset` of its file. -/
def Block.read (text : Source) (offset : Nat) : Except Fault Block := do
  let tokens ← Token.scan? offset text.chars
  return (Parser.block (.start tokens)).1

end JavaOutline
