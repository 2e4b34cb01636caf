import JavaOutline.Reading.Cursor

/-!
# Skipping tokens

Parts of the source whose inside leaves no trace in the result: bracketed text, headers of types,
annotations and modifiers.
-/

namespace JavaOutline

namespace Cursor

/-- The place where `depth` open brackets of one kind are closed. -/
def afterBalanced (opening closing : TokenKind) : (depth behind : Nat) → List Token → Cursor
  | 0, behind, rest => ⟨rest, behind⟩
  | _ + 1, behind, [] => ⟨[], behind⟩
  | depth + 1, _, token :: rest =>
    let depth :=
      if token.kind = opening then depth + 2
      else if token.kind = closing then depth
      else depth + 1
    afterBalanced opening closing depth token.span.stop rest

/-- The first place, `depth` brackets deep, where one of `stops` stands outside all brackets or a
closing bracket has no partner. -/
def beforeStop (stops : List TokenKind) : (depth behind : Nat) → List Token → Cursor
  | _, behind, [] => ⟨[], behind⟩
  | depth, behind, token :: rest =>
    if depth = 0 && stops.contains token.kind then ⟨token :: rest, behind⟩
    else
      match token.kind with
      | .openParen | .openBrace | .openBracket =>
        beforeStop stops (depth + 1) token.span.stop rest
      | .closeParen | .closeBrace | .closeBracket =>
        if depth = 0 then ⟨token :: rest, behind⟩
        else beforeStop stops (depth - 1) token.span.stop rest
      | _ => beforeStop stops depth token.span.stop rest

/-- The first place where one of `stops` stands, whatever brackets are open. -/
def beforeAny (stops : List TokenKind) : (behind : Nat) → List Token → Cursor
  | behind, [] => ⟨[], behind⟩
  | behind, token :: rest =>
    if stops.contains token.kind then ⟨token :: rest, behind⟩
    else beforeAny stops token.span.stop rest

/-- The first place where an opening brace stands outside parentheses, `depth` of which are
open. -/
def beforeBody : (depth behind : Nat) → List Token → Cursor
  | _, behind, [] => ⟨[], behind⟩
  | 0, behind, token :: rest =>
    if token.kind = .openBrace then ⟨token :: rest, behind⟩
    else beforeBody (if token.kind = .openParen then 1 else 0) token.span.stop rest
  | depth + 1, _, token :: rest =>
    let depth :=
      if token.kind = .openParen then depth + 2
      else if token.kind = .closeParen then depth
      else depth + 1
    beforeBody depth token.span.stop rest

/-- The place after any number of bracket pairs `[]`, and that number. -/
def afterBrackets : (behind : Nat) → List Token → Nat × Cursor
  | behind, token :: closing :: rest =>
    if token.kind = .openBracket && closing.kind = .closeBracket then
      let (pairs, cursor) := afterBrackets closing.span.stop rest
      (pairs + 1, cursor)
    else (0, ⟨token :: closing :: rest, behind⟩)
  | behind, rest => (0, ⟨rest, behind⟩)

/-- The place after any number of words that each follow a dot, and these words. -/
def afterDotted : (behind : Nat) → List Token → List String × Cursor
  | behind, dot :: word :: rest =>
    if dot.kind = .dot && word.kind = .word then
      let (words, cursor) := afterDotted word.span.stop rest
      (word.text :: words, cursor)
    else ([], ⟨dot :: word :: rest, behind⟩)
  | behind, rest => ([], ⟨rest, behind⟩)

end Cursor

namespace Parser

/-- Skips text in brackets of one kind, if the next token opens it; unclosed, it runs to the end. -/
def skipBalanced (opening closing : TokenKind) : Parser Unit := fun cursor =>
  if cursor.isAt opening then
    ((), .afterBalanced opening closing 1 cursor.tail.behind cursor.tail.rest)
  else ((), cursor)

/-- Skips text in parentheses. -/
def skipParens : Parser Unit := skipBalanced .openParen .closeParen

/-- Skips text in braces. -/
def skipBraces : Parser Unit := skipBalanced .openBrace .closeBrace

/-- Skips text in brackets. -/
def skipBrackets : Parser Unit := skipBalanced .openBracket .closeBracket

/-- Skips to the first of `stops` outside brackets, or to a closing bracket without partner. -/
def skipTo (stops : List TokenKind) : Parser Unit := fun cursor =>
  ((), .beforeStop stops 0 cursor.behind cursor.rest)

/-- Skips to the first of `stops`, whatever brackets are open. -/
def skipToAny (stops : List TokenKind) : Parser Unit := fun cursor =>
  ((), .beforeAny stops cursor.behind cursor.rest)

/-- Skips the header of a type, up to the brace that opens its body. -/
def skipHeader : Parser Unit := fun cursor =>
  ((), .beforeBody 0 cursor.behind cursor.rest)

/-- Skips bracket pairs `[]` and counts them. -/
def skipBracketPairs : Parser Nat := fun cursor =>
  Cursor.afterBrackets cursor.behind cursor.rest

/-- Reads the words that each follow a dot. -/
def dottedWords : Parser (List String) := fun cursor =>
  Cursor.afterDotted cursor.behind cursor.rest

/-- Reads a dotted name; it may lack its first word, or be empty. -/
def qualifiedName : Parser String := do
  let first ← if (← get).isAt .word then next? else pure none
  let words ← dottedWords
  return ".".intercalate ((first.map (·.text)).toList ++ words)

/-- Skips an annotation with its arguments. -/
def skipAnnotation : Parser Unit := do
  discard <| accept .atSign
  if (← get).isAt .word then
    discard qualifiedName
  skipParens

/-- Whether an annotation, and not the declaration of one, comes next. -/
def atAnnotation : Parser Bool := fun cursor =>
  (cursor.isAt .atSign && !cursor.isWordAhead 1 "interface", cursor)

/-- Skips annotations. -/
def skipAnnotations : Parser Unit :=
  repeatWhile do
    if ← atAnnotation then
      skipAnnotation
      return true
    return false

/-- Skips the annotations and the word `final` before a variable. -/
def skipVariableModifiers : Parser Unit :=
  repeatWhile do
    if ← atAnnotation then
      skipAnnotation
      return true
    acceptWord "final"

/-- Whether a modifier word comes next. The word `static` before a brace begins an initializer,
and `default` before a colon or an arrow is a label. -/
def atModifier : Parser Bool := fun cursor =>
  let isModifier := cursor.rest.head?.any fun token =>
    token.kind = .word && modifierWords.contains token.text
  let isInitializer := cursor.isAtWord "static" && cursor.isAhead 1 [.openBrace]
  let isLabel := cursor.isAtWord "default" && cursor.isAhead 1 [.colon, .arrow]
  (isModifier && !isInitializer && !isLabel, cursor)

/-- Skips the annotations and modifiers before a declaration. -/
def skipModifiers : Parser Unit :=
  repeatWhile do
    if ← atAnnotation then
      skipAnnotation
      return true
    let cursor ← get
    if cursor.isAtWord "non" && cursor.isAhead 1 [.minus] && cursor.isWordAhead 2 "sealed" then
      advance 3
      return true
    if ← atModifier then
      advance 1
      return true
    return false

end Parser

end JavaOutline
