import JavaOutline.Java.Word
import JavaOutline.Token.Basic

/-!
# Reading tokens

A cursor is the list of tokens still to be read with the offset where the last token read ended.
A parser is a computation on the cursor. Parsers do not fail: one that finds nothing to read says
so in its result, and going back is restoring an earlier cursor.
-/

namespace JavaOutline

/-- A place in a list of tokens. -/
structure Cursor where
  /-- The tokens still to be read. -/
  rest : List Token
  /-- Where the last token read ended; before any token is read, where the first begins. -/
  behind : Nat
  deriving Repr

namespace Cursor

/-- The place before the first of some tokens. -/
def start (tokens : List Token) : Cursor :=
  ⟨tokens, (tokens.head?.map (·.span.start)).getD 0⟩

/-- Whether all tokens are read. -/
def atEnd (cursor : Cursor) : Bool :=
  cursor.rest.isEmpty

/-- The token `n` places ahead. -/
def ahead? (cursor : Cursor) (n : Nat) : Option Token :=
  cursor.rest[n]?

/-- The kind of the token `n` places ahead. -/
def kindAhead? (cursor : Cursor) (n : Nat) : Option TokenKind :=
  (cursor.ahead? n).map (·.kind)

/-- Whether the next token is of a kind. -/
def isAt (cursor : Cursor) (kind : TokenKind) : Bool :=
  cursor.rest.head?.any (·.kind = kind)

/-- Whether the token `n` places ahead is of one of some kinds. -/
def isAhead (cursor : Cursor) (n : Nat) (kinds : List TokenKind) : Bool :=
  (cursor.kindAhead? n).any kinds.contains

/-- Whether the token `n` places ahead is a word. -/
def isWordAhead (cursor : Cursor) (n : Nat) (word : String) : Bool :=
  (cursor.ahead? n).any (·.isWord word)

/-- Whether the next token is a word. -/
def isAtWord (cursor : Cursor) (word : String) : Bool :=
  cursor.rest.head?.any (·.isWord word)

/-- Whether the next token is a word that is not reserved. -/
def isAtIdentifier (cursor : Cursor) : Bool :=
  cursor.rest.head?.any fun token => token.kind = .word && !isReserved token.text

/-- Whether the next two tokens are an opening and a closing bracket. -/
def isAtBrackets (cursor : Cursor) : Bool :=
  cursor.isAt .openBracket && cursor.isAhead 1 [.closeBracket]

/-- Whether the tokens `n` and `n + 1` places ahead touch. -/
def touches (cursor : Cursor) (n : Nat) : Bool :=
  match cursor.ahead? n, cursor.ahead? (n + 1) with
  | some token, some following => token.span.stop = following.span.start
  | _, _ => false

/-- Where the next token begins; after the last one, where that ended. -/
def here (cursor : Cursor) : Nat :=
  match cursor.rest with
  | [] => cursor.behind
  | token :: _ => token.span.start

/-- The span from `start` to the end of the last token read. -/
def spanFrom (cursor : Cursor) (start : Nat) : Span :=
  ⟨start, max cursor.behind start⟩

/-- The place after the next token. -/
def tail (cursor : Cursor) : Cursor :=
  match cursor.rest with
  | [] => cursor
  | token :: rest => ⟨rest, token.span.stop⟩

end Cursor

/-- A computation that reads tokens. -/
abbrev Parser (α : Type) : Type := StateM Cursor α

namespace Parser

/-- Reads the next token. -/
def next? : Parser (Option Token) := fun cursor =>
  (cursor.rest.head?, cursor.tail)

/-- Reads `n` tokens, or those that are left. -/
def advance : Nat → Parser Unit
  | 0 => pure ()
  | n + 1 => fun cursor => advance n cursor.tail

/-- Reads the next token if it is of a kind, and says whether it did. -/
def accept (kind : TokenKind) : Parser Bool := fun cursor =>
  if cursor.isAt kind then (true, cursor.tail) else (false, cursor)

/-- Reads the next token if it is a word, and says whether it did. -/
def acceptWord (word : String) : Parser Bool := fun cursor =>
  if cursor.isAtWord word then (true, cursor.tail) else (false, cursor)

/-- The span from `start` to the end of the last token read. -/
def spanFrom (start : Nat) : Parser Span := fun cursor =>
  (cursor.spanFrom start, cursor)

/-- Repeats `step` on its own result until it gives none, at most `n` times. -/
def iterateUpTo {α : Type} (step : α → Parser (Option α)) : Nat → α → Parser α
  | 0, value => pure value
  | n + 1, value => do
    match ← step value with
    | none => return value
    | some value => iterateUpTo step n value

/-- Repeats `step` on its own result until it gives none. Each repetition is to read a token, so
the tokens left bound their number. -/
def iterate {α : Type} (step : α → Parser (Option α)) (value : α) : Parser α := fun cursor =>
  iterateUpTo step (cursor.rest.length + 1) value cursor

/-- The results of `step` until it gives none, at most `n` of them. -/
def manyUpTo {α : Type} (step : Parser (Option α)) : Nat → Parser (List α)
  | 0 => pure []
  | n + 1 => do
    match ← step with
    | none => return []
    | some value => return value :: (← manyUpTo step n)

/-- The results of `step` until it gives none. Each is to read a token, so the tokens left bound
their number. -/
def many {α : Type} (step : Parser (Option α)) : Parser (List α) := fun cursor =>
  manyUpTo step (cursor.rest.length + 1) cursor

/-- Repeats `step` as long as it says that it read something. -/
def repeatWhile (step : Parser Bool) : Parser Unit := do
  discard <| many do
    return if ← step then some () else none

end Parser

end JavaOutline
