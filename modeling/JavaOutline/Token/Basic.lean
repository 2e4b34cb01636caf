import JavaOutline.Source.Span

/-!
# Tokens

The words, literals and punctuation of Java source. Reserved words are ordinary words here; the
grammar tells them apart by their text. A `>` never joins with a `>` after it, so that nested type
argument lists close one at a time; shift operators are put together from adjacent tokens.
-/

namespace JavaOutline

/-- What a token is. -/
inductive TokenKind where
  /-- An identifier or a reserved word. -/
  | word
  | integer
  | floating
  | character
  | string
  | textBlock
  | atSign
  | openBrace
  | closeBrace
  | openParen
  | closeParen
  | openBracket
  | closeBracket
  | semicolon
  | comma
  | dot
  | ellipsis
  | colon
  | doubleColon
  | question
  | arrow
  | assign
  | equal
  | bang
  | notEqual
  | tilde
  | less
  | lessEqual
  | shiftLeft
  | shiftLeftAssign
  | greater
  | greaterEqual
  | plus
  | increment
  | plusAssign
  | minus
  | decrement
  | minusAssign
  | star
  | starAssign
  | slash
  | slashAssign
  | percent
  | percentAssign
  | amp
  | ampAmp
  | ampAssign
  | pipe
  | pipePipe
  | pipeAssign
  | caret
  | caretAssign
  /-- A character that begins no token. -/
  | unknown
  deriving DecidableEq, Repr

/-- Whether a token of this kind is a number, a character, a string or a text block. -/
def TokenKind.isLiteral : TokenKind → Bool
  | .integer | .floating | .character | .string | .textBlock => true
  | _ => false

/-- A token: what it is, its characters, and where they stand. -/
structure Token where
  /-- What the token is. -/
  kind : TokenKind
  /-- The characters of the token. -/
  text : String
  /-- Where the token stands. -/
  span : Span
  deriving DecidableEq, Repr

/-- Whether a token is the given word. -/
def Token.isWord (token : Token) (word : String) : Bool :=
  token.kind = .word && token.text = word

end JavaOutline
