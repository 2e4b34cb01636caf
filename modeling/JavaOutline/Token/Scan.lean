import JavaOutline.Text.Identifier
import JavaOutline.Text.WhiteSpace
import JavaOutline.Token.Basic

/-!
# Scanning tokens

A text is cut into pieces from left to right. A piece is blank, that is a white space character or
a comment, or it is a token. `pieceAt` names the piece at the head of a non-empty text and says how
many more characters belong to it, so every piece is non-empty and the pieces joined are the text.
An unclosed comment, string or text block is a piece that runs to the end of its line or of the
text.
-/

namespace JavaOutline.Token

/-- The punctuation, longer marks before the marks they begin with. -/
def punctuation : List (List Char × TokenKind) :=
  [(['<', '<', '='], .shiftLeftAssign),
   (['.', '.', '.'], .ellipsis),
   ([':', ':'], .doubleColon),
   (['-', '>'], .arrow),
   (['=', '='], .equal),
   (['!', '='], .notEqual),
   (['<', '='], .lessEqual),
   (['<', '<'], .shiftLeft),
   (['>', '='], .greaterEqual),
   (['+', '+'], .increment),
   (['+', '='], .plusAssign),
   (['-', '-'], .decrement),
   (['-', '='], .minusAssign),
   (['*', '='], .starAssign),
   (['/', '='], .slashAssign),
   (['%', '='], .percentAssign),
   (['&', '&'], .ampAmp),
   (['&', '='], .ampAssign),
   (['|', '|'], .pipePipe),
   (['|', '='], .pipeAssign),
   (['^', '='], .caretAssign),
   (['\x7b'], .openBrace),
   (['\x7d'], .closeBrace),
   (['('], .openParen),
   ([')'], .closeParen),
   (['['], .openBracket),
   ([']'], .closeBracket),
   ([';'], .semicolon),
   ([','], .comma),
   (['.'], .dot),
   ([':'], .colon),
   (['?'], .question),
   (['@'], .atSign),
   (['='], .assign),
   (['!'], .bang),
   (['~'], .tilde),
   (['<'], .less),
   (['>'], .greater),
   (['+'], .plus),
   (['-'], .minus),
   (['*'], .star),
   (['/'], .slash),
   (['%'], .percent),
   (['&'], .amp),
   (['|'], .pipe),
   (['^'], .caret)]

/-- The punctuation mark at the head of a text. A dot before a digit begins a number instead. -/
def punctuationAt? (cs : List Char) : Option (List Char × TokenKind) :=
  (punctuation.find? fun mark => mark.1.isPrefixOf cs).filter fun mark =>
    !(mark.2 = .dot && (cs.drop 1).head?.any Char.isDigit)

/-- The number of characters up to the end of the line, the line feed included. -/
def lineCommentLength : List Char → Nat
  | [] => 0
  | c :: cs => if c = '\n' then 1 else lineCommentLength cs + 1

/-- The number of characters up to the end of a block comment, the end mark included. -/
def blockCommentLength : List Char → Nat
  | [] => 0
  | '*' :: '/' :: _ => 2
  | _ :: cs => blockCommentLength cs + 1

/-- The number of characters up to the end of a character or string literal that was opened by
`quote`. A backslash takes the next character along, and a line feed closes the literal too. -/
def quotedLength (quote : Char) : List Char → Nat
  | [] => 0
  | ['\\'] => 1
  | '\\' :: _ :: cs => quotedLength quote cs + 2
  | c :: cs => if c = '\n' ∨ c = quote then 1 else quotedLength quote cs + 1

/-- The number of characters up to the end of a text block, its closing quotes included. -/
def textBlockLength : List Char → Nat
  | [] => 0
  | ['\\'] => 1
  | '\\' :: _ :: cs => textBlockLength cs + 2
  | '"' :: '"' :: '"' :: _ => 3
  | _ :: cs => textBlockLength cs + 1

/-- Whether a dot is followed by something that makes it end the number before it: another dot, or
an identifier that is no exponent or suffix. -/
def dotEndsNumber : List Char → Bool
  | [] => false
  | c :: _ =>
    if c.isDigit then false
    else if ['e', 'E', 'f', 'F', 'd', 'D'].contains c then false
    else if isIdentifierStart c then true
    else c = '.'

/-- The number of further characters of a number, and whether it is a floating-point number.
`radix` says that the number began with a radix mark such as `0x`, `dotted` that it has had its
dot, and `floating` that it is known to be a floating-point number. -/
def numberLength (radix : Bool) (dotted floating : Bool) : List Char → Nat × Bool
  | [] => (0, floating)
  | c :: cs =>
    if c.isAlphanum || c = '_' then
      if (if radix then c = 'p' || c = 'P' else c = 'e' || c = 'E') then
        match cs with
        | [] => (1, true)
        | sign :: more =>
          if sign = '+' || sign = '-' then
            let (length, kind) := numberLength radix dotted true more
            (length + 2, kind)
          else
            let (length, kind) := numberLength radix dotted true (sign :: more)
            (length + 1, kind)
      else
        let suffix := !radix && ['f', 'F', 'd', 'D'].contains c
        let (length, kind) := numberLength radix dotted (floating || suffix) cs
        (length + 1, kind)
    else if c = '.' && !dotted && !radix && !dotEndsNumber cs then
      let (length, kind) := numberLength radix true true cs
      (length + 1, kind)
    else (0, floating)

/-- The rest of a number that began with `first`: its length and kind. -/
def numberRest (first : Char) (cs : List Char) : Nat × TokenKind :=
  let radix := first = '0' && cs.head?.any (['x', 'X', 'b', 'B'].contains ·)
  let (length, floating) := numberLength radix (first = '.') (first = '.') cs
  (length, if floating then .floating else .integer)

/-- The token at the head of the text `c :: cs`: the number of its characters after `c`, and its
kind. -/
def tokenAt (c : Char) (cs : List Char) : Nat × TokenKind :=
  if ['"', '"', '"'].isPrefixOf (c :: cs) then (textBlockLength (cs.drop 2) + 2, .textBlock)
  else
    match punctuationAt? (c :: cs) with
    | some (mark, kind) => (mark.length - 1, kind)
    | none =>
      if c = '"' then (quotedLength '"' cs, .string)
      else if c = '\'' then (quotedLength '\'' cs, .character)
      else if c.isDigit || c = '.' then numberRest c cs
      else if isIdentifierStart c then ((cs.takeWhile isIdentifierPart).length, .word)
      else (0, .unknown)

/-- The piece at the head of the text `c :: cs`: the number of its characters after `c`, and the
kind of token it is, or `none` for a blank. -/
def pieceAt (c : Char) (cs : List Char) : Nat × Option TokenKind :=
  if isWhiteSpace c then (0, none)
  else if c = '/' && cs.head? = some '/' then (lineCommentLength (cs.drop 1) + 1, none)
  else if c = '/' && cs.head? = some '*' then (blockCommentLength (cs.drop 1) + 1, none)
  else
    let (more, kind) := tokenAt c cs
    (more, some kind)

/-- The tokens of a text that begins at byte `offset`, after its first `skip` characters. -/
def scanFrom : (skip offset : Nat) → List Char → List Token
  | _, _, [] => []
  | skip + 1, offset, c :: cs => scanFrom skip (offset + c.utf8Size) cs
  | 0, offset, c :: cs =>
    let (more, kind?) := pieceAt c cs
    let rest := scanFrom more (offset + c.utf8Size) cs
    match kind? with
    | none => rest
    | some kind =>
      let chars := c :: cs.take more
      ⟨kind, String.ofList chars, ⟨offset, offset + byteLength chars⟩⟩ :: rest

/-- The tokens of a text that begins at byte `offset` of its file. -/
def scan (offset : Nat) (text : List Char) : List Token :=
  scanFrom 0 offset text

/-- The tokens of a text that begins at byte `offset` of its file, if all of them end at a 64-bit
offset. -/
def scan? (offset : Nat) (text : List Char) : Except Fault (List Token) :=
  let tokens := scan offset text
  if tokens.all (·.span.stop < offsetBound) then .ok tokens else .error .sumOverflow

/-- Scanning after `skip` characters is scanning what is left of the text. -/
theorem scanFrom_skip (skip offset : Nat) (cs : List Char) :
    scanFrom skip offset cs = scanFrom 0 (offset + byteLength (cs.take skip)) (cs.drop skip) := by
  induction cs generalizing skip offset with
  | nil => simp [scanFrom]
  | cons c cs induction =>
    cases skip with
    | zero => simp [byteLength]
    | succ skip =>
      rw [scanFrom, induction]
      simp [byteLength, Nat.add_assoc]

end JavaOutline.Token
