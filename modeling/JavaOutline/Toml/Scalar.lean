import JavaOutline.Toml.Basic

/-!
# Reading TOML scalars

Strings in their four forms, integers, floating-point numbers, dates and times. A reader takes the
characters it accepts off the front of a text, and gives none if the text does not begin with what
it reads.
-/

namespace JavaOutline.Toml

/-- A reader: what it read, and what is left. -/
abbrev Reader (α : Type) : Type := List Char → Option (α × List Char)

/-- Whether a character separates tokens on a line. -/
def isSpace (c : Char) : Bool := c = ' ' || c = '\t'

/-- Whether a character may stand in a comment or a string: all but control characters, a tab
excepted. -/
def isPlain (c : Char) : Bool := c = '\t' || (0x20 ≤ c.toNat && c.toNat ≠ 0x7f)

/-- What follows a line end. -/
def afterLineEnd? : List Char → Option (List Char)
  | '\n' :: cs => some cs
  | '\r' :: '\n' :: cs => some cs
  | _ => none

/-- The character with the given hexadecimal code. -/
def codedChar? (digits : List Char) : Option Char := do
  let code ← hexNumber? digits
  if code.isValidChar then some (Char.ofNat code) else none

/-- Reads an escape sequence after its backslash. -/
def readEscape? : Reader Char
  | 'u' :: a :: b :: c :: d :: cs => (codedChar? [a, b, c, d]).map (·, cs)
  | 'U' :: a :: b :: c :: d :: e :: f :: g :: h :: cs =>
    (codedChar? [a, b, c, d, e, f, g, h]).map (·, cs)
  | 'b' :: cs => some (Char.ofNat 0x08, cs)
  | 't' :: cs => some ('\t', cs)
  | 'n' :: cs => some ('\n', cs)
  | 'f' :: cs => some (Char.ofNat 0x0c, cs)
  | 'r' :: cs => some ('\r', cs)
  | '"' :: cs => some ('"', cs)
  | '\\' :: cs => some ('\\', cs)
  | _ => none

/-- Reads a string on one line after its quotation mark, at most `n` characters long. -/
def readBasic? : Nat → Reader (List Char)
  | 0, _ => none
  | _ + 1, [] => none
  | _ + 1, '"' :: cs => some ([], cs)
  | n + 1, '\\' :: cs => do
    let (c, cs) ← readEscape? cs
    let (text, cs) ← readBasic? n cs
    return (c :: text, cs)
  | n + 1, c :: cs => do
    if !isPlain c then none
    let (text, cs) ← readBasic? n cs
    return (c :: text, cs)

/-- Reads a string without escapes after its apostrophe. -/
def readLiteral? : Reader (List Char)
  | [] => none
  | c :: cs => do
    if c = '\'' then return ([], cs)
    if !isPlain c then none
    let (text, cs) ← readLiteral? cs
    return (c :: text, cs)

/-- Drops spaces and line ends. A carriage return counts only before a line feed. -/
def dropSpaceLines : List Char → List Char
  | '\r' :: '\n' :: cs => dropSpaceLines cs
  | c :: cs => if isSpace c || c = '\n' then dropSpaceLines cs else c :: cs
  | [] => []

/-- Reads the text of a string over several lines that `quote` encloses three times, at most `n`
characters long. One or two quotes may stand right before the closing ones. With `escapes`, a
backslash escapes a character, or, at the end of a line, the white space up to the next text. -/
def readMultiline? (quote : Char) (escapes : Bool) : Nat → Reader (List Char)
  | 0, _ => none
  | _ + 1, [] => none
  | n + 1, c :: cs =>
    if c = quote then
      match ((c :: cs).takeWhile (· = quote)).length with
      | 1 | 2 => do
        let (text, cs) ← readMultiline? quote escapes n cs
        return (c :: text, cs)
      | 3 => some ([], cs.drop 2)
      | 4 => some ([c], cs.drop 3)
      | _ => some ([c, c], cs.drop 4)
    else if escapes && c = '\\' then
      match afterLineEnd? (cs.dropWhile isSpace) with
      | some cs => readMultiline? quote escapes n (dropSpaceLines cs)
      | none => do
        let (c, cs) ← readEscape? cs
        let (text, cs) ← readMultiline? quote escapes n cs
        return (c :: text, cs)
    else
      match afterLineEnd? (c :: cs) with
      | some cs => do
        let (text, cs) ← readMultiline? quote escapes n cs
        return ('\n' :: text, cs)
      | none => do
        if !isPlain c then none
        let (text, cs) ← readMultiline? quote escapes n cs
        return (c :: text, cs)

/-- Reads a string over several lines after its opening quotes; a line end right after them does
not count. -/
def readMultilineText? (quote : Char) (escapes : Bool) : Reader (List Char) := fun cs =>
  readMultiline? quote escapes (cs.length + 1) ((afterLineEnd? cs).getD cs)

/-- Reads a string on one line, as keys may be written too. -/
def readLineString? : Reader String
  | '"' :: cs => (readBasic? (cs.length + 1) cs).map fun (text, cs) => (String.ofList text, cs)
  | '\'' :: cs => (readLiteral? cs).map fun (text, cs) => (String.ofList text, cs)
  | _ => none

/-- Reads a string in any of its four forms. -/
def readString? : Reader String
  | '"' :: '"' :: '"' :: cs =>
    (readMultilineText? '"' true cs).map fun (text, cs) => (String.ofList text, cs)
  | '\'' :: '\'' :: '\'' :: cs =>
    (readMultilineText? '\'' false cs).map fun (text, cs) => (String.ofList text, cs)
  | cs => readLineString? cs

/-- Reads digits with single underscores between them, and leaves the underscores out. -/
def readDigits (isDigit : Char → Bool) : List Char → List Char × List Char
  | c :: '_' :: d :: cs =>
    if isDigit c && isDigit d then
      let (digits, rest) := readDigits isDigit (d :: cs)
      (c :: digits, rest)
    else if isDigit c then ([c], '_' :: d :: cs)
    else ([], c :: '_' :: d :: cs)
  | c :: cs =>
    if isDigit c then
      let (digits, rest) := readDigits isDigit cs
      (c :: digits, rest)
    else ([], c :: cs)
  | [] => ([], [])

/-- Reads digits, one at least. -/
def readDigits? (isDigit : Char → Bool) : Reader (List Char) := fun cs =>
  let (digits, rest) := readDigits isDigit cs
  if digits.isEmpty then none else some (digits, rest)

/-- Reads a sign, which may be absent, and says whether it is a minus. -/
def readSign : List Char → Bool × List Char
  | '-' :: cs => (true, cs)
  | '+' :: cs => (false, cs)
  | cs => (false, cs)

/-- Reads the digits of a decimal number, which begins with a zero only if that is all of it. -/
def readWhole? : Reader (List Char)
  | '0' :: cs => some (['0'], cs)
  | cs => readDigits? Char.isDigit cs

/-- The magnitude of the least integer, one more than the greatest: 2 to the power of 63. -/
def integerBound : Nat := 0x8000000000000000

/-- Reads an integer in one of the bases that have a mark. -/
def readMarked? (base : Nat) (isDigit : Char → Bool) : Reader Toml := fun cs => do
  let (digits, rest) ← readDigits? isDigit cs
  let value ← digits.foldlM (fun n c => (hexValue? c).map (base * n + ·)) 0
  if value < integerBound then some (.integer value, rest) else none

/-- Reads an integer. -/
def readInteger? : Reader Toml
  | '0' :: 'x' :: cs => readMarked? 16 (fun c => (hexValue? c).isSome) cs
  | '0' :: 'o' :: cs => readMarked? 8 (fun c => '0' ≤ c && c ≤ '7') cs
  | '0' :: 'b' :: cs => readMarked? 2 (fun c => c = '0' || c = '1') cs
  | cs => do
    let (negative, cs) := readSign cs
    let (digits, rest) ← readWhole? cs
    let magnitude := decimalNumber digits
    if negative then
      if magnitude ≤ integerBound then some (.integer (-magnitude), rest) else none
    else if magnitude < integerBound then some (.integer magnitude, rest)
    else none

/-- Reads an exponent. -/
def readExponent? : Reader Int
  | [] => none
  | mark :: cs => do
    if mark ≠ 'e' && mark ≠ 'E' then none
    let (negative, cs) := readSign cs
    let (digits, rest) ← readDigits? Char.isDigit cs
    let magnitude : Int := decimalNumber digits
    return (if negative then -magnitude else magnitude, rest)

/-- The number of a decimal. A positive number beyond the greatest is none; a negative one is
infinite. -/
def floatOf? (negative : Bool) (digits : List Char) (scale : Int) : Option FloatValue :=
  match Binary64.ofDecimal? digits scale with
  | some magnitude => some (.finite negative magnitude)
  | none => if negative then some (.infinite true) else none

/-- Reads a floating-point number in digits: with a fraction, an exponent or both. -/
def readDecimal? : Reader FloatValue := fun cs => do
  let (negative, cs) := readSign cs
  let (whole, cs) ← readWhole? cs
  match cs with
  | '.' :: cs =>
    let (fraction, cs) ← readDigits? Char.isDigit cs
    let (exponent, cs) := (readExponent? cs).getD (0, cs)
    return (← floatOf? negative (whole ++ fraction) (exponent - fraction.length), cs)
  | cs =>
    let (exponent, cs) ← readExponent? cs
    return (← floatOf? negative whole exponent, cs)

/-- Reads an infinity or what is not a number. -/
def readSpecial? : Reader FloatValue := fun cs =>
  match readSign cs with
  | (negative, 'i' :: 'n' :: 'f' :: cs) => some (.infinite negative, cs)
  | (_, 'n' :: 'a' :: 'n' :: cs) => some (.notANumber, cs)
  | _ => none

/-- Reads exactly `n` digits that give a number from `low` to `high`. -/
def readField? (n low high : Nat) : Reader Nat := fun cs =>
  let digits := cs.take n
  let value := decimalNumber digits
  if digits.length = n && digits.all Char.isDigit && low ≤ value && value ≤ high then
    some (value, cs.drop n)
  else none

/-- What follows a character that the text begins with. -/
def afterChar? (c : Char) : List Char → Option (List Char)
  | d :: cs => if c = d then some cs else none
  | [] => none

/-- The number of days of a month. -/
def daysOf (year month : Nat) : Nat :=
  if month = 2 then
    if year % 4 = 0 && (year % 100 ≠ 0 || year % 400 = 0) then 29 else 28
  else if [4, 6, 9, 11].contains month then 30
  else 31

/-- Reads a date. -/
def readDate? (cs : List Char) : Option (List Char) := do
  let (year, cs) ← readField? 4 0 9999 cs
  let cs ← afterChar? '-' cs
  let (month, cs) ← readField? 2 1 12 cs
  let cs ← afterChar? '-' cs
  let (_, cs) ← readField? 2 1 (daysOf year month) cs
  return cs

/-- Reads a fraction of a second, which may be absent. -/
def readSecondFraction? : List Char → Option (List Char)
  | '.' :: cs => if cs.head?.any Char.isDigit then some (cs.dropWhile Char.isDigit) else none
  | cs => some cs

/-- Reads a time of day. -/
def readTime? (cs : List Char) : Option (List Char) := do
  let (_, cs) ← readField? 2 0 23 cs
  let cs ← afterChar? ':' cs
  let (_, cs) ← readField? 2 0 59 cs
  let cs ← afterChar? ':' cs
  let (_, cs) ← readField? 2 0 60 cs
  readSecondFraction? cs

/-- Reads the distance of a time from universal time. -/
def readZone? : List Char → Option (List Char)
  | [] => none
  | c :: cs => do
    if c = 'Z' || c = 'z' then return cs
    if c ≠ '+' && c ≠ '-' then none
    let (_, cs) ← readField? 2 0 23 cs
    let cs ← afterChar? ':' cs
    let (_, cs) ← readField? 2 0 59 cs
    return cs

/-- Reads the time of day after a date, which may be absent. -/
def readDateTime (cs : List Char) : List Char :=
  match cs with
  | [] => []
  | c :: rest =>
    if c = 'T' || c = 't' || c = ' ' then
      match readTime? rest with
      | some rest => (readZone? rest).getD rest
      | none => cs
    else cs

/-- Reads a date, a time, or both. -/
def readWhen? : Reader Toml := fun cs =>
  match readDate? cs with
  | some rest => some (.datetime, readDateTime rest)
  | none => (readTime? cs).map (.datetime, ·)

/-- Reads a number, a date or a time. -/
def readNumber? : Reader Toml := fun cs =>
  (readWhen? cs).or <| ((readDecimal? cs).map fun (value, cs) => (.float value, cs)).or <|
    ((readSpecial? cs).map fun (value, cs) => (.float value, cs)).or (readInteger? cs)

/-- Reads a word that stands for a value. -/
def readWord? : Reader Toml
  | 't' :: 'r' :: 'u' :: 'e' :: cs => some (.boolean true, cs)
  | 'f' :: 'a' :: 'l' :: 's' :: 'e' :: cs => some (.boolean false, cs)
  | 'i' :: 'n' :: 'f' :: cs => some (.float (.infinite false), cs)
  | 'n' :: 'a' :: 'n' :: cs => some (.float .notANumber, cs)
  | _ => none

end JavaOutline.Toml
