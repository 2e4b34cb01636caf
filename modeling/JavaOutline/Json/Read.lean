import JavaOutline.Json.Basic
import JavaOutline.Text.Digits

/-!
# Reading JSON

Reads the grammar of JSON exactly: no comments, no trailing commas, no control characters in
strings, no leading zeros, and nothing but white space around the value. A value read consumes a
character at least, so the length of the text bounds the nesting.
-/

namespace JavaOutline.Json

/-- Whether JSON allows a character between its tokens. -/
def isBlank (c : Char) : Bool :=
  c = ' ' || c = '\n' || c = '\t' || c = '\r'

/-- The character that a letter after a backslash stands for. -/
def escaped? (c : Char) : Option Nat :=
  if c = '"' || c = '\\' || c = '/' then some c.toNat
  else if c = 'b' then some 0x08
  else if c = 'f' then some 0x0c
  else if c = 'n' then some 0x0a
  else if c = 'r' then some 0x0d
  else if c = 't' then some 0x09
  else none

/-- Joins each high surrogate with a low one after it to the code point they stand for. -/
def joinSurrogates : List Nat → List Nat
  | high :: low :: units =>
    if 0xd800 ≤ high ∧ high < 0xdc00 ∧ 0xdc00 ≤ low ∧ low < 0xe000 then
      (0x10000 + (high - 0xd800) * 0x400 + (low - 0xdc00)) :: joinSurrogates units
    else high :: joinSurrogates (low :: units)
  | units => units

/-- Reads a string after its opening quote: its units, and what follows the closing quote. -/
def readUnits? : List Char → Option (List Nat × List Char)
  | [] => none
  | '"' :: cs => some ([], cs)
  | '\\' :: 'u' :: a :: b :: c :: d :: cs => do
    let unit ← hexNumber? [a, b, c, d]
    let (units, rest) ← readUnits? cs
    return (unit :: units, rest)
  | '\\' :: c :: cs => do
    let unit ← escaped? c
    let (units, rest) ← readUnits? cs
    return (unit :: units, rest)
  | c :: cs => do
    if c = '\\' || c.toNat < 0x20 then none
    let (units, rest) ← readUnits? cs
    return (c.toNat :: units, rest)

/-- Reads a string after its opening quote. -/
def readString? (cs : List Char) : Option (List Nat × List Char) :=
  (readUnits? cs).map fun (units, rest) => (joinSurrogates units, rest)

/-- Reads a run of digits, which must not be empty. -/
def readDigits? (cs : List Char) : Option (List Char × List Char) :=
  let digits := cs.takeWhile Char.isDigit
  if digits.isEmpty then none else some (digits, cs.dropWhile Char.isDigit)

/-- Reads a fraction, which may be absent. -/
def readFraction? : List Char → Option (List Char × List Char)
  | '.' :: cs => (readDigits? cs).map fun (digits, rest) => ('.' :: digits, rest)
  | cs => some ([], cs)

/-- Reads the sign of an exponent, which may be absent. -/
def readSign : List Char → List Char × List Char
  | '+' :: cs => (['+'], cs)
  | '-' :: cs => (['-'], cs)
  | cs => ([], cs)

/-- Reads an exponent, which may be absent. -/
def readExponent? (cs : List Char) : Option (List Char × List Char) :=
  match cs with
  | [] => some ([], [])
  | mark :: rest =>
    if mark = 'e' || mark = 'E' then
      let (sign, rest) := readSign rest
      (readDigits? rest).map fun (digits, rest) => (mark :: sign ++ digits, rest)
    else some ([], cs)

/-- Reads a number. -/
def readNumber? (cs : List Char) : Option (Json × List Char) := do
  let (sign, rest) := if cs.head? = some '-' then (['-'], cs.drop 1) else ([], cs)
  let (whole, rest) ← readDigits? rest
  if whole.head? = some '0' && 1 < whole.length then none
  let (fraction, rest) ← readFraction? rest
  let (exponent, rest) ← readExponent? rest
  if sign.isEmpty && fraction.isEmpty && exponent.isEmpty then
    return (.natural (decimalNumber whole), rest)
  else return (.numeral (sign ++ whole ++ fraction ++ exponent), rest)

/-- The text after a word it begins with. -/
def after? (word : List Char) (cs : List Char) : Option (List Char) :=
  if word.isPrefixOf cs then some (cs.drop word.length) else none

mutual

/-- Reads a value, with at most `n` values nested in each other. -/
def readValue? : Nat → List Char → Option (Json × List Char)
  | 0, _ => none
  | n + 1, cs =>
    match cs.dropWhile isBlank with
    | [] => none
    | '"' :: rest => (readString? rest).map fun (codePoints, rest) => (.string codePoints, rest)
    | '[' :: rest =>
      match rest.dropWhile isBlank with
      | ']' :: rest => some (.array [], rest)
      | rest => (readItems? n rest).map fun (items, rest) => (.array items, rest)
    | '\x7b' :: rest =>
      match rest.dropWhile isBlank with
      | '\x7d' :: rest => some (.object [], rest)
      | rest => (readMembers? n rest).map fun (members, rest) => (.object members, rest)
    | c :: rest =>
      if c = 'n' then (after? ['u', 'l', 'l'] rest).map (.null, ·)
      else if c = 't' then (after? ['r', 'u', 'e'] rest).map (.bool true, ·)
      else if c = 'f' then (after? ['a', 'l', 's', 'e'] rest).map (.bool false, ·)
      else readNumber? (c :: rest)

/-- Reads the items of an array, one at least, through the closing bracket. -/
def readItems? : Nat → List Char → Option (List Json × List Char)
  | 0, _ => none
  | n + 1, cs => do
    let (item, rest) ← readValue? n cs
    match rest.dropWhile isBlank with
    | ']' :: rest => return ([item], rest)
    | ',' :: rest =>
      let (items, rest) ← readItems? n rest
      return (item :: items, rest)
    | _ => none

/-- Reads the members of an object, one at least, through the closing brace. -/
def readMembers? : Nat → List Char → Option (List (List Nat × Json) × List Char)
  | 0, _ => none
  | n + 1, cs => do
    let '"' :: rest := cs.dropWhile isBlank | none
    let (key, rest) ← readString? rest
    let ':' :: rest := rest.dropWhile isBlank | none
    let (value, rest) ← readValue? n rest
    match rest.dropWhile isBlank with
    | '\x7d' :: rest => return ([(key, value)], rest)
    | ',' :: rest =>
      let (members, rest) ← readMembers? n rest
      return ((key, value) :: members, rest)
    | _ => none

end

/-- Reads a text that consists of one value. -/
def read? (text : List Char) : Option Json := do
  let (value, rest) ← readValue? (2 * text.length + 2) text
  if rest.all isBlank then some value else none

end JavaOutline.Json
