import JavaOutline.Json.Basic
import JavaOutline.Text.Digits

/-!
# Writing JSON

Strings escape the quote, the backslash and the control characters, the common ones by a letter and
the others by four hexadecimal digits in lower case; all other characters stand as they are. The
compact form has no white space. The pretty form has one member or item a line, indented by two
spaces a level, and writes an empty array or object on one line.
-/

namespace JavaOutline.Json

/-- The four lower-case hexadecimal digits of a number. -/
def fourHexDigits (n : Nat) : List Char :=
  let digits := hexDigits n
  List.replicate (4 - digits.length) '0' ++ digits

/-- A code point as a string writes it. -/
def writeCodePoint (n : Nat) : List Char :=
  if n = 0x22 then ['\\', '"']
  else if n = 0x5c then ['\\', '\\']
  else if n = 0x08 then ['\\', 'b']
  else if n = 0x0c then ['\\', 'f']
  else if n = 0x0a then ['\\', 'n']
  else if n = 0x0d then ['\\', 'r']
  else if n = 0x09 then ['\\', 't']
  else if n < 0x20 then ['\\', 'u'] ++ fourHexDigits n
  else if n.isValidChar then [Char.ofNat n]
  else ['\\', 'u'] ++ fourHexDigits n

/-- A string in quotes. -/
def writeString (codePoints : List Nat) : String :=
  String.ofList ('"' :: codePoints.flatMap writeCodePoint ++ ['"'])

mutual

/-- The compact form of a value. -/
def compact : Json → String
  | .null => "null"
  | .bool value => if value then "true" else "false"
  | .natural value => Nat.repr value
  | .numeral digits => String.ofList digits
  | .string codePoints => writeString codePoints
  | .array items => "[" ++ ",".intercalate (compactItems items) ++ "]"
  | .object members => "\x7b" ++ ",".intercalate (compactMembers members) ++ "\x7d"

/-- The compact forms of some values. -/
def compactItems : List Json → List String
  | [] => []
  | item :: items => compact item :: compactItems items

/-- The compact forms of some members. -/
def compactMembers : List (List Nat × Json) → List String
  | [] => []
  | (key, value) :: members => (writeString key ++ ":" ++ compact value) :: compactMembers members

end

/-- A new line at a level of indentation. -/
def newLine (level : Nat) : String :=
  "\n" ++ "".pushn ' ' (2 * level)

/-- The lines of a bracketed list at a level of indentation. -/
def bracketed (level : Nat) (opening closing : String) (lines : List String) : String :=
  if lines.isEmpty then opening ++ closing
  else
    opening ++ ",".intercalate (lines.map (newLine (level + 1) ++ ·)) ++ newLine level ++ closing

mutual

/-- The pretty form of a value at a level of indentation. -/
def pretty (level : Nat) : Json → String
  | .null => "null"
  | .bool value => if value then "true" else "false"
  | .natural value => Nat.repr value
  | .numeral digits => String.ofList digits
  | .string codePoints => writeString codePoints
  | .array items => bracketed level "[" "]" (prettyItems (level + 1) items)
  | .object members => bracketed level "\x7b" "\x7d" (prettyMembers (level + 1) members)

/-- The pretty forms of some values. -/
def prettyItems (level : Nat) : List Json → List String
  | [] => []
  | item :: items => pretty level item :: prettyItems level items

/-- The pretty forms of some members. -/
def prettyMembers (level : Nat) : List (List Nat × Json) → List String
  | [] => []
  | (key, value) :: members =>
    (writeString key ++ ": " ++ pretty level value) :: prettyMembers level members

end

end JavaOutline.Json
