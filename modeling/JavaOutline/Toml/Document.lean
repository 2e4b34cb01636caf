import JavaOutline.Toml.Scalar
import JavaOutline.Toml.Table

/-!
# Reading TOML documents

A document is a list of lines: entries, headers, comments and blank lines. Only arrays and strings
go over several lines. A byte order mark at the start is passed over. Values nest less than
`nestingLimit` deep, and dotted keys have fewer parts than that.
-/

namespace JavaOutline.Toml

/-- The number of parts that a dotted key, and of levels that a nested value, must not reach. -/
def nestingLimit : Nat := 80

/-- Drops spaces and tabs. -/
def dropSpace (cs : List Char) : List Char :=
  cs.dropWhile isSpace

/-- Drops a comment, if the text begins with one. -/
def dropComment : List Char → List Char
  | '#' :: cs => cs.dropWhile isPlain
  | cs => cs

/-- Reads the rest of a line: nothing but a comment, and the line end or the end of the text. -/
def afterLine? (cs : List Char) : Option (List Char) :=
  match dropComment (dropSpace cs) with
  | [] => some []
  | cs => afterLineEnd? cs

/-- Drops spaces, line ends and comments before line ends, at most `n` of them. -/
def dropLines : Nat → List Char → List Char
  | 0, cs => cs
  | n + 1, cs =>
    let cs := dropSpace cs
    match afterLineEnd? (dropComment cs) with
    | some cs => dropLines n cs
    | none => cs

/-- Whether a character may stand in a key without quotes. -/
def isBareKey (c : Char) : Bool := c.isAlphanum || c = '_' || c = '-'

/-- Reads one part of a key. -/
def readKeyPart? : Reader String := fun cs =>
  let bare := cs.takeWhile isBareKey
  if bare.isEmpty then readLineString? cs
  else some (String.ofList bare, cs.dropWhile isBareKey)

/-- Reads a key of at most `n` parts, with the space around its parts. -/
def readKeyParts? : Nat → Reader (List String)
  | 0, _ => none
  | n + 1, cs => do
    let (part, cs) ← readKeyPart? (dropSpace cs)
    match dropSpace cs with
    | '.' :: cs =>
      let (parts, cs) ← readKeyParts? n cs
      return (part :: parts, cs)
    | cs => return ([part], cs)

/-- Reads a key: the tables on the way, and the last part. -/
def readKey? : Reader (List String × String) := fun cs => do
  let (parts, cs) ← readKeyParts? (nestingLimit - 1) cs
  let last ← parts.getLast?
  return ((parts.dropLast, last), cs)

/-- Reads an entry whose value `value?` reads. -/
def readEntryWith? (value? : Reader Toml) : Reader (List String × String × Toml) := fun cs => do
  let ((path, key), cs) ← readKey? cs
  let cs ← afterChar? '=' cs
  let (value, cs) ← value? (dropSpace cs)
  return ((path, key, value), cs)

/-- Reads the items of an array after its bracket, at most `n` of them. -/
def readItemsWith? (value? : Reader Toml) : Nat → Reader (List Toml)
  | 0, _ => none
  | n + 1, cs =>
    match dropLines cs.length cs with
    | ']' :: cs => some ([], cs)
    | cs => do
      let (item, cs) ← value? cs
      match dropLines cs.length cs with
      | ',' :: cs =>
        let (items, cs) ← readItemsWith? value? n cs
        return (item :: items, cs)
      | ']' :: cs => return ([item], cs)
      | _ => none

/-- Reads the entries of a table in braces, one at least and at most `n`, into `host`. -/
def readEntriesWith? (value? : Reader Toml) : Nat → Table → Reader Table
  | 0, _, _ => none
  | n + 1, host, cs => do
    let ((path, key, value), cs) ← readEntryWith? value? cs
    let host ← host.insert? path key value
    match dropSpace cs with
    | ',' :: cs => readEntriesWith? value? n host cs
    | '\x7d' :: cs => return (host, cs)
    | _ => none

/-- Reads a value that is nested less than `n` levels deep. -/
def readValue? : Nat → Reader Toml
  | 0, _ => none
  | n + 1, cs =>
    match cs with
    | [] => none
    | '[' :: cs =>
      if n = 0 then none
      else (readItemsWith? (readValue? n) (cs.length + 1) cs).map fun (items, cs) =>
        (.array items, cs)
    | '\x7b' :: cs =>
      if n = 0 then none
      else
        match dropSpace cs with
        | '\x7d' :: cs => some (.table [], cs)
        | cs => (readEntriesWith? (readValue? n) (cs.length + 1) .empty cs).map
          fun (inner, cs) => (inner.toToml, cs)
    | c :: cs =>
      if c = '"' || c = '\'' then (readString? (c :: cs)).map fun (text, cs) => (.string text, cs)
      else if c = '+' || c = '-' || c.isDigit then readNumber? (c :: cs)
      else readWord? (c :: cs)

/-- Reads a header after its first bracket into a document. -/
def readHeader? (builder : Builder) : List Char → Option (Builder × List Char)
  | '[' :: cs => do
    let ((path, key), cs) ← readKey? cs
    let cs ← (afterChar? ']' cs).bind (afterChar? ']')
    return (← builder.openElement? path key, ← afterLine? cs)
  | cs => do
    let ((path, key), cs) ← readKey? cs
    let cs ← afterChar? ']' cs
    return (← builder.openTable? path key, ← afterLine? cs)

/-- Reads at most `n` lines into a document. -/
def readLines? : Nat → Builder → List Char → Option Builder
  | 0, _, _ => none
  | n + 1, builder, cs =>
    match dropSpace cs with
    | [] => some builder
    | '[' :: cs => do
      let (builder, cs) ← readHeader? builder cs
      readLines? n builder cs
    | c :: cs => do
      if c = '#' || c = '\n' || c = '\r' then
        readLines? n builder (← afterLine? (c :: cs))
      else
        let ((path, key, value), cs) ← readEntryWith? (readValue? nestingLimit) (c :: cs)
        let builder ← builder.insert? path key value
        readLines? n builder (← afterLine? cs)

/-- Drops a byte order mark. -/
def dropMark : List Char → List Char
  | c :: cs => if c = Char.ofNat 0xfeff then cs else c :: cs
  | [] => []

/-- Reads a document; its value is a table. -/
def read? (text : List Char) : Option (List (String × Toml)) := do
  let cs := dropMark text
  let builder ← readLines? (cs.length + 1) .empty cs
  let root ← builder.close?
  return Table.entriesToToml root.entries

end JavaOutline.Toml
