import JavaOutline.Log.Event
import JavaOutline.Source.Text
import JavaOutline.Text.Alphanumeric
import JavaOutline.Text.Digits
import JavaOutline.Text.WhiteSpace

/-!
# Filters of events

A filter is a list of directives. A directive sets the limit of one target, and of all targets that
it begins the name of; a directive without target sets the limit of the others. A filter has one
directive a target, the longer targets first, so the first directive that applies to an event is
the most specific one.
-/

namespace JavaOutline

/-- The limit of a target; without target, of all targets. -/
structure Directive where
  /-- The target. -/
  target : Option String
  /-- The limit. -/
  limit : Limit
  deriving DecidableEq, Repr

/-- A text with the letters `A` to `Z` in lower case. -/
def asciiLower (text : List Char) : String :=
  String.ofList (text.map Char.toLower)

/-- The number that decimal digits stand for, which a plus sign may precede. -/
def plainNumber? (text : List Char) : Option Nat :=
  let digits := if text.head? = some '+' then text.drop 1 else text
  if digits.isEmpty || !digits.all Char.isDigit then none else some (decimalNumber digits)

/-- The limit of a name in either case, or of a number from 0, which lets nothing pass, to 5. -/
def Limit.ofText? (text : List Char) : Option Limit :=
  all.find? fun limit =>
    limit.name = asciiLower text || some limit.rank = plainNumber? text

namespace Directive

/-- The written form of a directive. -/
def text (directive : Directive) : String :=
  match directive.target with
  | none => directive.limit.name
  | some target => target ++ "=" ++ directive.limit.name

/-- Whether a directive may begin with a character. -/
def beginsDirective (c : Char) : Bool :=
  c = '-' || c = ':' || c = '_' || isAlphanumeric c

/-- The directive of a text: a limit, a target with the limit after an equals sign, or a target
alone, all of whose events pass. White space around a directive belongs to its target or its limit,
but counts neither for how the directive begins nor for the place of the equals sign. So a limit
with white space after it is none, and after white space the cut between target and limit comes too
early by the length of that space. -/
def ofText? (text : List Char) : Option Directive := do
  let inner := trimWhiteSpace text
  if !inner.head?.any beginsDirective then none
  let before := inner.takeWhile (· ≠ '=')
  if before.length = inner.length then
    match Limit.ofText? text with
    | some limit => return ⟨none, limit⟩
    | none => return ⟨some (String.ofList text), some .trace⟩
  else
    let target ← takeBytes? text (byteLength before)
    let level ← dropBytes? text (byteLength before + 1)
    if level.isEmpty then return ⟨some (String.ofList target), some .trace⟩
    let limit ← Limit.ofText? level
    return ⟨some (String.ofList target), limit⟩

/-- Whether a directive comes before another: one with a longer target does, then one with the
greater target, and one without target comes last. -/
def precedes (left right : Directive) : Bool :=
  match left.target, right.target with
  | none, _ => false
  | some _, none => true
  | some left, some right =>
    right.utf8ByteSize < left.utf8ByteSize
      || (left.utf8ByteSize = right.utf8ByteSize && right < left)

/-- Whether a directive applies to a target. -/
def appliesTo (directive : Directive) (target : String) : Bool :=
  directive.target.all (·.toList.isPrefixOf target.toList)

end Directive

/-- Directives in order, one a target. -/
structure Filter where
  /-- The directives. -/
  directives : List Directive
  deriving DecidableEq, Repr

namespace Filter

/-- Puts a directive in its place; it replaces the one of its target. -/
def insertInto (directive : Directive) : List Directive → List Directive
  | [] => [directive]
  | first :: rest =>
    if first.target = directive.target then directive :: rest
    else if directive.precedes first then directive :: first :: rest
    else first :: insertInto directive rest

/-- The filter of directives with commas between them. Texts that are no directives are passed
over; without any directive, warnings and errors pass. -/
def ofText (text : List Char) : Filter :=
  let directives := (text.splitOn ',').filterMap Directive.ofText?
  if directives.isEmpty then ⟨[⟨none, some .warn⟩]⟩
  else ⟨directives.foldl (fun sorted directive => insertInto directive sorted) []⟩

/-- The written form of a filter. -/
def text (filter : Filter) : String :=
  ",".intercalate (filter.directives.map (·.text))

/-- Whether an event passes: the first directive that applies to its target decides. -/
def allows (filter : Filter) (event : Event) : Bool :=
  (filter.directives.find? (·.appliesTo event.target)).any (·.limit.allows event.level)

end Filter

end JavaOutline
