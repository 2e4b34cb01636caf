import JavaOutline.Source.Span

/-!
# Lines of a source

A line ends at a line feed, at a carriage return followed by a line feed, or at a lone carriage
return; the terminator belongs to no line. Positions count lines and bytes from zero and are
written counted from one.

Where the lines start and stop is kept in two tables. They are filled in one pass over the source,
and the line of an offset is found by bisection. Lines, columns and the offsets in the tables are
32-bit words, which drop what does not fit. In a source of at most `narrowMax` bytes every offset
fits, and only the number of lines may be one more than a word can hold.
-/

namespace JavaOutline

/-- A place in a source by line and by bytes into the line, both counted from zero. -/
structure Position where
  /-- The line. -/
  line : Nat
  /-- The number of bytes of the line before the place. -/
  column : Nat
  deriving DecidableEq, Repr, Inhabited

/-- The written form `3:7`, counted from one. -/
def Position.text (position : Position) : Except Fault String := do
  let line ← addNarrow position.line 1
  let column ← addNarrow position.column 1
  return s!"{line}:{column}"

/-- The index of a number in a table that increases, sought from `low` up to, and without, `high`.
Where it is not in the table, the error is the index at which it would have to be added. -/
def bisect (table : Array Nat) (number low high : Nat) (within : high ≤ table.size) :
    Except Nat Nat :=
  if inside : low < high then
    let middle := (low + high) / 2
    have middle_lt : middle < table.size := by omega
    if table[middle] = number then .ok middle
    else if table[middle] < number then bisect table number (middle + 1) high within
    else bisect table number low middle (Nat.le_of_lt middle_lt)
  else .error low
termination_by high - low

/-- The division of a source into lines. -/
structure Lines where
  /-- The offset at which each line starts. -/
  starts : Array Nat
  /-- The offset at which each line stops, in front of its terminator. -/
  stops : Array Nat
  /-- The length of the source in bytes. -/
  size : Nat
  deriving Repr

namespace Lines

/-- Reads on in a text, from byte `offset`: at each line terminator, the line in front of it stops
and the next one starts. -/
def divide (starts stops : Array Nat) (offset : Nat) : List Char → Array Nat × Array Nat
  | [] => (starts, stops)
  | '\r' :: '\n' :: cs =>
    divide (starts.push (wrap (offset + 2))) (stops.push (wrap offset)) (offset + 2) cs
  | c :: cs =>
    if c = '\n' ∨ c = '\r' then
      divide (starts.push (wrap (offset + 1))) (stops.push (wrap offset)) (offset + 1) cs
    else divide starts stops (offset + c.utf8Size) cs

/-- The lines of a source. The first one starts and the last one stops with the source. -/
def ofSource (source : Source) : Lines :=
  let (starts, stops) := divide #[0] #[] 0 source.chars
  { starts, stops := stops.push (wrap source.size), size := wrap source.size }

/-- The number of lines; even an empty source has one. -/
def count (lines : Lines) : Nat :=
  wrap lines.starts.size

/-- The span of a line, without its terminator. -/
def line? (lines : Lines) (line : Nat) : Option Span := do
  return ⟨← lines.starts[line]?, ← lines.stops[line]?⟩

/-- The line of an offset: the last one that starts there or before. -/
def lineAt (lines : Lines) (offset : Nat) : Nat :=
  match bisect lines.starts (min offset lines.size) 0 lines.starts.size (Nat.le_refl _) with
  | .ok line => line
  | .error next => next - 1

/-- The line and column of an offset. An offset past the end stands for the end, and one inside a
terminator for the end of its line. -/
def position (lines : Lines) (offset : Nat) : Position :=
  let offset := min (narrow offset) lines.size
  let line := lines.lineAt offset
  match lines.line? line with
  | some span => ⟨wrap line, subWrap (min offset span.stop) span.start⟩
  | none => ⟨wrap line, 0⟩

/-- The offset of a position: `none` if the line does not exist or is shorter than the column. -/
def offset? (lines : Lines) (position : Position) : Except Fault (Option Nat) :=
  match lines.line? position.line with
  | none => .ok none
  | some span => do
    let offset ← addNarrow span.start position.column
    return if offset ≤ span.stop then some offset else none

end Lines

end JavaOutline
