import JavaOutline.Source.Offset
import JavaOutline.Source.Text

/-!
# Spans and extents

A `Span` is a half-open byte range, as the parser produces it; it may be empty or even reversed.
An `Extent` names its last byte instead of the byte after it, as the nodes of an outline do, so an
empty span has no extent.
-/

namespace JavaOutline

/-- The half-open byte range from `start` up to, and without, `stop`. -/
structure Span where
  /-- The first byte. -/
  start : Nat
  /-- The byte after the last one. -/
  stop : Nat
  deriving DecidableEq, Repr, Inhabited

/-- The byte range from `first` to `last`, both included. -/
structure Extent where
  /-- The first byte. -/
  first : Nat
  /-- The last byte. -/
  last : Nat
  deriving DecidableEq, Repr, Inhabited

namespace Span

/-- The empty span at an offset. -/
def point (offset : Nat) : Span := ⟨offset, offset⟩

/-- The number of bytes; a reversed span has none. -/
def length (span : Span) : Nat := span.stop - span.start

/-- Whether the span holds no byte. -/
def isEmpty (span : Span) : Bool := span.stop ≤ span.start

/-- The least span around two spans. -/
def cover (left right : Span) : Span :=
  ⟨min left.start right.start, max left.stop right.stop⟩

/-- The order by start, then by stop. -/
def order (left right : Span) : Ordering :=
  (compare left.start right.start).then (compare left.stop right.stop)

/-- The span in 32-bit offsets: both ends are clamped, and the stop is raised to the start. -/
def narrowed (span : Span) : Span :=
  ⟨narrow span.start, max (narrow span.stop) (narrow span.start)⟩

/-- The written form `Span(0..2)`. -/
def text (span : Span) : String :=
  s!"Span({span.start}..{span.stop})"

/-- The same bytes as an extent; an empty or reversed span has none. -/
def extent? (span : Span) : Option Extent :=
  if span.isEmpty then none else some ⟨span.start, span.stop - 1⟩

theorem isEmpty_eq_true_iff {span : Span} : span.isEmpty = true ↔ span.stop ≤ span.start :=
  decide_eq_true_iff

theorem extent?_eq_none_iff {span : Span} : span.extent? = none ↔ span.stop ≤ span.start := by
  rw [← isEmpty_eq_true_iff, extent?]
  split
  case isTrue empty => exact ⟨fun _ => empty, fun _ => rfl⟩
  case isFalse not_empty => exact ⟨nofun, fun empty => absurd empty not_empty⟩

theorem extent?_eq_some_iff {span : Span} {extent : Extent} : span.extent? = some extent ↔
    span.start < span.stop ∧ extent = ⟨span.start, span.stop - 1⟩ := by
  rw [← Nat.not_le, ← isEmpty_eq_true_iff, extent?]
  split
  case isTrue empty => exact ⟨nofun, fun ⟨not_empty, _⟩ => absurd empty not_empty⟩
  case isFalse not_empty =>
    exact ⟨fun found => ⟨not_empty, (Option.some.inj found).symm⟩,
      fun ⟨_, extent_eq⟩ => congrArg some extent_eq.symm⟩

end Span

namespace Extent

/-- The same bytes as a span. The stop is one past the last byte and must still be an offset. -/
def span (extent : Extent) : Except Fault Span :=
  (addOffsets extent.last 1).map fun stop => ⟨extent.first, stop⟩

/-- The number of bytes, counted as at least one. -/
def length (extent : Extent) : Except Fault Nat :=
  addOffsets (extent.last - extent.first) 1

/-- Whether an offset lies in the extent. -/
def contains (extent : Extent) (offset : Nat) : Bool :=
  extent.first ≤ offset && offset ≤ extent.last

/-- Whether the extent is in order and inside a text of `size` bytes. -/
def isWithin (extent : Extent) (size : Nat) : Bool :=
  extent.first ≤ extent.last && extent.last < size

theorem contains_iff {extent : Extent} {offset : Nat} :
    extent.contains offset = true ↔ extent.first ≤ offset ∧ offset ≤ extent.last := by
  rw [contains, Bool.and_eq_true, decide_eq_true_eq, decide_eq_true_eq]

theorem isWithin_iff {extent : Extent} {size : Nat} :
    extent.isWithin size = true ↔ extent.first ≤ extent.last ∧ extent.last < size := by
  rw [isWithin, Bool.and_eq_true, decide_eq_true_eq, decide_eq_true_eq]

/-- The written form `[0, 2]`. -/
def text (extent : Extent) : String :=
  s!"[{extent.first}, {extent.last}]"

end Extent

/-- The text under a span; `none` if the span is reversed, outside the source, or cuts a
character. -/
def Source.slice? (source : Source) (span : Span) : Option String :=
  (sliceBytes? source.chars span.start span.stop).map String.ofList

/-- The text under an extent; `none` if the extent does not fit the source. -/
def Source.excerpt? (source : Source) (extent : Extent) : Option String :=
  if extent.isWithin source.size then source.slice? ⟨extent.first, extent.last + 1⟩ else none

end JavaOutline
