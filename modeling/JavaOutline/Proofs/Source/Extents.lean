import JavaOutline.Proofs.Source.Slice

/-!
# Extents and spans

A span that holds a byte and its extent are two names of the same bytes: they have the same length,
hold the same offsets, fit into the same sources, and have the same text or, where an end lies
outside the source or inside a character, none.
-/

namespace JavaOutline

namespace Extent

variable {extent : Extent} {span : Span}

/-- An extent has a span unless its last byte is the greatest offset. -/
theorem span_eq_ok_iff : extent.span = .ok span ↔
    extent.last + 1 < offsetBound ∧ span = ⟨extent.first, extent.last + 1⟩ := by
  rw [Extent.span, addOffsets]
  split_ifs with fits
  · exact ⟨fun found => ⟨fits, (Except.ok.inj found).symm⟩, fun ⟨_, eq⟩ => congrArg _ eq.symm⟩
  · exact ⟨nofun, fun ⟨fits', _⟩ => absurd fits' fits⟩

/-- The span of an extent leads back to it if the extent is in order and has a span at all. -/
theorem extent?_span_iff : (∃ span, extent.span = .ok span ∧ span.extent? = some extent) ↔
    extent.first ≤ extent.last ∧ extent.last + 1 < offsetBound := by
  constructor
  · rintro ⟨span, spanned, found⟩
    obtain ⟨fits, rfl⟩ := span_eq_ok_iff.mp spanned
    exact ⟨Nat.le_of_lt_succ (Span.extent?_eq_some_iff.mp found).1, fits⟩
  · rintro ⟨in_order, fits⟩
    refine ⟨_, span_eq_ok_iff.mpr ⟨fits, rfl⟩, ?_⟩
    exact Span.extent?_eq_some_iff.mpr ⟨Nat.lt_succ_of_le in_order, rfl⟩

/-! ### The extent of a span -/

section OfSpan

variable (found : span.extent? = some extent)

include found

theorem span_of_extent? (stop_lt : span.stop < offsetBound) : extent.span = .ok span := by
  obtain ⟨start_lt, rfl⟩ := Span.extent?_eq_some_iff.mp found
  have last_eq : span.stop - 1 + 1 = span.stop := Nat.sub_add_cancel (Nat.zero_lt_of_lt start_lt)
  refine span_eq_ok_iff.mpr ⟨?_, ?_⟩
  · rwa [last_eq]
  · rw [last_eq]

theorem length_of_extent? (stop_lt : span.stop < offsetBound) :
    extent.length = .ok span.length := by
  obtain ⟨start_lt, rfl⟩ := Span.extent?_eq_some_iff.mp found
  have length_eq : span.stop - 1 - span.start + 1 = span.stop - span.start := by omega
  have length_lt : span.stop - span.start < offsetBound :=
    Nat.lt_of_le_of_lt (Nat.sub_le _ _) stop_lt
  refine addOffsets_eq_ok_iff.mpr ⟨length_eq.symm, ?_⟩
  rwa [length_eq]

theorem contains_iff_of_extent? (offset : Nat) :
    extent.contains offset = true ↔ span.start ≤ offset ∧ offset < span.stop := by
  obtain ⟨start_lt, rfl⟩ := Span.extent?_eq_some_iff.mp found
  rw [contains_iff, Nat.le_sub_one_iff_lt (Nat.zero_lt_of_lt start_lt)]

theorem isWithin_iff_of_extent? (size : Nat) :
    extent.isWithin size = true ↔ span.stop ≤ size := by
  obtain ⟨start_lt, rfl⟩ := Span.extent?_eq_some_iff.mp found
  rw [isWithin_iff]
  simp only
  omega

end OfSpan

end Extent

namespace Source

variable {source : Source} {span : Span} {text : String}

/-- The text of a span is what stands between its two ends. -/
theorem slice?_eq_some_iff : source.slice? span = some text ↔
    ∃ left right, source.chars = left ++ (text.toList ++ right) ∧
      span.start = byteLength left ∧ span.stop = byteLength left + byteLength text.toList := by
  constructor
  · exact exists_append_of_slice?
  · obtain ⟨start, stop⟩ := span
    rintro ⟨left, right, chars_eq, rfl, rfl⟩
    rw [slice?_of_append chars_eq, String.ofList_toList]

/-- A span that holds a byte has no text if and only if it leaves the source or cuts a character. -/
theorem slice?_eq_none_iff (start_lt : span.start < span.stop) : source.slice? span = none ↔
    source.size < span.stop ∨ ¬source.IsBoundary span.start ∨ ¬source.IsBoundary span.stop := by
  rw [Option.eq_none_iff_forall_ne_some, ← not_exists, exists_slice?_iff]
  constructor
  · intro not_found
    by_contra fits
    simp only [not_or, not_not] at fits
    exact not_found ⟨Nat.le_of_lt start_lt, fits.2⟩
  · rintro broken ⟨-, boundary, boundary'⟩
    rcases broken with outside | cut | cut
    · exact Nat.not_lt_of_le boundary'.le_size outside
    · exact cut boundary
    · exact cut boundary'

end Source

/-- **A span and its extent name the same bytes.** Only a span that holds a byte has an extent. From
the extent the span can be had back without overflow; the extent has the length of the span, holds
the offsets that the span holds, fits the sources that the span fits, and has the text of the
span, which is what stands between the ends if they are in the source and cut no character.
An extent in order whose last byte is not the greatest offset is the extent of its span. -/
theorem Span.extent?_same_bytes :
    (∀ span : Span, span.stop < offsetBound →
      (span.extent? = none ↔ span.start ≥ span.stop) ∧
      ∀ extent, span.extent? = some extent →
        extent.span = .ok span ∧ extent.length = .ok span.length ∧
        (∀ offset, extent.contains offset = true ↔ span.start ≤ offset ∧ offset < span.stop) ∧
        ∀ source : Source,
          (extent.isWithin source.size = true ↔ span.stop ≤ source.size) ∧
          source.excerpt? extent = source.slice? span ∧
          (source.excerpt? extent = none ↔ source.size < span.stop ∨
            ¬source.IsBoundary span.start ∨ ¬source.IsBoundary span.stop) ∧
          ∀ text, source.excerpt? extent = some text ↔
            ∃ left right, source.chars = left ++ (text.toList ++ right) ∧
              span.start = byteLength left ∧
              span.stop = byteLength left + byteLength text.toList) ∧
    ∀ extent : Extent, (∃ span, extent.span = .ok span ∧ span.extent? = some extent) ↔
      extent.first ≤ extent.last ∧ extent.last + 1 < offsetBound := by
  refine ⟨fun span stop_lt => ⟨extent?_eq_none_iff, fun extent found => ?_⟩,
    fun extent => extent.extent?_span_iff⟩
  refine ⟨Extent.span_of_extent? found stop_lt, Extent.length_of_extent? found stop_lt,
    Extent.contains_iff_of_extent? found, fun source => ?_⟩
  obtain ⟨start_lt, extent_eq⟩ := extent?_eq_some_iff.mp found
  have same_text : source.excerpt? extent = source.slice? span := by
    rw [extent_eq]
    exact source.excerpt?_eq_slice? start_lt
  refine ⟨Extent.isWithin_iff_of_extent? found source.size, same_text, ?_, fun text => ?_⟩
  · rw [same_text]
    exact Source.slice?_eq_none_iff start_lt
  · rw [same_text]
    exact Source.slice?_eq_some_iff

/-- A letter of two bytes between two of one byte. -/
def doubleByteSource : Source := .ofString "aéb"

theorem excerpt?_doubleByteSource :
    (⟨1, 2⟩ : Span).stop < offsetBound ∧ (⟨1, 2⟩ : Span).extent? = some ⟨1, 1⟩ ∧
      doubleByteSource.excerpt? ⟨1, 1⟩ = none ∧ doubleByteSource.excerpt? ⟨1, 2⟩ = some "é" := by
  have stop_lt : (⟨1, 2⟩ : Span).stop < offsetBound := by decide
  have stop_lt' : (⟨1, 3⟩ : Span).stop < offsetBound := by decide
  have cut : doubleByteSource.slice? ⟨1, 2⟩ = none := rfl
  have whole : doubleByteSource.slice? ⟨1, 3⟩ = some "é" := by decide
  obtain ⟨-, agree⟩ := Span.extent?_same_bytes.1 ⟨1, 2⟩ stop_lt
  obtain ⟨-, agree'⟩ := Span.extent?_same_bytes.1 ⟨1, 3⟩ stop_lt'
  refine ⟨stop_lt, rfl, ?_, ?_⟩
  · exact ((agree ⟨1, 1⟩ rfl).2.2.2 doubleByteSource).2.1.trans cut
  · exact ((agree' ⟨1, 2⟩ rfl).2.2.2 doubleByteSource).2.1.trans whole

end JavaOutline
