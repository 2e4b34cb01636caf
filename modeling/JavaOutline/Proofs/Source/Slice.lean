import JavaOutline.Proofs.Token.Restart

/-!
# Which slices exist

A span can be cut out of a source exactly if it is in order and both of its ends lie between
characters. The extent of a span that is not empty has the same text as the span.
-/

namespace JavaOutline

theorem byteLength_eq_zero {cs : List Char} : byteLength cs = 0 ↔ cs = [] := by
  constructor
  · intro length_eq
    cases cs with
    | nil => rfl
    | cons c cs =>
        rw [byteLength] at length_eq
        have := c.utf8Size_pos
        omega
  · rintro rfl
    rfl

theorem exists_of_dropBytes? {cs rest : List Char} {n : Nat}
    (found : dropBytes? cs n = some rest) : ∃ left, cs = left ++ rest ∧ byteLength left = n := by
  fun_induction dropBytes? cs n with
  | case1 cs =>
      cases found
      exact ⟨[], rfl, rfl⟩
  | case2 => cases found
  | case3 c cs n fits induction =>
      obtain ⟨left, rfl, length_eq⟩ := induction found
      exact ⟨c :: left, rfl, by rw [byteLength]; omega⟩
  | case4 => cases found

theorem exists_of_takeBytes? {cs part : List Char} {n : Nat}
    (found : takeBytes? cs n = some part) : ∃ right, cs = part ++ right ∧ byteLength part = n := by
  fun_induction takeBytes? cs n generalizing part with
  | case1 cs =>
      cases found
      exact ⟨cs, rfl, rfl⟩
  | case2 => cases found
  | case3 c cs n fits induction =>
      obtain ⟨part, taken, rfl⟩ := Option.map_eq_some_iff.mp found
      obtain ⟨right, rfl, length_eq⟩ := induction taken
      exact ⟨right, rfl, by rw [byteLength]; omega⟩
  | case4 => cases found

namespace Source

variable {source : Source} {span : Span} {text : String}

/-- A text that was cut out stands in the source. -/
theorem exists_append_of_slice? (found : source.slice? span = some text) :
    ∃ left right, source.chars = left ++ (text.toList ++ right) ∧
      span.start = byteLength left ∧ span.stop = byteLength left + byteLength text.toList := by
  obtain ⟨part, sliced, rfl⟩ := Option.map_eq_some_iff.mp found
  unfold sliceBytes? at sliced
  split_ifs at sliced with in_order
  obtain ⟨rest, dropped, taken⟩ := Option.bind_eq_some_iff.mp sliced
  obtain ⟨left, chars_eq, left_eq⟩ := exists_of_dropBytes? dropped
  obtain ⟨right, rest_eq, part_eq⟩ := exists_of_takeBytes? taken
  refine ⟨left, right, ?_, left_eq.symm, ?_⟩
  · rw [chars_eq, rest_eq, String.toList_ofList]
  · rw [String.toList_ofList]
    omega

/-- A text that stands in the source can be cut out. -/
theorem slice?_of_append {left part right : List Char}
    (chars_eq : source.chars = left ++ (part ++ right)) :
    source.slice? ⟨byteLength left, byteLength left + byteLength part⟩ = some (.ofList part) := by
  rw [slice?, chars_eq, sliceBytes?_append]
  rfl

/-- A span can be cut out if and only if it is in order and cuts no character. -/
theorem exists_slice?_iff : (∃ text, source.slice? span = some text) ↔
    span.start ≤ span.stop ∧ source.IsBoundary span.start ∧ source.IsBoundary span.stop := by
  constructor
  · rintro ⟨text, found⟩
    obtain ⟨left, right, chars_eq, start_eq, stop_eq⟩ := exists_append_of_slice? found
    refine ⟨by omega, ⟨left, _, chars_eq, start_eq.symm⟩, ⟨left ++ text.toList, right, ?_, ?_⟩⟩
    · rw [chars_eq, List.append_assoc]
    · rw [byteLength_append, stop_eq]
  · rintro ⟨in_order, ⟨left, rest, chars_eq, left_eq⟩, ⟨front, right, chars_eq', front_eq⟩⟩
    rcases List.append_eq_append_iff.mp (chars_eq.symm.trans chars_eq') with
      ⟨part, rfl, rfl⟩ | ⟨part, rfl, rfl⟩
    · rw [byteLength_append, left_eq] at front_eq
      have sliced := slice?_of_append chars_eq
      rw [left_eq, front_eq] at sliced
      exact ⟨_, sliced⟩
    · -- No byte stands between the two ends.
      obtain ⟨start, stop⟩ := span
      rw [byteLength_append] at left_eq
      obtain rfl : stop = start := by
        simp only at in_order left_eq front_eq
        omega
      have sliced := @slice?_of_append _ _ [] _ chars_eq
      rw [byteLength_append, left_eq] at sliced
      exact ⟨_, sliced⟩

/-- The front of a text with no more bytes than another front of it is the front of that front. -/
theorem exists_append_of_byteLength_le {front front' rest rest' : List Char}
    (chars_eq : front ++ rest = front' ++ rest') (le : byteLength front ≤ byteLength front') :
    ∃ middle, front' = front ++ middle ∧ rest = middle ++ rest' := by
  rcases List.append_eq_append_iff.mp chars_eq with ⟨middle, rfl, rfl⟩ | ⟨middle, rfl, rfl⟩
  · exact ⟨middle, rfl, rfl⟩
  · cases middle with
    | nil => exact ⟨[], by simp, by simp⟩
    | cons c middle =>
        rw [byteLength_append, byteLength] at le
        have := c.utf8Size_pos
        omega

/-- The text of a span inside another one stands in its text, as far from both ends as the span. -/
theorem exists_append_of_inside {inner outer : Span} {part whole : String}
    (found : source.slice? inner = some part) (found' : source.slice? outer = some whole)
    (start_le : outer.start ≤ inner.start) (stop_le : inner.stop ≤ outer.stop) :
    ∃ left right, whole.toList = left ++ (part.toList ++ right) ∧
      byteLength left = inner.start - outer.start ∧ byteLength right = outer.stop - inner.stop := by
  obtain ⟨before, after, chars_eq, start_eq, stop_eq⟩ := exists_append_of_slice? found
  obtain ⟨before', after', chars_eq', start_eq', stop_eq'⟩ := exists_append_of_slice? found'
  obtain ⟨left, rfl, rest_eq⟩ := exists_append_of_byteLength_le (chars_eq'.symm.trans chars_eq)
    (by rwa [start_eq, start_eq'] at start_le)
  rw [← List.append_assoc] at rest_eq
  obtain ⟨right, whole_eq, -⟩ := exists_append_of_byteLength_le rest_eq.symm (by
    rw [byteLength_append] at stop_eq ⊢
    omega)
  rw [List.append_assoc] at whole_eq
  have length_eq : byteLength whole.toList =
      byteLength left + (byteLength part.toList + byteLength right) := by
    rw [whole_eq, byteLength_append, byteLength_append]
  rw [byteLength_append] at start_eq stop_eq
  exact ⟨left, right, whole_eq, by omega, by omega⟩

/-- The text of a span inside another one is a part of its text. -/
theorem isInfix_of_slice? {inner outer : Span} {part whole : String}
    (found : source.slice? inner = some part) (found' : source.slice? outer = some whole)
    (start_le : outer.start ≤ inner.start) (stop_le : inner.stop ≤ outer.stop) :
    part.toList <:+: whole.toList := by
  obtain ⟨left, right, whole_eq, -⟩ := exists_append_of_inside found found' start_le stop_le
  exact ⟨left, right, by rw [whole_eq, List.append_assoc]⟩

/-- The text of a span at the start of another one is the front of its text. -/
theorem isPrefix_of_slice? {inner outer : Span} {part whole : String}
    (found : source.slice? inner = some part) (found' : source.slice? outer = some whole)
    (start_eq : inner.start = outer.start) (stop_le : inner.stop ≤ outer.stop) :
    part.toList <+: whole.toList := by
  obtain ⟨left, right, whole_eq, left_eq, -⟩ :=
    exists_append_of_inside found found' (Nat.le_of_eq start_eq.symm) stop_le
  rw [start_eq, Nat.sub_self, byteLength_eq_zero] at left_eq
  rw [left_eq, List.nil_append] at whole_eq
  exact ⟨right, whole_eq.symm⟩

/-- The text of a span at the end of another one is the end of its text. -/
theorem isSuffix_of_slice? {inner outer : Span} {part whole : String}
    (found : source.slice? inner = some part) (found' : source.slice? outer = some whole)
    (start_le : outer.start ≤ inner.start) (stop_eq : inner.stop = outer.stop) :
    part.toList <:+ whole.toList := by
  obtain ⟨left, right, whole_eq, -, right_eq⟩ :=
    exists_append_of_inside found found' start_le (Nat.le_of_eq stop_eq)
  rw [stop_eq, Nat.sub_self, byteLength_eq_zero] at right_eq
  rw [right_eq, List.append_nil] at whole_eq
  exact ⟨left, whole_eq.symm⟩

/-- The text of a span that is not empty is not empty. -/
theorem ne_empty_of_slice? (found : source.slice? span = some text)
    (start_lt : span.start < span.stop) : text ≠ "" := by
  rintro rfl
  obtain ⟨left, right, -, start_eq, stop_eq⟩ := exists_append_of_slice? found
  have nothing : byteLength "".toList = 0 := byteLength_eq_zero.mpr String.toList_empty
  omega

theorem stop_le_size (found : source.slice? span = some text) : span.stop ≤ source.size :=
  (exists_slice?_iff.mp ⟨text, found⟩).2.2.le_size

/-- The extent of a span that is not empty has the text of the span. -/
theorem excerpt?_eq_slice? (source : Source) (start_lt : span.start < span.stop) :
    source.excerpt? ⟨span.start, span.stop - 1⟩ = source.slice? span := by
  have span_eq : (⟨span.start, span.stop - 1 + 1⟩ : Span) = span := by
    rw [Nat.sub_add_cancel (Nat.zero_lt_of_lt start_lt)]
  unfold excerpt?
  rw [span_eq]
  split_ifs with within
  · rfl
  · cases found : source.slice? span with
    | none => rfl
    | some text =>
        have stop_le := stop_le_size found
        rw [Extent.isWithin_iff] at within
        simp only at within
        omega

/-- An extent that has a text is in order and inside the source. -/
theorem bounds_of_excerpt? {extent : Extent} (found : source.excerpt? extent = some text) :
    extent.first ≤ extent.last ∧ extent.last < source.size := by
  unfold excerpt? at found
  split_ifs at found with within
  exact Extent.isWithin_iff.mp within

end Source

end JavaOutline
