import JavaOutline.Proofs.Source.Terminators
import Mathlib.Data.List.Pairwise

/-!
# Lines and positions

The lines of a source are what stands between its terminators, and the line that bisection finds
for an offset is the number of terminators that end there or before. So a position gives back its
offset, but for the one offset inside each pair of a carriage return and a line feed, and an offset
gives back its position.
-/

namespace JavaOutline

/-! ## Bisection -/

/-- If the items in front of an index, and no others, are at most a number, the index counts
them. -/
theorem countP_le_eq {table : Array Nat} {number index : Nat} (le_size : index ≤ table.size)
    (below : ∀ place, (inside : place < table.size) → place < index → table[place] ≤ number)
    (above : ∀ place, (inside : place < table.size) → index ≤ place → number < table[place]) :
    table.toList.countP (· ≤ number) = index := by
  have front : (table.toList.take index).countP (· ≤ number) = index := by
    have all_below : ∀ item ∈ table.toList.take index, decide (item ≤ number) = true := by
      intro item member
      obtain ⟨place, inside, rfl⟩ := List.mem_take_iff_getElem.mp member
      have := below place (by simpa using Nat.lt_of_lt_of_le inside (Nat.min_le_right _ _))
        (Nat.lt_of_lt_of_le inside (Nat.min_le_left _ _))
      simpa using this
    rw [List.countP_eq_length.mpr all_below, List.length_take]
    simpa using le_size
  have back : (table.toList.drop index).countP (· ≤ number) = 0 := by
    rw [List.countP_eq_zero]
    intro item member
    obtain ⟨place, inside, rfl⟩ := List.mem_drop_iff_getElem.mp member
    have := above (index + place) (by simpa [Nat.add_comm] using inside) (Nat.le_add_right _ _)
    simpa using this
  rw [← List.take_append_drop index table.toList, List.countP_append, front, back, Nat.add_zero]

/-- How many items of a table are at most the number sought, by the answer of a bisection. -/
def passed : Except Nat Nat → Nat
  | .ok index => index + 1
  | .error index => index

/-- Bisection finds how many items of an increasing table are at most a number. The items in front
of the part that is left are below it, and those after that part are above it. -/
theorem passed_bisect {table : Array Nat} (increasing : table.toList.Pairwise (· < ·))
    (number : Nat) {low high : Nat} (within : high ≤ table.size) (low_le : low ≤ high)
    (below : ∀ place, (inside : place < table.size) → place < low → table[place] < number)
    (above : ∀ place, (inside : place < table.size) → high ≤ place → number < table[place]) :
    passed (bisect table number low high within) = table.toList.countP (· ≤ number) := by
  have less (left right : Nat) (inside : right < table.size) (lt : left < right) :
      table[left] < table[right] :=
    List.pairwise_iff_getElem.mp increasing left right (Nat.lt_trans lt inside) inside lt
  fun_induction bisect table number low high within with
  | case1 low high within inside middle middle_lt found =>
      refine (countP_le_eq middle_lt (fun place inside lt => ?_) fun place inside le => ?_).symm
      · rcases Nat.lt_or_eq_of_le (Nat.le_of_lt_succ lt) with lt | rfl
        · exact found ▸ Nat.le_of_lt (less place middle middle_lt lt)
        · exact Nat.le_of_eq found
      · exact found ▸ less middle place inside le
  | case2 low high within inside middle middle_lt other lt_number induction =>
      refine induction (by omega) (fun place inside lt => ?_) above less
      rcases Nat.lt_or_eq_of_le (Nat.le_of_lt_succ lt) with lt | rfl
      · exact Nat.lt_trans (less place middle middle_lt lt) lt_number
      · exact lt_number
  | case3 low high within inside middle middle_lt other not_lt induction =>
      have number_lt : number < table[middle] := by omega
      refine induction (by omega) below (fun place inside le => ?_) less
      rcases Nat.lt_or_eq_of_le le with lt | rfl
      · exact Nat.lt_trans number_lt (less middle place inside lt)
      · exact number_lt
  | case4 low high within outside =>
      obtain rfl : low = high := by omega
      exact (countP_le_eq within (fun place inside lt => Nat.le_of_lt (below place inside lt))
        above).symm

/-! ## The tables -/

/-- The spans between some spans and two offsets around them. -/
def between (first last : Nat) : List Span → List Span
  | [] => [⟨first, last⟩]
  | span :: spans => ⟨first, span.start⟩ :: between span.stop last spans

namespace Lines

theorem divide_eq (starts stops : Array Nat) (offset : Nat) (cs : List Char) :
    divide starts stops offset cs =
      (starts ++ ((terminators offset cs).map (wrap ·.stop)).toArray,
        stops ++ ((terminators offset cs).map (wrap ·.start)).toArray) := by
  fun_induction divide starts stops offset cs with
  | case1 => simp [terminators]
  | case2 starts stops offset cs induction => simp [induction, terminators]
  | case3 starts stops offset c cs unpaired mark induction =>
      rw [terminators, if_pos mark, induction]
      · simp
      · exact unpaired
  | case4 starts stops offset c cs unpaired plain induction =>
      rw [terminators, if_neg plain, induction]
      exact unpaired

theorem spaced_source (source : Source) :
    Spaced 0 source.size (terminators 0 source.chars) := by
  have spaced := spaced_terminators 0 source.chars
  rwa [Nat.zero_add, ← source.size_eq] at spaced

/-- There are no more terminators than bytes. -/
theorem length_terminators_le (source : Source) :
    (terminators 0 source.chars).length ≤ source.size := by
  simpa using (spaced_source source).length_le

theorem count_ofSource (source : Source) :
    (ofSource source).count = wrap ((terminators 0 source.chars).length + 1) := by
  simp [count, ofSource, divide_eq]

section Small

variable {source : Source} (small : source.size ≤ narrowMax)

include small

theorem size_ofSource : (ofSource source).size = source.size :=
  wrap_of_le small

theorem toList_starts : (ofSource source).starts.toList =
    0 :: (terminators 0 source.chars).map (·.stop) := by
  have kept : ∀ span ∈ terminators 0 source.chars, wrap span.stop = span.stop := by
    intro span listed
    exact wrap_of_le (((spaced_source source).bounds listed).2.2.trans small)
  simpa [ofSource, divide_eq] using kept

theorem toList_stops : (ofSource source).stops.toList =
    (terminators 0 source.chars).map (·.start) ++ [source.size] := by
  have kept : ∀ span ∈ terminators 0 source.chars, wrap span.start = span.start := by
    intro span listed
    obtain ⟨-, start_lt, stop_le⟩ := (spaced_source source).bounds listed
    exact wrap_of_le (by omega)
  simpa [ofSource, divide_eq, wrap_of_le small] using kept

theorem line?_ofSource (line : Nat) :
    (ofSource source).line? line = (between 0 source.size (terminators 0 source.chars))[line]? := by
  rw [line?, ← Array.getElem?_toList, ← Array.getElem?_toList, toList_starts small,
    toList_stops small]
  generalize terminators 0 source.chars = spans
  generalize 0 = first
  induction spans generalizing first line with
  | nil => cases line <;> simp [between]
  | cons span spans induction =>
      cases line with
      | zero => rfl
      | succ line => exact induction line span.stop

theorem lineAt_ofSource (offset : Nat) :
    (ofSource source).lineAt offset =
      (terminators 0 source.chars).countP (·.stop ≤ min offset source.size) := by
  have spaced := spaced_source source
  have increasing : (ofSource source).starts.toList.Pairwise (· < ·) := by
    rw [toList_starts small, List.pairwise_cons, List.pairwise_map]
    constructor
    · intro stop member
      obtain ⟨span, listed, rfl⟩ := List.mem_map.mp member
      exact Nat.lt_of_le_of_lt (Nat.zero_le _) (spaced.bounds listed).2.1
    · exact spaced.pairwise.imp_of_mem fun _ listed apart =>
        Nat.lt_of_le_of_lt apart (spaced.bounds listed).2.1
  have passes := passed_bisect increasing (min offset source.size) (Nat.le_refl _) (Nat.zero_le _)
    (fun _ _ lt => absurd lt (Nat.not_lt_zero _))
    (fun _ inside le => absurd inside (Nat.not_lt.mpr le))
  rw [toList_starts small, List.countP_cons_of_pos (by simp), List.countP_map] at passes
  rw [lineAt, size_ofSource small]
  generalize bisect _ _ _ _ _ = found at passes
  cases found with
  | ok line => exact Nat.succ.inj passes
  | error next => exact congrArg (· - 1) passes

/-- The number of lines is that of the terminators and one more, unless all of `narrowMax` bytes
are terminators: then a word cannot hold it. -/
theorem count_cases :
    (ofSource source).count = (terminators 0 source.chars).length + 1 ∨
      (terminators 0 source.chars).length = source.size ∧ source.size = narrowMax ∧
        (ofSource source).count = 0 := by
  have le_size := length_terminators_le source
  rw [count_ofSource]
  rcases Nat.lt_or_eq_of_le (le_size.trans small) with lt | length_eq
  · exact .inl (wrap_of_le lt)
  · refine .inr ⟨by omega, by omega, ?_⟩
    rw [length_eq]
    exact Nat.mod_self _

end Small

end Lines

/-! ## Lines and offsets -/

section Between

variable {first last offset line : Nat} {spans : List Span} {span : Span}

/-- What stands between some spans is in order, and its ends are ends of the spans or the outer
ones. -/
theorem ends_of_mem_between (IsEnd : Nat → Prop) (spaced : Spaced first last spans)
    (first_end : IsEnd first) (last_end : IsEnd last)
    (ends : ∀ span ∈ spans, IsEnd span.start ∧ IsEnd span.stop)
    (member : span ∈ between first last spans) :
    span.start ≤ span.stop ∧ IsEnd span.start ∧ IsEnd span.stop := by
  induction spans generalizing first with
  | nil =>
      rw [between, List.mem_singleton] at member
      subst member
      exact ⟨spaced, first_end, last_end⟩
  | cons head spans induction =>
      obtain ⟨first_le, -, later⟩ := spaced
      obtain ⟨head_start, head_stop⟩ := ends head List.mem_cons_self
      rcases List.mem_cons.mp member with rfl | member
      · exact ⟨first_le, first_end, head_start⟩
      · exact induction later head_stop
          (fun span member => ends span (List.mem_cons_of_mem _ member)) member

/-- What stands between some spans lies on one side of each of them. -/
theorem apart_of_mem_between {gap : Span} (spaced : Spaced first last spans)
    (member : gap ∈ between first last spans) (listed : span ∈ spans) :
    span.stop ≤ gap.start ∨ gap.stop ≤ span.start := by
  induction spans generalizing first with
  | nil => cases listed
  | cons head spans induction =>
      obtain ⟨first_le, start_lt, later⟩ := spaced
      rcases List.mem_cons.mp member with rfl | member
      · refine .inr ?_
        rcases List.mem_cons.mp listed with rfl | listed
        · exact Nat.le_refl _
        · have := later.bounds listed
          simp only
          omega
      · rcases List.mem_cons.mp listed with rfl | listed
        · have ends := ends_of_mem_between (span.stop ≤ ·) later (Nat.le_refl _) later.le
            (fun other among => by have := later.bounds among; omega) member
          exact .inl ends.2.1
        · exact induction later member listed

/-- The gap that an offset falls into, or behind which it falls into a span, is counted by the spans
that stop there or before. -/
theorem exists_between (spaced : Spaced first last spans) (first_le : first ≤ offset)
    (le_last : offset ≤ last) :
    ∃ gap, (between first last spans)[spans.countP (·.stop ≤ offset)]? = some gap ∧
      gap.start ≤ offset ∧
      (offset ≤ gap.stop ∨
        ∃ span ∈ spans, span.start = gap.stop ∧ span.start < offset ∧ offset < span.stop) := by
  induction spans generalizing first with
  | nil => exact ⟨⟨first, last⟩, rfl, first_le, .inl le_last⟩
  | cons head spans induction =>
      obtain ⟨first_le_start, start_lt, later⟩ := spaced
      by_cases passed : head.stop ≤ offset
      · obtain ⟨gap, found, start_le, falls⟩ := induction later passed
        refine ⟨gap, ?_, start_le, falls.imp_right ?_⟩
        · rw [List.countP_cons_of_pos (by simpa using passed)]
          exact found
        · rintro ⟨span, listed, inside⟩
          exact ⟨span, List.mem_cons_of_mem head listed, inside⟩
      · have none_passed : (head :: spans).countP (·.stop ≤ offset) = 0 := by
          rw [List.countP_eq_zero]
          intro span listed
          have : offset < span.stop := by
            rcases List.mem_cons.mp listed with rfl | listed
            · omega
            · have := later.bounds listed
              omega
          simpa using this
        rw [none_passed]
        refine ⟨⟨first, head.start⟩, rfl, first_le, ?_⟩
        by_cases before : offset ≤ head.start
        · exact .inl before
        · exact .inr ⟨head, List.mem_cons_self, rfl, by omega, by omega⟩

/-- The gap that holds an offset is counted by the spans that stop there or before. -/
theorem countP_of_between {gap : Span} (spaced : Spaced first last spans)
    (found : (between first last spans)[line]? = some gap) (start_le : gap.start ≤ offset)
    (le_stop : offset ≤ gap.stop) : spans.countP (·.stop ≤ offset) = line := by
  induction spans generalizing first line with
  | nil =>
      cases line with
      | zero => rfl
      | succ line => cases found
  | cons head spans induction =>
      obtain ⟨first_le, start_lt, later⟩ := spaced
      cases line with
      | zero =>
          cases found
          rw [List.countP_eq_zero]
          intro span listed
          have : offset < span.stop := by
            simp only at le_stop
            rcases List.mem_cons.mp listed with rfl | listed
            · omega
            · have := later.bounds listed
              omega
          simpa using this
      | succ line =>
          have passed : head.stop ≤ gap.start := by
            have ends := ends_of_mem_between (head.stop ≤ ·) later (Nat.le_refl _)
              later.le (fun span listed => by have := later.bounds listed; omega)
              (List.mem_of_getElem? found)
            exact ends.2.1
          rw [List.countP_cons_of_pos (by simpa using Nat.le_trans passed start_le)]
          exact congrArg Nat.succ (induction later found)

end Between

/-- Whether an offset lies between a carriage return and the line feed after it. -/
def Source.SplitsPair (source : Source) (offset : Nat) : Prop :=
  ∃ left right, source.chars = left ++ '\r' :: '\n' :: right ∧ offset = byteLength left + 1

namespace Lines

section Small

variable {source : Source} (small : source.size ≤ narrowMax)

include small

/-- A line lies on one side of each terminator. -/
theorem apart_of_line {line : Nat} {span terminator : Span}
    (found : (ofSource source).line? line = some span)
    (is_terminator : IsTerminator source.chars terminator) :
    terminator.stop ≤ span.start ∨ span.stop ≤ terminator.start := by
  rw [line?_ofSource small] at found
  exact apart_of_mem_between (spaced_source source) (List.mem_of_getElem? found)
    (mem_terminators_iff.mpr is_terminator)

/-- The text of a line holds no character of a terminator. -/
theorem exists_plain_text {line : Nat} {span : Span}
    (found : (ofSource source).line? line = some span) :
    ∃ text, source.slice? span = some text ∧ ∀ c ∈ text.toList, ¬(c = '\n' ∨ c = '\r') := by
  have member := found
  rw [line?_ofSource small] at member
  have last_boundary : source.IsBoundary source.size :=
    ⟨source.chars, [], (List.append_nil _).symm, source.size_eq.symm⟩
  obtain ⟨in_order, start_boundary, stop_boundary⟩ := ends_of_mem_between source.IsBoundary
    (spaced_source source) source.isBoundary_zero last_boundary
    (fun span listed => (mem_terminators_iff.mp listed).isBoundary) (List.mem_of_getElem? member)
  obtain ⟨text, sliced⟩ :=
    Source.exists_slice?_iff.mpr ⟨in_order, start_boundary, stop_boundary⟩
  refine ⟨text, sliced, fun c among mark => ?_⟩
  -- The character would belong to a terminator that reaches into the line.
  obtain ⟨left, right, chars_eq, start_eq, stop_eq⟩ := Source.exists_append_of_slice? sliced
  obtain ⟨front, back, text_eq⟩ := List.append_of_mem among
  obtain ⟨terminator, is_terminator, start_le, lt_stop⟩ :=
    exists_isTerminator_of_mark (left ++ front) (back ++ right) mark
  have chars_eq' : (left ++ front) ++ c :: (back ++ right) = source.chars := by
    rw [chars_eq, text_eq]
    simp
  rw [chars_eq'] at is_terminator
  have apart := apart_of_line small found is_terminator
  have positive := c.utf8Size_pos
  rw [text_eq, byteLength_append, byteLength] at stop_eq
  rw [byteLength_append] at start_le lt_stop
  omega

/-- What a position is: the line that is reached by as many terminators as stop at the offset or
before, and the bytes up to the offset in it. Only inside a terminator does an offset lie behind its
line. -/
theorem exists_line_position (offset : Nat) :
    ∃ span, (ofSource source).line? ((ofSource source).position offset).line = some span ∧
      (ofSource source).position offset =
        ⟨(terminators 0 source.chars).countP (·.stop ≤ min offset source.size),
          min (min offset source.size) span.stop - span.start⟩ ∧
      span.start ≤ span.stop ∧ span.start ≤ min offset source.size ∧
      (min offset source.size ≤ span.stop ∨
        ∃ terminator, IsTerminator source.chars terminator ∧ terminator.start = span.stop ∧
          terminator.start < min offset source.size ∧
          min offset source.size < terminator.stop) := by
  have place_eq : min (narrow offset) source.size = min offset source.size := by
    rw [narrow, Nat.min_assoc, Nat.min_eq_right small]
  obtain ⟨span, found, start_le, falls⟩ :=
    exists_between (spaced_source source) (Nat.zero_le (min offset source.size))
      (Nat.min_le_right _ _)
  rw [← line?_ofSource small] at found
  have in_order : span.start ≤ span.stop := by
    obtain ⟨text, sliced, -⟩ := exists_plain_text small found
    exact (Source.exists_slice?_iff.mp ⟨text, sliced⟩).1
  have position_eq : (ofSource source).position offset =
      ⟨(terminators 0 source.chars).countP (·.stop ≤ min offset source.size),
        min (min offset source.size) span.stop - span.start⟩ := by
    have line_le : (terminators 0 source.chars).countP (·.stop ≤ min offset source.size) ≤
        narrowMax := List.countP_le_length.trans ((length_terminators_le source).trans small)
    have column_le : min (min offset source.size) span.stop ≤ narrowMax :=
      (Nat.min_le_left _ _).trans ((Nat.min_le_right _ _).trans small)
    simp only [position, size_ofSource small, place_eq, lineAt_ofSource small, Nat.min_assoc,
      Nat.min_self, found, wrap_of_le line_le]
    rw [← Nat.min_assoc, subWrap_of_le (Nat.le_min.mpr ⟨start_le, in_order⟩) column_le]
  refine ⟨span, ?_, position_eq, in_order, start_le, falls.imp_right ?_⟩
  · rw [position_eq]
    exact found
  · rintro ⟨terminator, listed, inside⟩
    exact ⟨terminator, mem_terminators_iff.mp listed, inside⟩

end Small

/-- A source whose lines end in three ways. -/
def mixedSource : Source := .ofString "é\r\nbc\n\rd"

theorem offset?_eq {lines : Lines} {position : Position} {span : Span}
    (found : lines.line? position.line = some span)
    (fits : span.start + position.column ≤ narrowMax) :
    lines.offset? position = .ok (if span.start + position.column ≤ span.stop then
      some (span.start + position.column) else none) := by
  rw [offset?, found]
  simp only [addNarrow, if_pos fits]
  rfl

theorem exists_of_offset?_eq_some {lines : Lines} {position : Position} {offset : Nat}
    (found : lines.offset? position = .ok (some offset)) :
    ∃ span, lines.line? position.line = some span ∧ offset = span.start + position.column ∧
      offset ≤ span.stop := by
  cases line_eq : lines.line? position.line with
  | none =>
      rw [offset?, line_eq] at found
      cases found
  | some span =>
      by_cases fits : span.start + position.column ≤ narrowMax
      · rw [offset?_eq line_eq fits] at found
        split_ifs at found with le_stop
        · cases found
          exact ⟨span, rfl, rfl, le_stop⟩
        · cases found
      · rw [offset?, line_eq] at found
        simp only [addNarrow, if_neg fits] at found
        cases found

section Small

variable {source : Source} (small : source.size ≤ narrowMax)

include small

/-- The offset of a position of an offset: the offset itself, or the end of the line in front of
it. -/
theorem offset?_position {offset : Nat} (le_size : offset ≤ source.size) :
    (¬source.SplitsPair offset →
      (ofSource source).offset? ((ofSource source).position offset) = .ok (some offset)) ∧
    (source.SplitsPair offset →
      (ofSource source).offset? ((ofSource source).position offset) = .ok (some (offset - 1))) := by
  obtain ⟨span, found, position_eq, in_order, start_le, falls⟩ := exists_line_position small offset
  obtain ⟨text, sliced, -⟩ := exists_plain_text small found
  have stop_le := Source.stop_le_size sliced
  rw [Nat.min_eq_left le_size] at position_eq start_le falls
  have column_eq : span.start + ((ofSource source).position offset).column =
      min offset span.stop := by
    rw [position_eq]
    simp only
    omega
  have back := offset?_eq found (by rw [column_eq]; omega)
  rw [column_eq, if_pos (Nat.min_le_right _ _)] at back
  rw [back]
  constructor
  · intro whole
    rcases falls with le_stop | inside
    · rw [Nat.min_eq_left le_stop]
    · obtain ⟨terminator, is_terminator, -, inside⟩ := inside
      exact absurd (IsTerminator.inside_iff.mp ⟨terminator, is_terminator, inside⟩) whole
  · intro splits
    rcases falls with le_stop | ⟨terminator, is_terminator, start_eq, start_lt, lt_stop⟩
    · -- The pair would reach into the line.
      obtain ⟨pair, is_terminator, start_lt, lt_stop⟩ := IsTerminator.inside_iff.mpr splits
      have apart := apart_of_line small found is_terminator
      omega
    · have := is_terminator.stop_le
      have offset_eq : min offset span.stop = offset - 1 := by omega
      rw [offset_eq]

/-- The position of the offset of a position is that position. -/
theorem position_of_offset?_eq_some {position : Position} {offset : Nat}
    (found : (ofSource source).offset? position = .ok (some offset)) :
    (ofSource source).position offset = position := by
  obtain ⟨span, line_eq, offset_eq, le_stop⟩ := exists_of_offset?_eq_some found
  obtain ⟨text, sliced, -⟩ := exists_plain_text small line_eq
  have le_size := Nat.le_trans le_stop (Source.stop_le_size sliced)
  obtain ⟨span', line_eq', position_eq, -⟩ := exists_line_position small offset
  rw [Nat.min_eq_left le_size] at position_eq
  have counted : (terminators 0 source.chars).countP (·.stop ≤ offset) = position.line := by
    rw [line?_ofSource small] at line_eq
    exact countP_of_between (spaced_source source) line_eq (by omega) le_stop
  rw [position_eq, counted, line_eq, Option.some.injEq] at line_eq'
  subst line_eq'
  rw [position_eq, counted, Nat.min_eq_left le_stop, offset_eq, Nat.add_sub_cancel_left]

/-- A later offset has no earlier position. -/
theorem position_mono {left right : Nat} (le : left ≤ right) :
    ((ofSource source).position left).line < ((ofSource source).position right).line ∨
      ((ofSource source).position left).line = ((ofSource source).position right).line ∧
        ((ofSource source).position left).column ≤ ((ofSource source).position right).column := by
  obtain ⟨span, found, position_eq, -⟩ := exists_line_position small left
  obtain ⟨span', found', position_eq', -⟩ := exists_line_position small right
  have le_line : (terminators 0 source.chars).countP (·.stop ≤ min left source.size) ≤
      (terminators 0 source.chars).countP (·.stop ≤ min right source.size) := by
    refine List.countP_mono_left fun terminator _ => ?_
    simp only [decide_eq_true_eq]
    omega
  rcases Nat.lt_or_eq_of_le le_line with lt_line | same_line
  · rw [position_eq, position_eq']
    exact .inl lt_line
  · rw [position_eq, same_line] at found
    rw [position_eq', found, Option.some.injEq] at found'
    subst found'
    rw [position_eq, position_eq']
    refine .inr ⟨same_line, ?_⟩
    simp only
    omega

end Small

/-- **Offsets and positions are inverse to each other.** The position of an offset gives the offset
back, except that between a carriage return and its line feed it gives the end of the line; a
position has an offset if its line exists and is long enough, and is the position of that; and later
offsets have later positions. -/
theorem offset?_position_and_back (source : Source) (small : source.size ≤ narrowMax) :
    (∀ offset ≤ source.size,
      (¬source.SplitsPair offset →
        (ofSource source).offset? ((ofSource source).position offset) = .ok (some offset)) ∧
      (source.SplitsPair offset →
        (ofSource source).offset? ((ofSource source).position offset) =
          .ok (some (offset - 1)))) ∧
    (∀ position : Position,
      (∀ span, (ofSource source).line? position.line = some span →
        span.start + position.column ≤ narrowMax) →
      ∃ found, (ofSource source).offset? position = .ok found ∧
        (∀ offset, found = some offset → (ofSource source).position offset = position) ∧
        ((∃ offset, found = some offset) ↔
          ∃ span, (ofSource source).line? position.line = some span ∧
            span.start + position.column ≤ span.stop)) ∧
    ∀ left right, left ≤ right →
      ((ofSource source).position left).line < ((ofSource source).position right).line ∨
        ((ofSource source).position left).line = ((ofSource source).position right).line ∧
          ((ofSource source).position left).column ≤ ((ofSource source).position right).column := by
  refine ⟨fun offset le_size => offset?_position small le_size, fun position fits => ?_,
    fun left right le => position_mono small le⟩
  cases line_eq : (ofSource source).line? position.line with
  | none =>
      refine ⟨none, by rw [offset?, line_eq], nofun, ?_⟩
      simp
  | some span =>
      have found := offset?_eq line_eq (fits span line_eq)
      refine ⟨_, found, fun offset is_offset => ?_, ?_⟩
      · exact position_of_offset?_eq_some small (is_offset ▸ found)
      · split_ifs with le_stop
        · simpa using le_stop
        · simpa using le_stop

theorem offset?_position_mixedSource :
    mixedSource.size ≤ narrowMax ∧ mixedSource.SplitsPair 3 ∧
      (ofSource mixedSource).offset? ((ofSource mixedSource).position 3) = .ok (some 2) := by
  have small : mixedSource.size ≤ narrowMax := by decide
  have splits : mixedSource.SplitsPair 3 := ⟨['é'], ['b', 'c', '\n', '\r', 'd'], rfl, rfl⟩
  have inside : 3 ≤ mixedSource.size := by decide
  exact ⟨small, splits, ((offset?_position_and_back mixedSource small).1 3 inside).2 splits⟩

end Lines

end JavaOutline
