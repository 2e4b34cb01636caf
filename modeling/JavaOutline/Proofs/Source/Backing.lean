import JavaOutline.Proofs.Source.Slice

/-!
# Characters that a source backs

A rendering has a layout of its own, and closes what a malformed source leaves open. The rest of it
is its substance. A source backs some characters between two offsets if they stand in their order in
the substance there, possibly with others in between. What two stretches of the source back, one
behind the other, the stretch over both of them backs.
-/

namespace JavaOutline

/-- Whether a character is punctuation that a rendering may supply: a parenthesis, or a bracket or
a colon that the source lacks. -/
def isSupplied (c : Char) : Bool := ['(', ')', ']', ':'].contains c

/-- The characters of a text but for white space and the punctuation that a rendering may supply. -/
def substance (text : String) : List Char :=
  text.toList.filter fun c => !(isWhiteSpace c || isSupplied c)

@[simp]
theorem substance_append (left right : String) :
    substance (left ++ right) = substance left ++ substance right := by
  rw [substance, String.toList_append, List.filter_append]
  rfl

namespace Source

variable {source : Source} {inner outer left right : Span} {part whole part' : String}

/-- A span inside another one has a part of its text. -/
theorem sublist_of_slice? (found : source.slice? inner = some part)
    (found' : source.slice? outer = some whole) (start_le : outer.start ≤ inner.start)
    (stop_le : inner.stop ≤ outer.stop) : part.toList.Sublist whole.toList := by
  obtain ⟨front, back, whole_eq, -⟩ := exists_append_of_inside found found' start_le stop_le
  rw [whole_eq]
  exact (List.sublist_append_left _ _).trans (List.sublist_append_right _ _)

/-- The texts of two spans one behind the other are parts of the text from the first to the
second. -/
theorem exists_slice?_of_append (found : source.slice? left = some part)
    (found' : source.slice? right = some part') (le : left.stop ≤ right.start) :
    ∃ whole, source.slice? ⟨left.start, right.stop⟩ = some whole ∧
      (part.toList ++ part'.toList).Sublist whole.toList := by
  obtain ⟨before, after, chars_eq, start_eq, stop_eq⟩ := exists_append_of_slice? found
  obtain ⟨before', after', chars_eq', start_eq', stop_eq'⟩ := exists_append_of_slice? found'
  rw [← List.append_assoc] at chars_eq
  obtain ⟨gap, rfl, -⟩ := exists_append_of_byteLength_le (chars_eq.symm.trans chars_eq') (by
    rw [byteLength_append]
    omega)
  have pieces : source.chars = before ++ ((part.toList ++ gap ++ part'.toList) ++ after') := by
    rw [chars_eq']
    simp only [List.append_assoc]
  have sliced := slice?_of_append pieces
  simp only [byteLength_append] at sliced start_eq' stop_eq'
  refine ⟨.ofList (part.toList ++ gap ++ part'.toList), ?_, ?_⟩
  · rw [← sliced, start_eq, stop_eq']
    simp only [Nat.add_assoc]
  · rw [String.toList_ofList]
    exact (List.sublist_append_left _ _).append_right _

/-- Whether the source has some characters between two offsets, in their order. -/
def Backs (source : Source) (start stop : Nat) (cs : List Char) : Prop :=
  cs = [] ∨ ∃ span part, source.slice? span = some part ∧ start ≤ span.start ∧ span.stop ≤ stop ∧
    cs.Sublist (substance part)

namespace Backs

variable {start start' stop stop' : Nat} {cs ds : List Char}

theorem append (first : source.Backs start stop cs) (second : source.Backs start' stop' ds)
    (start_le : start ≤ start') (le_start : stop ≤ start') (stop_le : stop ≤ stop') :
    source.Backs start stop' (cs ++ ds) := by
  rcases first with rfl | ⟨span, part, found, le, le', within⟩
  · rcases second with rfl | ⟨span, part, found, le, le', within⟩
    · exact .inl rfl
    · exact .inr ⟨span, part, found, Nat.le_trans start_le le, le', within⟩
  · rcases second with rfl | ⟨span', part', found', after_le, le_after, within'⟩
    · rw [List.append_nil]
      exact .inr ⟨span, part, found, le, Nat.le_trans le' stop_le, within⟩
    · obtain ⟨whole, sliced, parts⟩ := exists_slice?_of_append found found'
        (Nat.le_trans le' (Nat.le_trans le_start after_le))
      refine .inr ⟨_, whole, sliced, le, le_after, (within.append within').trans ?_⟩
      rw [substance, substance, ← List.filter_append]
      exact parts.filter _

/-- What the source backs over a span is part of the text of the span. -/
theorem sublist {span : Span} (backs : source.Backs span.start span.stop cs)
    (found : source.slice? span = some whole) : cs.Sublist (substance whole) := by
  rcases backs with rfl | ⟨inner, part, sliced, start_le, le_stop, within⟩
  · exact List.nil_sublist _
  · exact within.trans ((sublist_of_slice? sliced found start_le le_stop).filter _)

end Backs

end Source

end JavaOutline
