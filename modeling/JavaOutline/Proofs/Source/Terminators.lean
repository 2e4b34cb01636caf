import JavaOutline.Proofs.Source.Slice
import JavaOutline.Source.Lines

/-!
# Line terminators

What a line terminator of a text is, said by the characters around it, and the list of them in the
order of the text. They are apart from each other, and every line feed and every carriage return
belongs to one of them.
-/

namespace JavaOutline

/-- Whether some characters end a line where they stand behind `left` and in front of `right`: a
carriage return with the line feed after it, or one of the two without the other. -/
inductive EndsLine (left right : List Char) : List Char → Prop
  | pair : EndsLine left right ['\r', '\n']
  | feed (alone : left.getLast? ≠ some '\r') : EndsLine left right ['\n']
  | carriage (alone : right.head? ≠ some '\n') : EndsLine left right ['\r']

/-- Whether a span of a text is that of a line terminator. -/
def IsTerminator (text : List Char) (span : Span) : Prop :=
  ∃ left ending right, text = left ++ (ending ++ right) ∧ EndsLine left right ending ∧
    span = ⟨byteLength left, byteLength left + byteLength ending⟩

/-- The line terminators of a text that begins at byte `offset`, in order. -/
def terminators (offset : Nat) : List Char → List Span
  | [] => []
  | '\r' :: '\n' :: cs => ⟨offset, offset + 2⟩ :: terminators (offset + 2) cs
  | c :: cs =>
    if c = '\n' ∨ c = '\r' then ⟨offset, offset + 1⟩ :: terminators (offset + 1) cs
    else terminators (offset + c.utf8Size) cs

/-! ## What is listed -/

/-- A terminator that does not start in front of a character starts with it or after it. -/
theorem IsTerminator.start_cases {left cs : List Char} {c : Char} {span : Span}
    (terminator : IsTerminator (left ++ c :: cs) span) (le_start : byteLength left ≤ span.start) :
    (∃ ending right, c :: cs = ending ++ right ∧ EndsLine left right ending ∧
      span = ⟨byteLength left, byteLength left + byteLength ending⟩) ∨
    byteLength (left ++ [c]) ≤ span.start := by
  obtain ⟨front, ending, right, text_eq, ends, rfl⟩ := terminator
  obtain ⟨middle, rfl, rest_eq⟩ := Source.exists_append_of_byteLength_le text_eq le_start
  cases middle with
  | nil =>
      rw [List.append_nil] at ends ⊢
      exact .inl ⟨ending, right, rest_eq, ends, rfl⟩
  | cons d middle =>
      obtain ⟨rfl, -⟩ := List.cons.inj rest_eq
      refine .inr ?_
      simp only [byteLength_append, byteLength]
      omega

/-- A whole text has the listed terminators where the list begins, unless it begins between the two
characters of one. -/
theorem mem_terminators_iff_of_append {offset : Nat} {left cs : List Char} {span : Span}
    (offset_eq : offset = byteLength left)
    (apart : left.getLast? = some '\r' → cs.head? ≠ some '\n') :
    span ∈ terminators offset cs ↔ IsTerminator (left ++ cs) span ∧ offset ≤ span.start := by
  fun_induction terminators offset cs generalizing left with
  | case1 offset =>
      refine ⟨by simp, ?_⟩
      rintro ⟨⟨front, ending, right, text_eq, ends, rfl⟩, le_start⟩
      have length_eq := congrArg byteLength text_eq
      have long : 0 < byteLength ending := by cases ends <;> decide
      simp only [byteLength_append, byteLength] at length_eq le_start
      omega
  | case2 offset cs induction =>
      subst offset_eq
      have later := @induction (left ++ ['\r', '\n'])
        (byteLength_append left ['\r', '\n']).symm (by simp)
      rw [List.append_assoc, List.cons_append, List.singleton_append] at later
      rw [List.mem_cons, later]
      constructor
      · rintro (rfl | ⟨terminator, le_start⟩)
        · exact ⟨⟨left, _, cs, rfl, .pair, rfl⟩, Nat.le_refl _⟩
        · exact ⟨terminator, Nat.le_of_add_right_le le_start⟩
      · rintro ⟨terminator, le_start⟩
        rcases terminator.start_cases le_start with ⟨ending, right, rest_eq, ends, rfl⟩ | behind
        · cases ends with
          | pair => exact .inl rfl
          | feed => cases rest_eq
          | carriage alone =>
              cases rest_eq
              exact absurd rfl alone
        · -- No terminator starts with the second character.
          have terminator' : IsTerminator ((left ++ ['\r']) ++ '\n' :: cs) span := by
            rwa [List.append_assoc]
          rcases terminator'.start_cases behind with ⟨ending, right, rest_eq, ends, -⟩ | behind
          · cases ends with
            | pair | carriage => cases rest_eq
            | feed alone => exact absurd List.getLast?_concat alone
          · rw [List.append_assoc, byteLength_append] at behind
            exact .inr ⟨terminator, behind⟩
  | case3 offset c cs unpaired mark induction =>
      subst offset_eq
      have size_eq : c.utf8Size = 1 := by rcases mark with rfl | rfl <;> rfl
      have later := @induction (left ++ [c])
        (by rw [byteLength_append, byteLength, byteLength, size_eq]) (by
          intro is_carriage
          rw [List.getLast?_concat, Option.some.injEq] at is_carriage
          cases cs with
          | nil => simp
          | cons d cs =>
              rintro ⟨⟩
              exact unpaired cs is_carriage rfl)
      rw [List.append_assoc, List.singleton_append] at later
      rw [List.mem_cons, later]
      constructor
      · rintro (rfl | ⟨terminator, le_start⟩)
        · refine ⟨?_, Nat.le_refl _⟩
          rcases mark with rfl | rfl
          · exact ⟨left, _, cs, rfl, .feed fun is_carriage => apart is_carriage rfl, rfl⟩
          · refine ⟨left, _, cs, rfl, .carriage ?_, rfl⟩
            cases cs with
            | nil => simp
            | cons d cs =>
                rintro ⟨⟩
                exact unpaired cs rfl rfl
        · exact ⟨terminator, Nat.le_of_add_right_le le_start⟩
      · rintro ⟨terminator, le_start⟩
        rcases terminator.start_cases le_start with ⟨ending, right, rest_eq, ends, rfl⟩ | behind
        · cases ends with
          | pair =>
              obtain ⟨is_carriage, rest_eq⟩ := List.cons.inj rest_eq
              exact (unpaired right is_carriage rest_eq).elim
          | feed | carriage => exact .inl rfl
        · refine .inr ⟨terminator, ?_⟩
          simpa [byteLength, size_eq] using behind
  | case4 offset c cs unpaired plain induction =>
      subst offset_eq
      have later := @induction (left ++ [c])
        (by rw [byteLength_append, byteLength, byteLength, Nat.add_zero]) (by
          intro is_carriage
          rw [List.getLast?_concat, Option.some.injEq] at is_carriage
          exact absurd (.inr is_carriage) plain)
      rw [List.append_assoc, List.singleton_append] at later
      rw [later]
      constructor
      · rintro ⟨terminator, le_start⟩
        exact ⟨terminator, Nat.le_of_add_right_le le_start⟩
      · rintro ⟨terminator, le_start⟩
        rcases terminator.start_cases le_start with ⟨ending, right, rest_eq, ends, rfl⟩ | behind
        · refine absurd ?_ plain
          cases ends with
          | pair | carriage => exact .inr (List.cons.inj rest_eq).1
          | feed => exact .inl (List.cons.inj rest_eq).1
        · refine ⟨terminator, ?_⟩
          simpa [byteLength] using behind

/-- The list holds all terminators of the text and nothing else. -/
theorem mem_terminators_iff {cs : List Char} {span : Span} :
    span ∈ terminators 0 cs ↔ IsTerminator cs span := by
  have listed : span ∈ terminators 0 cs ↔ IsTerminator ([] ++ cs) span ∧ 0 ≤ span.start :=
    mem_terminators_iff_of_append rfl (by simp)
  rwa [List.nil_append, and_iff_left (Nat.zero_le _)] at listed

/-! ## Where they stand -/

/-- Whether some spans that are not empty stand one behind the other between two offsets. -/
def Spaced (first last : Nat) : List Span → Prop
  | [] => first ≤ last
  | span :: spans => first ≤ span.start ∧ span.start < span.stop ∧ Spaced span.stop last spans

namespace Spaced

variable {first first' last : Nat} {spans : List Span} {span : Span}

theorem mono (spaced : Spaced first' last spans) (le : first ≤ first') :
    Spaced first last spans := by
  cases spans with
  | nil => exact Nat.le_trans le spaced
  | cons span spans => exact ⟨Nat.le_trans le spaced.1, spaced.2⟩

theorem le (spaced : Spaced first last spans) : first ≤ last := by
  induction spans generalizing first with
  | nil => exact spaced
  | cons span spans induction =>
      obtain ⟨first_le, start_lt, later⟩ := spaced
      have := induction later
      omega

theorem bounds (spaced : Spaced first last spans) (member : span ∈ spans) :
    first ≤ span.start ∧ span.start < span.stop ∧ span.stop ≤ last := by
  induction spans generalizing first with
  | nil => cases member
  | cons head spans induction =>
      obtain ⟨first_le, start_lt, later⟩ := spaced
      rcases List.mem_cons.mp member with rfl | member
      · exact ⟨first_le, start_lt, later.le⟩
      · obtain ⟨stop_le, start_lt', le_last⟩ := induction later member
        exact ⟨by omega, start_lt', le_last⟩

theorem length_le (spaced : Spaced first last spans) : first + spans.length ≤ last := by
  induction spans generalizing first with
  | nil => exact spaced
  | cons head spans induction =>
      obtain ⟨first_le, start_lt, later⟩ := spaced
      have := induction later
      rw [List.length_cons]
      omega

theorem pairwise (spaced : Spaced first last spans) :
    spans.Pairwise fun left right => left.stop ≤ right.start := by
  induction spans generalizing first with
  | nil => exact .nil
  | cons head spans induction =>
      obtain ⟨-, -, later⟩ := spaced
      exact .cons (fun span member => (later.bounds member).1) (induction later)

end Spaced

theorem spaced_terminators (offset : Nat) (cs : List Char) :
    Spaced offset (offset + byteLength cs) (terminators offset cs) := by
  fun_induction terminators offset cs with
  | case1 offset => exact Nat.le_refl _
  | case2 offset cs induction =>
      have length_eq : offset + byteLength ('\r' :: '\n' :: cs) = offset + 2 + byteLength cs := by
        have size_eq : byteLength ('\r' :: '\n' :: cs) = 1 + (1 + byteLength cs) := rfl
        omega
      rw [length_eq]
      exact ⟨Nat.le_refl _, Nat.lt_add_of_pos_right (by decide), induction⟩
  | case3 offset c cs unpaired mark induction =>
      have size_eq : c.utf8Size = 1 := by rcases mark with rfl | rfl <;> rfl
      rw [byteLength, size_eq, ← Nat.add_assoc]
      exact ⟨Nat.le_refl _, Nat.lt_succ_self _, induction⟩
  | case4 offset c cs unpaired plain induction =>
      rw [byteLength, ← Nat.add_assoc]
      exact induction.mono (Nat.le_add_right _ _)

/-- Every line feed and every carriage return of a text belongs to a terminator. -/
theorem exists_isTerminator_of_mark (left right : List Char) {c : Char}
    (mark : c = '\n' ∨ c = '\r') :
    ∃ span, IsTerminator (left ++ c :: right) span ∧ span.start ≤ byteLength left ∧
      byteLength left < span.stop := by
  rcases mark with rfl | rfl
  · by_cases paired : left.getLast? = some '\r'
    · obtain ⟨front, rfl⟩ := List.getLast?_eq_some_iff.mp paired
      have length_eq : byteLength (front ++ ['\r']) = byteLength front + 1 := byteLength_append _ _
      refine ⟨_, ⟨front, _, right, List.append_assoc .., .pair, rfl⟩, ?_, ?_⟩
      · exact Nat.le.intro length_eq.symm
      · exact Nat.lt_of_le_of_lt (Nat.le_of_eq length_eq) (Nat.lt_succ_self _)
    · exact ⟨_, ⟨left, _, right, rfl, .feed paired, rfl⟩, Nat.le_refl _,
        Nat.lt_add_of_pos_right (by decide)⟩
  · by_cases paired : right.head? = some '\n'
    · obtain ⟨back, rfl⟩ := List.head?_eq_some_iff.mp paired
      exact ⟨_, ⟨left, _, back, rfl, .pair, rfl⟩, Nat.le_refl _,
        Nat.lt_add_of_pos_right (by decide)⟩
    · exact ⟨_, ⟨left, _, right, rfl, .carriage paired, rfl⟩, Nat.le_refl _,
        Nat.lt_add_of_pos_right (by decide)⟩

namespace IsTerminator

variable {source : Source} {span : Span}

theorem isBoundary (terminator : IsTerminator source.chars span) :
    source.IsBoundary span.start ∧ source.IsBoundary span.stop := by
  obtain ⟨left, ending, right, chars_eq, -, rfl⟩ := terminator
  refine ⟨⟨left, _, chars_eq, rfl⟩, ⟨left ++ ending, right, ?_, byteLength_append _ _⟩⟩
  rw [chars_eq, List.append_assoc]

theorem stop_le {text : List Char} (terminator : IsTerminator text span) :
    span.stop ≤ span.start + 2 := by
  obtain ⟨left, ending, right, -, ends, rfl⟩ := terminator
  refine Nat.add_le_add_left ?_ _
  cases ends <;> decide

/-- Only between the two characters of a pair does an offset lie inside a terminator. -/
theorem inside_iff {text : List Char} {offset : Nat} :
    (∃ span, IsTerminator text span ∧ span.start < offset ∧ offset < span.stop) ↔
      ∃ left right, text = left ++ '\r' :: '\n' :: right ∧ offset = byteLength left + 1 := by
  constructor
  · rintro ⟨span, ⟨left, ending, right, rfl, ends, rfl⟩, start_lt, lt_stop⟩
    cases ends with
    | pair =>
        have size_eq : byteLength ['\r', '\n'] = 2 := rfl
        exact ⟨left, right, rfl, by simp only at start_lt lt_stop; omega⟩
    | feed =>
        have size_eq : byteLength ['\n'] = 1 := rfl
        simp only at start_lt lt_stop
        omega
    | carriage =>
        have size_eq : byteLength ['\r'] = 1 := rfl
        simp only at start_lt lt_stop
        omega
  · rintro ⟨left, right, rfl, rfl⟩
    exact ⟨_, ⟨left, _, right, rfl, .pair, rfl⟩, Nat.lt_succ_self _, Nat.lt_succ_self _⟩

end IsTerminator

end JavaOutline
