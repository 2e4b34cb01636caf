import JavaOutline.Proofs.Json.Spelling
import Mathlib.Data.List.Forall2

/-!
# The written forms of JSON values

The compact and the pretty form differ in the white space around the items of their lists only, so
both spell the value that they are the form of, if its strings are texts.
-/

namespace JavaOutline.Json

mutual

/-- Whether a value holds texts and natural numbers only. -/
def IsPlain : Json → Prop
  | .numeral _ => False
  | .string codePoints => IsText codePoints
  | .array items => AllPlain items
  | .object members => MembersPlain members
  | .null | .bool _ | .natural _ => True

/-- Whether all values are plain. -/
def AllPlain : List Json → Prop
  | [] => True
  | item :: items => IsPlain item ∧ AllPlain items

/-- Whether all keys are texts and all values plain. -/
def MembersPlain : List (List Nat × Json) → Prop
  | [] => True
  | (key, value) :: members => (IsText key ∧ IsPlain value) ∧ MembersPlain members

end

/-- Some lines with a comma and some blanks between them. -/
def commaJoined (blanks : List Char) : List String → List Char
  | [] => []
  | [line] => line.toList
  | line :: next :: lines => line.toList ++ ',' :: (blanks ++ commaJoined blanks (next :: lines))

theorem toList_pushn (text : String) (c : Char) (n : Nat) :
    (text.pushn c n).toList = text.toList ++ List.replicate n c := by
  rw [String.pushn_eq_repeat_push]
  induction n with
  | zero => simp [Nat.repeat]
  | succ n induction => simp [Nat.repeat, induction, List.replicate_succ']

theorem isBlankText_newLine (level : Nat) : IsBlankText (newLine level).toList := by
  intro c member
  have written : c = '\n' ∨ c = ' ' := by
    simp only [newLine, String.toList_append, toList_pushn, List.mem_append,
      List.mem_replicate] at member
    rcases member with line | space | ⟨-, rfl⟩
    · exact .inl (by simpa using line)
    · exact absurd space (by simp)
    · exact .inr rfl
  rcases written with rfl | rfl <;> decide

theorem toList_intercalate_map (start : String) {lines : List String} (some_line : lines ≠ []) :
    (",".intercalate (lines.map (start ++ ·))).toList =
      start.toList ++ commaJoined start.toList lines := by
  induction lines with
  | nil => exact absurd rfl some_line
  | cons line lines induction =>
      cases lines with
      | nil => simp [commaJoined]
      | cons next lines =>
          have joined := induction (List.cons_ne_nil _ _)
          rw [List.map_cons] at joined
          rw [List.map_cons, List.map_cons, String.intercalate_cons_cons, String.toList_append,
            String.toList_append, String.toList_append, joined, commaJoined]
          simp

/-! ## Lists -/

/-- Whether a text is a list of some lines between two marks, with any white space around them. -/
def IsList (opening closing : Char) (lines : List String) (cs : List Char) : Prop :=
  ∃ left blanks right, IsBlankText left ∧ IsBlankText blanks ∧ IsBlankText right ∧
    cs = opening :: (left ++ (commaJoined blanks lines ++ (right ++ [closing])))

theorem isList_compact (opening closing : Char) (lines : List String) :
    IsList opening closing lines
      (opening.toString ++ ",".intercalate lines ++ closing.toString).toList := by
  refine ⟨[], [], [], isBlankText_nil, isBlankText_nil, isBlankText_nil, ?_⟩
  have joined : (",".intercalate lines).toList = commaJoined [] lines := by
    cases lines with
    | nil => rfl
    | cons line lines => simpa using toList_intercalate_map "" (List.cons_ne_nil line lines)
  simp [joined]

theorem isList_bracketed (level : Nat) (opening closing : Char) (lines : List String) :
    IsList opening closing lines
      (bracketed level opening.toString closing.toString lines).toList := by
  cases lines with
  | nil =>
      exact ⟨[], [], [], isBlankText_nil, isBlankText_nil, isBlankText_nil, by
        simp [bracketed, commaJoined]⟩
  | cons line lines =>
      refine ⟨_, _, _, isBlankText_newLine (level + 1), isBlankText_newLine (level + 1),
        isBlankText_newLine level, ?_⟩
      rw [bracketed, if_neg (by simp)]
      simp only [String.toList_append, toList_intercalate_map _ (List.cons_ne_nil line lines)]
      simp

/-- Whether some lines spell some values one by one. -/
def SpellLines (lines : List String) (items : List Json) : Prop :=
  List.Forall₂ (fun line item => Spells line.toList item) lines items

/-- Whether some lines spell some members one by one. -/
def SpellMembers (lines : List String) (members : List (List Nat × Json)) : Prop :=
  List.Forall₂ (fun line member => SpellsMember line.toList member) lines members

theorem SpellLines.spellsItems {blanks : List Char} (blank : IsBlankText blanks)
    {lines : List String} {items : List Json} (spell : SpellLines lines items)
    (some_item : items ≠ []) : SpellsItems (commaJoined blanks lines) items := by
  induction spell with
  | nil => exact absurd rfl some_item
  | cons first others induction =>
      cases others with
      | nil => exact .last first
      | cons => exact .cons first isBlankText_nil blank (induction (List.cons_ne_nil _ _))

theorem SpellMembers.spellsMembers {blanks : List Char} (blank : IsBlankText blanks)
    {lines : List String} {members : List (List Nat × Json)} (spell : SpellMembers lines members)
    (some_member : members ≠ []) : SpellsMembers (commaJoined blanks lines) members := by
  induction spell with
  | nil => exact absurd rfl some_member
  | cons first others induction =>
      cases others with
      | nil => exact .last first
      | cons => exact .cons first isBlankText_nil blank (induction (List.cons_ne_nil _ _))

theorem isBlankText_append {left right : List Char} (blank_left : IsBlankText left)
    (blank_right : IsBlankText right) : IsBlankText (left ++ right) := by
  intro c member
  exact (List.mem_append.mp member).elim (blank_left c) (blank_right c)

theorem IsList.spells_array {lines : List String} {cs : List Char}
    (isList : IsList '[' ']' lines cs) {items : List Json} (spell : SpellLines lines items) :
    Spells cs (.array items) := by
  obtain ⟨left, blanks, right, blank_left, blank, blank_right, rfl⟩ := isList
  cases spell with
  | nil => simpa [commaJoined] using Spells.emptyArray (isBlankText_append blank_left blank_right)
  | cons first others =>
      exact .array blank_left blank_right
        (SpellLines.spellsItems blank (.cons first others) (List.cons_ne_nil _ _))

theorem IsList.spells_object {lines : List String} {cs : List Char}
    (isList : IsList '\x7b' '\x7d' lines cs) {members : List (List Nat × Json)}
    (spell : SpellMembers lines members) : Spells cs (.object members) := by
  obtain ⟨left, blanks, right, blank_left, blank, blank_right, rfl⟩ := isList
  cases spell with
  | nil => simpa [commaJoined] using Spells.emptyObject (isBlankText_append blank_left blank_right)
  | cons first others =>
      exact .object blank_left blank_right
        (SpellMembers.spellsMembers blank (.cons first others) (List.cons_ne_nil _ _))

/-! ## The compact form -/

mutual

/-- **The compact form spells.** The compact form of a plain value is one of its spellings. -/
theorem IsPlain.spells_compact {value : Json} (plain : value.IsPlain) :
    Spells value.compact.toList value := by
  cases value with
  | null => simpa [compact] using Spells.null
  | bool value =>
      cases value
      · simpa [compact] using Spells.no
      · simpa [compact] using Spells.yes
  | natural n =>
      rw [compact, Nat.toList_repr]
      exact .natural n
  | numeral digits => exact plain.elim
  | string codePoints => exact .string (IsText.spellsString plain)
  | array items => exact (isList_compact '[' ']' _).spells_array (AllPlain.spellLines plain)
  | object members =>
      exact (isList_compact '\x7b' '\x7d' _).spells_object (MembersPlain.spellMembers plain)

theorem AllPlain.spellLines {items : List Json} (plain : AllPlain items) :
    SpellLines (compactItems items) items := by
  cases items with
  | nil => exact .nil
  | cons item items => exact .cons plain.1.spells_compact (AllPlain.spellLines plain.2)

theorem MembersPlain.spellMembers {members : List (List Nat × Json)}
    (plain : MembersPlain members) : SpellMembers (compactMembers members) members := by
  match members with
  | [] => exact .nil
  | (key, value) :: members =>
      have spells := SpellsMember.mk (IsText.spellsString plain.1.1) isBlankText_nil isBlankText_nil
        plain.1.2.spells_compact
      exact .cons (by simpa using spells) (MembersPlain.spellMembers plain.2)

end

/-! ## The pretty form -/

mutual

/-- The pretty form of a plain value spells it. -/
theorem IsPlain.spells_pretty {value : Json} (plain : value.IsPlain) (level : Nat) :
    Spells (pretty level value).toList value := by
  cases value with
  | array items =>
      exact (isList_bracketed level '[' ']' _).spells_array
        (AllPlain.spellLines_pretty plain (level + 1))
  | object members =>
      exact (isList_bracketed level '\x7b' '\x7d' _).spells_object
        (MembersPlain.spellMembers_pretty plain (level + 1))
  | _ => simpa only [pretty, compact] using plain.spells_compact

theorem AllPlain.spellLines_pretty {items : List Json} (plain : AllPlain items) (level : Nat) :
    SpellLines (prettyItems level items) items := by
  cases items with
  | nil => exact .nil
  | cons item items =>
      exact .cons (plain.1.spells_pretty level) (AllPlain.spellLines_pretty plain.2 level)

theorem MembersPlain.spellMembers_pretty {members : List (List Nat × Json)}
    (plain : MembersPlain members) (level : Nat) :
    SpellMembers (prettyMembers level members) members := by
  match members with
  | [] => exact .nil
  | (key, value) :: members =>
      have blank : IsBlankText [' '] := by
        simp [IsBlankText, isBlank]
      have spells := SpellsMember.mk (IsText.spellsString plain.1.1) isBlankText_nil blank
        (plain.1.2.spells_pretty level)
      exact .cons (by simpa using spells) (MembersPlain.spellMembers_pretty plain.2 level)

end

/-- Plain values that look the same in their pretty forms are the same. -/
theorem IsPlain.eq_of_pretty_eq {left right : Json} (plain_left : left.IsPlain)
    (plain_right : right.IsPlain) (same : pretty 0 left = pretty 0 right) : left = right := by
  have read {value : Json} (plain : value.IsPlain) :
      read? (pretty 0 value).toList = some value := by
    have read := (plain.spells_pretty 0).read?_eq isBlankText_nil isBlankText_nil
    rwa [List.nil_append, List.append_nil] at read
  have read_left := read plain_left
  rw [same, read plain_right] at read_left
  exact (Option.some.inj read_left).symm

end JavaOutline.Json
