import JavaOutline.Proofs.Json.Literals

/-!
# Spellings of JSON values

A value is spelled by every text that lists its parts with any white space between them, each string
and each number in any of its spellings. Reading a spelling gives the value and leaves what follows
it, so a text spells one value at most.
-/

namespace JavaOutline.Json

/-- Whether there is nothing but white space. -/
def IsBlankText (cs : List Char) : Prop :=
  ∀ c ∈ cs, isBlank c = true

mutual

/-- The texts that spell a value, without white space around them. -/
inductive Spells : List Char → Json → Prop
  | null : Spells ['n', 'u', 'l', 'l'] .null
  | yes : Spells ['t', 'r', 'u', 'e'] (.bool true)
  | no : Spells ['f', 'a', 'l', 's', 'e'] (.bool false)
  | natural (n : Nat) : Spells (Nat.toDigits 10 n) (.natural n)
  | numeral {sign whole fraction exponent : List Char} (isSign : sign ∈ [[], ['-']])
      (isWhole : IsWhole whole) (isFraction : IsFraction fraction)
      (isExponent : IsExponent exponent)
      (marked : ¬(sign = [] ∧ fraction = [] ∧ exponent = [])) :
      Spells (sign ++ whole ++ fraction ++ exponent)
        (.numeral (sign ++ whole ++ fraction ++ exponent))
  | string {cs : List Char} {codePoints : List Nat} (spells : SpellsString cs codePoints) :
      Spells cs (.string codePoints)
  | emptyArray {blanks : List Char} (blank : IsBlankText blanks) :
      Spells ('[' :: (blanks ++ [']'])) (.array [])
  | array {left right cs : List Char} {items : List Json} (blank_left : IsBlankText left)
      (blank_right : IsBlankText right) (spells : SpellsItems cs items) :
      Spells ('[' :: (left ++ (cs ++ (right ++ [']'])))) (.array items)
  | emptyObject {blanks : List Char} (blank : IsBlankText blanks) :
      Spells ('\x7b' :: (blanks ++ ['\x7d'])) (.object [])
  | object {left right cs : List Char} {members : List (List Nat × Json)}
      (blank_left : IsBlankText left) (blank_right : IsBlankText right)
      (spells : SpellsMembers cs members) :
      Spells ('\x7b' :: (left ++ (cs ++ (right ++ ['\x7d'])))) (.object members)

/-- The texts that spell the items of an array, one at least. -/
inductive SpellsItems : List Char → List Json → Prop
  | last {cs : List Char} {item : Json} (spells : Spells cs item) : SpellsItems cs [item]
  | cons {cs left right later : List Char} {item : Json} {items : List Json}
      (spells : Spells cs item) (blank_left : IsBlankText left) (blank_right : IsBlankText right)
      (others : SpellsItems later items) :
      SpellsItems (cs ++ (left ++ ',' :: (right ++ later))) (item :: items)

/-- The texts that spell a member of an object. -/
inductive SpellsMember : List Char → List Nat × Json → Prop
  | mk {left right keyText cs : List Char} {key : List Nat} {value : Json}
      (spells_key : SpellsString keyText key) (blank_left : IsBlankText left)
      (blank_right : IsBlankText right) (spells : Spells cs value) :
      SpellsMember (keyText ++ (left ++ ':' :: (right ++ cs))) (key, value)

/-- The texts that spell the members of an object, one at least. -/
inductive SpellsMembers : List Char → List (List Nat × Json) → Prop
  | last {cs : List Char} {member : List Nat × Json} (spells : SpellsMember cs member) :
      SpellsMembers cs [member]
  | cons {cs left right later : List Char} {member : List Nat × Json}
      {members : List (List Nat × Json)} (spells : SpellsMember cs member)
      (blank_left : IsBlankText left) (blank_right : IsBlankText right)
      (others : SpellsMembers later members) :
      SpellsMembers (cs ++ (left ++ ',' :: (right ++ later))) (member :: members)

end

/-! ## White space -/

theorem isBlankText_nil : IsBlankText [] := nofun

theorem dropWhile_isBlank_append {blanks cs : List Char} (blank : IsBlankText blanks) :
    (blanks ++ cs).dropWhile isBlank = cs.dropWhile isBlank :=
  List.dropWhile_append_of_pos blank

theorem dropWhile_isBlank_append_cons {blanks cs : List Char} {c : Char}
    (blank : IsBlankText blanks) (solid : isBlank c = false) :
    (blanks ++ c :: cs).dropWhile isBlank = c :: cs := by
  rw [dropWhile_isBlank_append blank, List.dropWhile_cons_of_neg (by simp [solid])]

/-! ## Where numbers begin and end -/

theorem endsNumber_of_isBlank {c : Char} {cs : List Char} (blank : isBlank c = true) :
    EndsNumber (c :: cs) := by
  simp only [isBlank, Bool.or_eq_true, decide_eq_true_eq] at blank
  rintro _ ⟨⟩
  rcases blank with ((rfl | rfl) | rfl) | rfl <;> decide

theorem endsNumber_append {blanks cs : List Char} (blank : IsBlankText blanks)
    (ends : EndsNumber cs) : EndsNumber (blanks ++ cs) := by
  cases blanks with
  | nil => exact ends
  | cons b blanks => exact endsNumber_of_isBlank (blank b (List.mem_cons_self ..))

theorem endsNumber_cons {c : Char} (mark : c ∈ [',', ']', '\x7d']) (cs : List Char) :
    EndsNumber (c :: cs) := by
  simp only [List.mem_cons, List.not_mem_nil, or_false] at mark
  rintro _ ⟨⟩
  rcases mark with rfl | rfl | rfl <;> decide

/-- Whether a number can begin with a character. -/
def BeginsNumber (c : Char) : Prop :=
  c.isDigit = true ∨ c = '-'

theorem BeginsNumber.ne {c d : Char} (begins : BeginsNumber c) (other : ¬BeginsNumber d) :
    c ≠ d := by
  rintro rfl
  exact other begins

theorem BeginsNumber.isBlank_eq_false {c : Char} (begins : BeginsNumber c) : isBlank c = false := by
  rw [Bool.eq_false_iff]
  intro blank
  simp only [isBlank, Bool.or_eq_true, decide_eq_true_eq] at blank
  rcases begins with digit | rfl
  · rcases blank with ((rfl | rfl) | rfl) | rfl <;> cases digit
  · exact absurd blank (by decide)

theorem exists_beginsNumber {sign whole : List Char} (isSign : sign ∈ [[], ['-']])
    (isWhole : IsWhole whole) (rest : List Char) :
    ∃ c others, sign ++ (whole ++ rest) = c :: others ∧ BeginsNumber c := by
  simp only [List.mem_cons, List.not_mem_nil, or_false] at isSign
  rcases isSign with rfl | rfl
  · obtain ⟨c, others, rfl⟩ := List.exists_cons_of_ne_nil isWhole.1.1
    exact ⟨c, _, rfl, .inl (isWhole.1.2 c (List.mem_cons_self ..))⟩
  · exact ⟨'-', _, rfl, .inr rfl⟩

/-! ## Values -/

/-- A spelling begins with a character that is not white space and closes nothing. -/
theorem Spells.exists_cons {cs : List Char} {value : Json} (spells : Spells cs value) :
    ∃ c rest, cs = c :: rest ∧ isBlank c = false ∧ c ≠ ']' := by
  have number {sign whole : List Char} (isSign : sign ∈ [[], ['-']]) (isWhole : IsWhole whole)
      (rest : List Char) :
      ∃ c others, sign ++ (whole ++ rest) = c :: others ∧ isBlank c = false ∧ c ≠ ']' := by
    obtain ⟨c, others, same, begins⟩ := exists_beginsNumber isSign isWhole rest
    exact ⟨c, others, same, begins.isBlank_eq_false, begins.ne (by unfold BeginsNumber; decide)⟩
  cases spells with
  | natural n =>
      have unsigned : ([] : List Char) ∈ [[], ['-']] := by decide
      simpa using number unsigned (isWhole_toDigits n) []
  | numeral isSign isWhole =>
      rw [List.append_assoc, List.append_assoc]
      exact number isSign isWhole _
  | string spells =>
      obtain ⟨rest, rfl, -⟩ := spells.exists_cons
      exact ⟨'"', rest, rfl, rfl, by decide⟩
  | _ => exact ⟨_, _, rfl, rfl, by decide⟩

theorem SpellsItems.exists_cons {cs : List Char} {items : List Json}
    (spells : SpellsItems cs items) :
    ∃ c rest, cs = c :: rest ∧ isBlank c = false ∧ c ≠ ']' := by
  cases spells with
  | last spells => exact spells.exists_cons
  | cons spells =>
      obtain ⟨c, rest, rfl, solid, opens⟩ := spells.exists_cons
      exact ⟨c, _, rfl, solid, opens⟩

theorem SpellsMember.exists_cons {cs : List Char} {member : List Nat × Json}
    (spells : SpellsMember cs member) : ∃ rest, cs = '"' :: rest := by
  cases spells with
  | mk spells_key =>
      obtain ⟨rest, rfl, -⟩ := spells_key.exists_cons
      exact ⟨_, rfl⟩

theorem SpellsMembers.exists_cons {cs : List Char} {members : List (List Nat × Json)}
    (spells : SpellsMembers cs members) : ∃ rest, cs = '"' :: rest := by
  cases spells with
  | last spells => exact spells.exists_cons
  | cons spells =>
      obtain ⟨rest, rfl⟩ := spells.exists_cons
      exact ⟨_, rfl⟩

theorem readValue?_blank {blanks : List Char} (blank : IsBlankText blanks) (n : Nat)
    (cs : List Char) : readValue? n (blanks ++ cs) = readValue? n cs := by
  cases n with
  | zero => rfl
  | succ n => rw [readValue?, readValue?, dropWhile_isBlank_append blank]

theorem readMembers?_blank {blanks : List Char} (blank : IsBlankText blanks) (n : Nat)
    (cs : List Char) : readMembers? n (blanks ++ cs) = readMembers? n cs := by
  cases n with
  | zero => rfl
  | succ n => rw [readMembers?, readMembers?, dropWhile_isBlank_append blank]

theorem readItems?_blank {blanks : List Char} (blank : IsBlankText blanks) (n : Nat)
    (cs : List Char) : readItems? n (blanks ++ cs) = readItems? n cs := by
  cases n with
  | zero => rfl
  | succ n => rw [readItems?, readItems?, readValue?_blank blank]

theorem readValue?_quote (n : Nat) (cs : List Char) :
    readValue? (n + 1) ('"' :: cs) =
      (readString? cs).map fun (codePoints, rest) => (.string codePoints, rest) := rfl

theorem readValue?_openBracket (n : Nat) (cs : List Char) :
    readValue? (n + 1) ('[' :: cs) =
      match cs.dropWhile isBlank with
      | ']' :: rest => some (.array [], rest)
      | rest => (readItems? n rest).map fun (items, rest) => (.array items, rest) := rfl

theorem readValue?_openBrace (n : Nat) (cs : List Char) :
    readValue? (n + 1) ('\x7b' :: cs) =
      match cs.dropWhile isBlank with
      | '\x7d' :: rest => some (.object [], rest)
      | rest => (readMembers? n rest).map fun (members, rest) => (.object members, rest) := rfl

theorem readMembers?_quote (n : Nat) (cs : List Char) :
    readMembers? (n + 1) ('"' :: cs) = (do
      let (key, rest) ← readString? cs
      let ':' :: rest := rest.dropWhile isBlank | none
      let (value, rest) ← readValue? n rest
      match rest.dropWhile isBlank with
      | '\x7d' :: rest => return ([(key, value)], rest)
      | ',' :: rest =>
        let (members, rest) ← readMembers? n rest
        return ((key, value) :: members, rest)
      | _ => none) := rfl

theorem readValue?_number {c : Char} (begins : BeginsNumber c) (n : Nat) (cs : List Char) :
    readValue? (n + 1) (c :: cs) = readNumber? (c :: cs) := by
  have differs (d : Char) (other : d.isDigit = false ∧ d ≠ '-') : c ≠ d :=
    begins.ne (by simp [BeginsNumber, other])
  rw [readValue?, List.dropWhile_cons_of_neg (by simp [begins.isBlank_eq_false])]
  simp [differs]

mutual

/-- Reading a spelling gives the value that it spells and leaves what follows. -/
theorem Spells.readValue?_append {cs : List Char} {value : Json} (spells : Spells cs value)
    {n : Nat} (enough : cs.length ≤ n) {rest : List Char} (ends : EndsNumber rest) :
    readValue? n (cs ++ rest) = some (value, rest) := by
  obtain ⟨n, rfl⟩ : ∃ m, n = m + 1 := by
    obtain ⟨c, others, rfl, -⟩ := spells.exists_cons
    exact Nat.exists_eq_add_one.mpr (Nat.lt_of_lt_of_le (Nat.succ_pos _) enough)
  cases spells with
  | null => rfl
  | yes => rfl
  | no => rfl
  | natural m =>
      have unsigned : ([] : List Char) ∈ [[], ['-']] := by decide
      obtain ⟨c, others, same, begins⟩ := exists_beginsNumber unsigned (isWhole_toDigits m) rest
      rw [List.nil_append] at same
      rw [same, readValue?_number begins, ← same]
      exact readNumber?_toDigits m ends
  | @numeral sign whole fraction exponent isSign isWhole isFraction isExponent marked =>
      have read := readNumber?_append isSign isWhole isFraction isExponent ends
      rw [if_neg (by simpa [and_assoc] using marked)] at read
      obtain ⟨c, others, same, begins⟩ :=
        exists_beginsNumber isSign isWhole (fraction ++ (exponent ++ rest))
      simp only [List.append_assoc] at read ⊢
      rw [same] at read ⊢
      exact (readValue?_number begins n others).trans read
  | string spells =>
      obtain ⟨others, rfl, read⟩ := spells.exists_cons
      rw [List.cons_append, readValue?_quote, read]
      rfl
  | emptyArray blank =>
      rw [List.cons_append, List.append_assoc, readValue?_openBracket, List.singleton_append,
        dropWhile_isBlank_append_cons blank (by decide)]
      rfl
  | @array left right cs items blank_left blank_right spells =>
      have shorter : cs.length < n := by
        simp only [List.length_cons, List.length_append] at enough
        omega
      have read : readItems? n (cs ++ (right ++ ']' :: rest)) = some (items, rest) :=
        spells.readItems?_append shorter blank_right
      obtain ⟨c, others, rfl, solid, opens⟩ := spells.exists_cons
      simp only [List.cons_append, List.append_assoc, List.nil_append] at read ⊢
      rw [readValue?_openBracket, dropWhile_isBlank_append_cons blank_left solid]
      split
      next same => exact absurd (List.cons.inj same).1 opens
      next => rw [read]; rfl
  | emptyObject blank =>
      rw [List.cons_append, List.append_assoc, readValue?_openBrace, List.singleton_append,
        dropWhile_isBlank_append_cons blank (by decide)]
      rfl
  | @object left right cs members blank_left blank_right spells =>
      have shorter : cs.length < n := by
        simp only [List.length_cons, List.length_append] at enough
        omega
      have read : readMembers? n (cs ++ (right ++ '\x7d' :: rest)) = some (members, rest) :=
        spells.readMembers?_append shorter blank_right
      obtain ⟨others, rfl⟩ := spells.exists_cons
      simp only [List.cons_append, List.append_assoc, List.nil_append] at read ⊢
      rw [readValue?_openBrace, dropWhile_isBlank_append_cons blank_left (by decide)]
      exact congrArg (Option.map _) read

theorem SpellsItems.readItems?_append {cs : List Char} {items : List Json}
    (spells : SpellsItems cs items) {n : Nat} (enough : cs.length < n) {blanks rest : List Char}
    (blank : IsBlankText blanks) :
    readItems? n (cs ++ (blanks ++ ']' :: rest)) = some (items, rest) := by
  obtain ⟨n, rfl⟩ := Nat.exists_eq_add_one.mpr (Nat.lt_of_le_of_lt (Nat.zero_le _) enough)
  rw [readItems?]
  cases spells with
  | last spells =>
      have bound := Nat.le_of_lt_succ enough
      rw [spells.readValue?_append bound (endsNumber_append blank (endsNumber_cons (by decide) _)),
        Option.bind_eq_bind, Option.bind_some]
      simp only [dropWhile_isBlank_append_cons blank (show isBlank ']' = false by decide)]
      rfl
  | @cons cs left right later item items spells blank_left blank_right others =>
      simp only [List.length_cons, List.length_append] at enough
      have read : readItems? n (later ++ (blanks ++ ']' :: rest)) = some (items, rest) :=
        others.readItems?_append (by omega) blank
      simp only [List.append_assoc, List.cons_append]
      rw [spells.readValue?_append (by omega)
          (endsNumber_append blank_left (endsNumber_cons (by decide) _)),
        Option.bind_eq_bind, Option.bind_some]
      simp only [dropWhile_isBlank_append_cons blank_left (show isBlank ',' = false by decide),
        readItems?_blank blank_right, read]
      rfl

theorem SpellsMember.readMembers?_append {cs : List Char} {member : List Nat × Json}
    (spells : SpellsMember cs member) {n : Nat} (enough : cs.length ≤ n) {rest : List Char}
    (ends : EndsNumber rest) :
    readMembers? (n + 1) (cs ++ rest) =
      match rest.dropWhile isBlank with
      | '\x7d' :: rest => return ([member], rest)
      | ',' :: rest => do
        let (members, rest) ← readMembers? n rest
        return (member :: members, rest)
      | _ => none := by
  cases spells with
  | @mk left right keyText cs key value spells_key blank_left blank_right spells =>
      simp only [List.length_cons, List.length_append] at enough
      have read := spells.readValue?_append (n := n) (by omega) ends
      obtain ⟨others, rfl, read_key⟩ := spells_key.exists_cons
      simp only [List.append_assoc, List.cons_append]
      rw [readMembers?_quote, read_key, Option.bind_eq_bind, Option.bind_some]
      simp only [dropWhile_isBlank_append_cons blank_left (show isBlank ':' = false by decide),
        readValue?_blank blank_right, read]
      rfl

theorem SpellsMembers.readMembers?_append {cs : List Char} {members : List (List Nat × Json)}
    (spells : SpellsMembers cs members) {n : Nat} (enough : cs.length < n)
    {blanks rest : List Char} (blank : IsBlankText blanks) :
    readMembers? n (cs ++ (blanks ++ '\x7d' :: rest)) = some (members, rest) := by
  obtain ⟨n, rfl⟩ := Nat.exists_eq_add_one.mpr (Nat.lt_of_le_of_lt (Nat.zero_le _) enough)
  cases spells with
  | last spells =>
      rw [spells.readMembers?_append (Nat.le_of_lt_succ enough)
        (endsNumber_append blank (endsNumber_cons (by decide) _))]
      simp only [dropWhile_isBlank_append_cons blank (show isBlank '\x7d' = false by decide)]
      rfl
  | @cons cs left right later member members spells blank_left blank_right others =>
      simp only [List.length_cons, List.length_append] at enough
      have read : readMembers? n (later ++ (blanks ++ '\x7d' :: rest)) = some (members, rest) :=
        others.readMembers?_append (by omega) blank
      simp only [List.append_assoc, List.cons_append]
      rw [spells.readMembers?_append (by omega)
        (endsNumber_append blank_left (endsNumber_cons (by decide) _))]
      simp only [dropWhile_isBlank_append_cons blank_left (show isBlank ',' = false by decide),
        readMembers?_blank blank_right, read]
      rfl

end

/-- A text that spells a value, with any white space around it, is read as that value. -/
theorem Spells.read?_eq {cs left right : List Char} {value : Json} (spells : Spells cs value)
    (blank_left : IsBlankText left) (blank_right : IsBlankText right) :
    read? (left ++ (cs ++ right)) = some value := by
  have ends : EndsNumber right := by
    cases right with
    | nil => nofun
    | cons c right => exact endsNumber_of_isBlank (blank_right c (List.mem_cons_self ..))
  have enough : cs.length ≤ 2 * (left ++ (cs ++ right)).length + 2 := by
    simp only [List.length_append]
    omega
  rw [read?, readValue?_blank blank_left, spells.readValue?_append enough ends]
  exact if_pos (List.all_eq_true.mpr blank_right)

end JavaOutline.Json
