import JavaOutline.Json.Read
import JavaOutline.Json.Write
import Mathlib.Tactic.SplitIfs

/-!
# Spellings of JSON strings and numbers

The grammar of the two literals, said without the reader. A string may write a character as it
stands, by a letter after a backslash or by four hexadecimal digits, and a character above `U+FFFF`
also by a pair of surrogates. Reading a literal takes what it spells and leaves what follows.
-/

namespace JavaOutline.Json

/-! ## Strings -/

/-- The characters that may follow a backslash, with the code points they stand for. -/
def escapes : List (Char × Nat) :=
  [('"', 0x22), ('\\', 0x5c), ('/', 0x2f), ('b', 0x08), ('f', 0x0c), ('n', 0x0a), ('r', 0x0d),
   ('t', 0x09)]

/-- The texts that spell some units between two quotes. -/
inductive SpellsUnits : List Char → List Nat → Prop
  | nil : SpellsUnits [] []
  | plain {c : Char} {cs : List Char} {units : List Nat} (no_quote : c ≠ '"')
      (no_backslash : c ≠ '\\') (printable : 0x20 ≤ c.toNat) (others : SpellsUnits cs units) :
      SpellsUnits (c :: cs) (c.toNat :: units)
  | escape {c : Char} {n : Nat} {cs : List Char} {units : List Nat} (listed : (c, n) ∈ escapes)
      (others : SpellsUnits cs units) : SpellsUnits ('\\' :: c :: cs) (n :: units)
  | digits {digits cs : List Char} {n : Nat} {units : List Nat} (four : digits.length = 4)
      (number : hexNumber? digits = some n) (others : SpellsUnits cs units) :
      SpellsUnits ('\\' :: 'u' :: (digits ++ cs)) (n :: units)

theorem readUnits?_plain {c : Char} (no_quote : c ≠ '"') (no_backslash : c ≠ '\\')
    (printable : 0x20 ≤ c.toNat) (cs : List Char) :
    readUnits? (c :: cs) = (readUnits? cs).map fun (units, rest) => (c.toNat :: units, rest) := by
  rw [readUnits?]
  · have allowed : (decide (c = '\\') || decide (c.toNat < 0x20)) = false := by
      simp [no_backslash, printable]
    rw [allowed]
    cases readUnits? cs <;> rfl
  · exact no_quote
  · exact fun _ _ _ _ _ same => absurd same no_backslash
  · exact fun _ _ same => absurd same no_backslash

/-- The reader knows every escape, and none of them looks like hexadecimal digits to come. -/
theorem escaped?_of_mem_escapes {c : Char} {n : Nat} (listed : (c, n) ∈ escapes) :
    c ≠ 'u' ∧ escaped? c = some n := by
  have known : ∀ escape ∈ escapes, escape.1 ≠ 'u' ∧ escaped? escape.1 = some escape.2 := by
    decide
  exact known (c, n) listed

theorem readUnits?_escape {c : Char} {n : Nat} (listed : (c, n) ∈ escapes) (cs : List Char) :
    readUnits? ('\\' :: c :: cs) = (readUnits? cs).map fun (units, rest) => (n :: units, rest) := by
  obtain ⟨no_digits, escaped⟩ := escaped?_of_mem_escapes listed
  rw [readUnits?]
  · rw [escaped]
    cases readUnits? cs <;> rfl
  · exact fun _ _ _ _ _ same => absurd same no_digits

theorem readUnits?_digits {n : Nat} {digits : List Char} (four : digits.length = 4)
    (number : hexNumber? digits = some n) (cs : List Char) :
    readUnits? ('\\' :: 'u' :: (digits ++ cs)) =
      (readUnits? cs).map fun (units, rest) => (n :: units, rest) := by
  match digits, four with
  | [a, b, c, d], _ =>
      simp only [List.cons_append, List.nil_append, readUnits?, number]
      cases readUnits? cs <;> rfl

/-- The units of a string are read from whatever spells them, up to the closing quote. -/
theorem SpellsUnits.readUnits?_append {cs : List Char} {units : List Nat}
    (spells : SpellsUnits cs units) (rest : List Char) :
    readUnits? (cs ++ '"' :: rest) = some (units, rest) := by
  induction spells with
  | nil => rw [List.nil_append, readUnits?]
  | plain no_quote no_backslash printable _ induction =>
      rw [List.cons_append, readUnits?_plain no_quote no_backslash printable, induction]
      rfl
  | escape listed _ induction =>
      rw [List.cons_append, List.cons_append, readUnits?_escape listed, induction]
      rfl
  | digits four number _ induction =>
      rw [List.cons_append, List.cons_append, List.append_assoc, readUnits?_digits four number,
        induction]
      rfl

/-- The texts that spell a string, quotes included. -/
inductive SpellsString : List Char → List Nat → Prop
  | quoted {cs : List Char} {units : List Nat} (spells : SpellsUnits cs units) :
      SpellsString ('"' :: (cs ++ ['"'])) (joinSurrogates units)

theorem SpellsString.exists_cons {cs : List Char} {codePoints : List Nat}
    (spells : SpellsString cs codePoints) :
    ∃ rest, cs = '"' :: rest ∧
      ∀ later, readString? (rest ++ later) = some (codePoints, later) := by
  cases spells with
  | quoted spells =>
      refine ⟨_, rfl, fun later => ?_⟩
      rw [readString?, List.append_assoc, List.singleton_append, spells.readUnits?_append]
      rfl

/-! ## Strings as they are written -/

/-- Whether all code points are characters, so that they are those of a text. -/
def IsText (codePoints : List Nat) : Prop :=
  ∀ n ∈ codePoints, n.isValidChar

theorem isText_codePoints (text : String) : IsText (codePoints text) := by
  intro n member
  obtain ⟨c, -, rfl⟩ := List.mem_map.mp member
  exact c.valid

theorem hexNumber?_fourHexDigits : ∀ n < 0x20,
    (fourHexDigits n).length = 4 ∧ hexNumber? (fourHexDigits n) = some n := by
  decide

/-- What a string writes for a code point spells it. -/
theorem SpellsUnits.writeCodePoint_append {n : Nat} (valid : n.isValidChar) {cs : List Char}
    {units : List Nat} (others : SpellsUnits cs units) :
    SpellsUnits (writeCodePoint n ++ cs) (n :: units) := by
  unfold writeCodePoint
  split_ifs with quote backslash backspace feed line carriage tab control
  case pos => subst quote; exact .escape (by decide) others
  case pos => subst backslash; exact .escape (by decide) others
  case pos => subst backspace; exact .escape (by decide) others
  case pos => subst feed; exact .escape (by decide) others
  case pos => subst line; exact .escape (by decide) others
  case pos => subst carriage; exact .escape (by decide) others
  case pos => subst tab; exact .escape (by decide) others
  case pos =>
    obtain ⟨four, number⟩ := hexNumber?_fourHexDigits n control
    exact .digits four number others
  case neg =>
    have toNat_eq : (Char.ofNat n).toNat = n := by
      rw [Char.ofNat, dif_pos valid]
      rfl
    have differs (c : Char) (ne : n ≠ c.toNat) : Char.ofNat n ≠ c := by
      rintro rfl
      exact ne toNat_eq.symm
    have spells := SpellsUnits.plain (differs '"' quote) (differs '\\' backslash)
      (by rw [toNat_eq]; exact Nat.le_of_not_lt control) others
    rw [toNat_eq] at spells
    exact spells

theorem IsText.spellsUnits {codePoints : List Nat} (isText : IsText codePoints) :
    SpellsUnits (codePoints.flatMap writeCodePoint) codePoints := by
  induction codePoints with
  | nil => exact .nil
  | cons n codePoints induction =>
      exact .writeCodePoint_append (isText n (List.mem_cons_self ..))
        (induction fun m member => isText m (List.mem_cons_of_mem n member))

/-- No character is half of a pair of surrogates. -/
theorem joinSurrogates_eq_self {codePoints : List Nat} (isText : IsText codePoints) :
    joinSurrogates codePoints = codePoints := by
  induction codePoints with
  | nil => rfl
  | cons n codePoints induction =>
      have valid := isText n (List.mem_cons_self ..)
      have joined := induction fun m member => isText m (List.mem_cons_of_mem n member)
      cases codePoints with
      | nil => rfl
      | cons m codePoints =>
          have apart : ¬(0xd800 ≤ n ∧ n < 0xdc00 ∧ 0xdc00 ≤ m ∧ m < 0xe000) := by
            unfold Nat.isValidChar at valid
            omega
          rw [joinSurrogates, if_neg apart, joined]

/-- A text is spelled by the string that is written for it. -/
theorem IsText.spellsString {codePoints : List Nat} (isText : IsText codePoints) :
    SpellsString (writeString codePoints).toList codePoints := by
  have spells := SpellsString.quoted isText.spellsUnits
  rw [joinSurrogates_eq_self isText] at spells
  rw [writeString, String.toList_ofList]
  exact spells

/-! ## Numbers -/

/-- Whether a text is a run of digits, one at least. -/
def IsDigits (cs : List Char) : Prop :=
  cs ≠ [] ∧ ∀ c ∈ cs, c.isDigit = true

/-- Whether a text is the whole part of a number: only zero begins with a zero. -/
def IsWhole (cs : List Char) : Prop :=
  IsDigits cs ∧ (cs.head? = some '0' → cs = ['0'])

/-- Whether a text is a fraction or there is none. -/
def IsFraction (cs : List Char) : Prop :=
  cs = [] ∨ ∃ digits, IsDigits digits ∧ cs = '.' :: digits

/-- Whether a text is an exponent or there is none. -/
def IsExponent (cs : List Char) : Prop :=
  cs = [] ∨ ∃ mark ∈ ['e', 'E'], ∃ sign ∈ [[], ['+'], ['-']], ∃ digits, IsDigits digits ∧
    cs = mark :: (sign ++ digits)

/-- Whether a text does not begin with a digit. -/
def EndsDigits (cs : List Char) : Prop :=
  ∀ c ∈ cs.head?, c.isDigit = false

/-- Whether no number goes on where a text begins. -/
def EndsNumber (cs : List Char) : Prop :=
  ∀ c ∈ cs.head?, c.isDigit = false ∧ c ≠ '.' ∧ c ≠ 'e' ∧ c ≠ 'E'

theorem EndsNumber.endsDigits {cs : List Char} (ends : EndsNumber cs) : EndsDigits cs :=
  fun c first => (ends c first).1

theorem readDigits?_append {digits rest : List Char} (isDigits : IsDigits digits)
    (ends : EndsDigits rest) : readDigits? (digits ++ rest) = some (digits, rest) := by
  have stops : rest.takeWhile Char.isDigit = [] ∧ rest.dropWhile Char.isDigit = rest := by
    cases rest with
    | nil => exact ⟨rfl, rfl⟩
    | cons c cs => simp [ends c rfl]
  rw [readDigits?, List.takeWhile_append_of_pos isDigits.2, List.dropWhile_append_of_pos isDigits.2,
    stops.1, stops.2, List.append_nil, if_neg]
  simp [isDigits.1]

theorem IsExponent.endsDigits {exponent rest : List Char} (isExponent : IsExponent exponent)
    (ends : EndsNumber rest) : EndsDigits (exponent ++ rest) := by
  rcases isExponent with rfl | ⟨mark, mark_eq, sign, -, digits, -, rfl⟩
  · exact ends.endsDigits
  · rintro _ ⟨⟩
    simp only [List.mem_cons, List.not_mem_nil, or_false] at mark_eq
    rcases mark_eq with rfl | rfl <;> rfl

theorem IsFraction.endsDigits {fraction rest : List Char} (isFraction : IsFraction fraction)
    (ends : EndsDigits rest) : EndsDigits (fraction ++ rest) := by
  rcases isFraction with rfl | ⟨digits, -, rfl⟩
  · exact ends
  · rintro _ ⟨⟩
    rfl

/-- A digit is none of the signs. -/
theorem readSign_of_isDigits {digits : List Char} (isDigits : IsDigits digits) (rest : List Char) :
    readSign (digits ++ rest) = ([], digits ++ rest) := by
  obtain ⟨c, others, rfl⟩ := List.exists_cons_of_ne_nil isDigits.1
  have digit := isDigits.2 c (List.mem_cons_self ..)
  rw [List.cons_append, readSign]
  · rintro _ ⟨⟩
    cases digit
  · rintro _ ⟨⟩
    cases digit

theorem readExponent?_append {exponent rest : List Char} (isExponent : IsExponent exponent)
    (ends : EndsNumber rest) : readExponent? (exponent ++ rest) = some (exponent, rest) := by
  rcases isExponent with rfl | ⟨mark, mark_eq, sign, sign_eq, digits, isDigits, rfl⟩
  · cases rest with
    | nil => rfl
    | cons c cs =>
        obtain ⟨-, -, no_e, no_E⟩ := ends c rfl
        simp [readExponent?, no_e, no_E]
  · have sign_read : readSign (sign ++ (digits ++ rest)) = (sign, digits ++ rest) := by
      simp only [List.mem_cons, List.not_mem_nil, or_false] at sign_eq
      rcases sign_eq with rfl | rfl | rfl
      · exact readSign_of_isDigits isDigits rest
      · rfl
      · rfl
    have marked : (decide (mark = 'e') || decide (mark = 'E')) = true := by
      simpa using mark_eq
    have digits_read := readDigits?_append isDigits ends.endsDigits
    rw [List.cons_append, List.append_assoc, readExponent?, if_pos marked, sign_read]
    simp only [digits_read]
    rfl

theorem readFraction?_append {fraction rest : List Char} (isFraction : IsFraction fraction)
    (ends : EndsDigits rest) (no_point : rest.head? ≠ some '.') :
    readFraction? (fraction ++ rest) = some (fraction, rest) := by
  rcases isFraction with rfl | ⟨digits, isDigits, rfl⟩
  · rw [List.nil_append, readFraction?]
    rintro cs rfl
    exact no_point rfl
  · rw [List.cons_append, readFraction?, readDigits?_append isDigits ends]
    rfl

theorem IsExponent.head?_append_ne_point {exponent rest : List Char}
    (isExponent : IsExponent exponent) (ends : EndsNumber rest) :
    (exponent ++ rest).head? ≠ some '.' := by
  rcases isExponent with rfl | ⟨mark, mark_eq, sign, -, digits, -, rfl⟩
  · exact fun first => (ends '.' first).2.1 rfl
  · rintro ⟨⟩
    exact absurd mark_eq (by decide)

/-- A number is taken apart as it is spelled; without a sign, a fraction and an exponent it is a
natural number. -/
theorem readNumber?_append {sign whole fraction exponent rest : List Char}
    (isSign : sign ∈ [[], ['-']]) (isWhole : IsWhole whole) (isFraction : IsFraction fraction)
    (isExponent : IsExponent exponent) (ends : EndsNumber rest) :
    readNumber? (sign ++ (whole ++ (fraction ++ (exponent ++ rest)))) =
      if sign.isEmpty && fraction.isEmpty && exponent.isEmpty then
        some (.natural (decimalNumber whole), rest)
      else some (.numeral (sign ++ whole ++ fraction ++ exponent), rest) := by
  have ends_exponent := isExponent.endsDigits ends
  have whole_read := readDigits?_append isWhole.1 (isFraction.endsDigits ends_exponent)
  have fraction_read := readFraction?_append isFraction ends_exponent
    (isExponent.head?_append_ne_point ends)
  have exponent_read := readExponent?_append isExponent ends
  have no_zero : (whole.head? = some '0' && 1 < whole.length) = false := by
    rw [Bool.and_eq_false_imp]
    intro zero
    rw [isWhole.2 (of_decide_eq_true zero)]
    rfl
  have sign_read :
      (if (sign ++ (whole ++ (fraction ++ (exponent ++ rest)))).head? = some '-' then
        (['-'], (sign ++ (whole ++ (fraction ++ (exponent ++ rest)))).drop 1)
      else ([], sign ++ (whole ++ (fraction ++ (exponent ++ rest))))) =
        (sign, whole ++ (fraction ++ (exponent ++ rest))) := by
    simp only [List.mem_cons, List.not_mem_nil, or_false] at isSign
    rcases isSign with rfl | rfl
    · obtain ⟨c, others, rfl⟩ := List.exists_cons_of_ne_nil isWhole.1.1
      refine if_neg ?_
      rintro ⟨⟩
      exact absurd (isWhole.1.2 '-' (List.mem_cons_self ..)) (by decide)
    · rfl
  rw [readNumber?, sign_read]
  simp only [whole_read, Option.bind_eq_bind, Option.bind_some, no_zero, fraction_read,
    exponent_read]
  cases sign.isEmpty && fraction.isEmpty && exponent.isEmpty <;> rfl

/-! ## Natural numbers as they are written -/

theorem decimalNumber_toDigits (n : Nat) : decimalNumber (Nat.toDigits 10 n) = n :=
  Nat.ofDigitChars_toDigits (by decide) (by decide)

/-- Only zero is written with a zero in front. -/
theorem head?_toDigits_ne_zero {n : Nat} (pos : 0 < n) : (Nat.toDigits 10 n).head? ≠ some '0' := by
  induction n using Nat.strongRecOn with
  | ind n induction =>
      by_cases small : n < 10
      · rw [Nat.toDigits_of_lt_base small]
        intro same
        exact Nat.ne_of_gt pos (Nat.digitChar_eq_zero.mp (Option.some.inj same))
      · have large : 10 ≤ n := Nat.le_of_not_lt small
        have shorter := induction (n / 10) (Nat.div_lt_self pos (by decide))
          (Nat.div_pos large (by decide))
        obtain ⟨first, others, digits_eq⟩ :=
          List.exists_cons_of_ne_nil (Nat.toDigits_ne_nil (n := n / 10) (b := 10))
        rw [digits_eq] at shorter
        rw [Nat.toDigits_of_base_le (by decide) large, digits_eq]
        exact shorter

theorem isWhole_toDigits (n : Nat) : IsWhole (Nat.toDigits 10 n) := by
  have digits (c : Char) (member : c ∈ Nat.toDigits 10 n) : c.isDigit = true :=
    Nat.isDigit_of_mem_toDigits (by decide) (by decide) member
  refine ⟨⟨Nat.toDigits_ne_nil, digits⟩, fun zero => ?_⟩
  rcases Nat.eq_zero_or_pos n with rfl | pos
  · rfl
  · exact absurd zero (head?_toDigits_ne_zero pos)

theorem readNumber?_toDigits (n : Nat) {rest : List Char} (ends : EndsNumber rest) :
    readNumber? (Nat.toDigits 10 n ++ rest) = some (.natural n, rest) := by
  have unsigned : ([] : List Char) ∈ [[], ['-']] := by decide
  have read := readNumber?_append unsigned (isWhole_toDigits n) (.inl rfl) (.inl rfl) ends
  rw [decimalNumber_toDigits] at read
  exact read

end JavaOutline.Json
