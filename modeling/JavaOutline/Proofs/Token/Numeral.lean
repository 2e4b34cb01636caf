import Mathlib
import JavaOutline.Proofs.Token.Lossless

/-!
# Numerals are single tokens

The numerals of Java are a language that is built from few parts: digits with underscores between
them, radix marks, a point, exponents and suffixes. Over each of these the scanner of numbers runs
without stopping, and what it has seen so far changes in the same way whatever stands behind. So it
runs over a numeral to its end, and stops where white space or punctuation follows.

The one exception are hexadecimal floating-point numerals with a point. Their exponents are known to
the scanner, but it stops at the point of any number with a radix mark.
-/

namespace JavaOutline.Token

/-! ## The grammar of numerals -/

/-- One of some characters. -/
def anyOf (chars : List Char) : Language Char :=
  {text | ∃ c ∈ chars, text = [c]}

/-- A text that may be missing. -/
def optional (language : Language Char) : Language Char := 1 + language

/-- Any number of underscores. -/
def underscores : Language Char :=
  {text | ∀ c ∈ text, c = '_'}

/-- Digits, between which underscores may stand. -/
def digits (isDigit : Char → Bool) : Language Char :=
  {text | (∀ c ∈ text, isDigit c = true ∨ c = '_') ∧ (∃ c ∈ text.head?, isDigit c = true) ∧
    ∃ c ∈ text.getLast?, isDigit c = true}

/-- Whether a character is an octal digit. -/
def isOctalDigit (c : Char) : Bool :=
  ['0', '1', '2', '3', '4', '5', '6', '7'].contains c

/-- Whether a character is a hexadecimal digit. -/
def isHexDigit (c : Char) : Bool :=
  c.isDigit || ['a', 'b', 'c', 'd', 'e', 'f', 'A', 'B', 'C', 'D', 'E', 'F'].contains c

/-- Whether a character is a binary digit. -/
def isBinaryDigit (c : Char) : Bool :=
  ['0', '1'].contains c

/-- A decimal numeral: zero, or digits that do not begin with it. -/
def decimalNumeral : Language Char :=
  anyOf ['0'] + anyOf ['1', '2', '3', '4', '5', '6', '7', '8', '9'] *
    optional (underscores * digits Char.isDigit)

/-- An octal numeral. -/
def octalNumeral : Language Char :=
  anyOf ['0'] * (underscores * digits isOctalDigit)

/-- What a hexadecimal numeral begins with. -/
def hexMark : Language Char :=
  anyOf ['0'] * anyOf ['x', 'X']

/-- A hexadecimal numeral. -/
def hexNumeral : Language Char :=
  hexMark * digits isHexDigit

/-- A binary numeral. -/
def binaryNumeral : Language Char :=
  anyOf ['0'] * anyOf ['b', 'B'] * digits isBinaryDigit

/-- An integer literal. -/
def integerLiteral : Language Char :=
  (decimalNumeral + octalNumeral + hexNumeral + binaryNumeral) * optional (anyOf ['l', 'L'])

/-- The point of a floating-point literal. -/
def point : Language Char := anyOf ['.']

/-- An exponent that begins with one of some letters. -/
def exponent (letters : List Char) : Language Char :=
  anyOf letters * (optional (anyOf ['+', '-']) * digits Char.isDigit)

/-- The suffix of a floating-point literal. -/
def floatSuffix : Language Char := anyOf ['f', 'F', 'd', 'D']

/-- A decimal floating-point literal. What tells it from an integer is a point, an exponent or a
suffix. -/
def decimalFloating : Language Char :=
  digits Char.isDigit * (point * (optional (digits Char.isDigit) *
    (optional (exponent ['e', 'E']) * optional floatSuffix))) +
  point * (digits Char.isDigit * (optional (exponent ['e', 'E']) * optional floatSuffix)) +
  digits Char.isDigit * (exponent ['e', 'E'] * optional floatSuffix) +
  digits Char.isDigit * (optional (exponent ['e', 'E']) * floatSuffix)

/-- A hexadecimal floating-point literal without a point. -/
def hexFloating : Language Char :=
  hexNumeral * (exponent ['p', 'P'] * optional floatSuffix)

/-- A hexadecimal floating-point literal with a point. -/
def hexPointFloating : Language Char :=
  (hexNumeral * point + hexMark * optional (digits isHexDigit) * (point * digits isHexDigit)) *
    (exponent ['p', 'P'] * optional floatSuffix)

/-- Whether a text is empty or begins with white space, a semicolon, a closing parenthesis or a
comma. -/
def EndsNumeral (rest : List Char) : Prop :=
  ∀ c ∈ rest.head?, isWhiteSpace c = true ∨ c ∈ [';', ')', ',']

/-! ## Running over a numeral -/

/-- What is computed of every character of a list. -/
theorem forall_mem_of_all {chars : List Char} {p : Char → Prop} [DecidablePred p]
    (all : chars.all (fun c => decide (p c)) = true) : ∀ c ∈ chars, p c := by
  simpa using all

/-- Whether a character of a number changes nothing of what is known about it. -/
def isPlain (radix : Bool) (c : Char) : Bool :=
  (c.isAlphanum || c = '_') && !isExponent radix c &&
    (radix || !(['f', 'F', 'd', 'D', 'x', 'X', 'b', 'B'].contains c))

theorem numberLength_plain {radix : Bool} {c : Char} (plain : isPlain radix c = true)
    (dotted floating : Bool) (rest : List Char) : numberLength radix dotted floating (c :: rest) =
      (numberLength radix dotted floating rest).map (· + 1) id := by
  simp only [isPlain, Bool.and_eq_true, Bool.not_eq_true'] at plain
  obtain ⟨⟨part, no_exponent⟩, no_suffix⟩ := plain
  have no_suffix : (!radix && ['f', 'F', 'd', 'D'].contains c) = false := by
    cases radix <;> simp_all
  rw [numberLength_cons, if_pos part, no_exponent, no_suffix, Bool.or_false]
  rfl

theorem isPlain_of_isDigit {c : Char} (digit : c.isDigit = true) (radix : Bool) :
    isPlain radix c = true := by
  have differs : ∀ d ∈ ['e', 'E', 'p', 'P', 'f', 'F', 'd', 'D', 'x', 'X', 'b', 'B'], c ≠ d := by
    have checked : ∀ d ∈ ['e', 'E', 'p', 'P', 'f', 'F', 'd', 'D', 'x', 'X', 'b', 'B'],
        d.isDigit = false := List.forall_iff_forall_mem.mp (by decide)
    rintro d member rfl
    simp [checked _ member] at digit
  cases radix <;> simp [isPlain, isExponent, Char.isAlphanum, digit, differs]

/-- The sign of an exponent belongs to it. -/
theorem numberLength_exponent {radix : Bool} {letter : Char}
    (is_exponent : isExponent radix letter = true) (dotted floating : Bool) {sign rest : List Char}
    (sign_mem : sign ∈ optional (anyOf ['+', '-'])) (unsigned : ∀ d ∈ rest.head?, d ∉ ['+', '-']) :
    numberLength radix dotted floating (letter :: (sign ++ rest)) =
      (numberLength radix dotted true rest).map (· + (sign.length + 1)) id := by
  have part : (letter.isAlphanum || letter = '_') = true := by
    unfold isExponent at is_exponent
    split_ifs at is_exponent <;>
      simp only [Bool.or_eq_true, decide_eq_true_eq] at is_exponent <;>
      rcases is_exponent with rfl | rfl <;> rfl
  rw [numberLength_cons, if_pos part, if_pos is_exponent]
  rcases sign_mem with rfl | ⟨d, sign_mem, rfl⟩
  · have unsigned : rest.head?.any (fun sign => sign = '+' || sign = '-') = false := by
      cases rest with
      | nil => rfl
      | cons => simpa using unsigned
    rw [List.nil_append, unsigned]
    rfl
  · have signed : (d = '+' || d = '-') = true := by simpa using sign_mem
    simp [signed]

/-- Whether the scanner of numbers runs over every text of a language, in front of what is allowed
next, and comes from one state to another. The state says whether the number has had its dot and
whether it is known to be a floating-point number. Only with a radix does a text hold its mark. -/
def Takes (radix : Bool) (before after : Bool × Bool) (next : List Char → Prop)
    (language : Language Char) : Prop :=
  ∀ text ∈ language, (radix = false → ∀ c ∈ text, c ∉ ['x', 'X', 'b', 'B']) ∧
    ∀ rest, next rest → numberLength radix before.1 before.2 (text ++ rest) =
      (numberLength radix after.1 after.2 rest).map (· + text.length) id

/-- Any text is allowed next. -/
abbrev anything : List Char → Prop := fun _ => True

namespace Takes

variable {radix : Bool} {before middle after : Bool × Bool} {next : List Char → Prop}
  {language later : Language Char}

theorem mul (first : Takes radix before middle anything language)
    (second : Takes radix middle after next later) :
    Takes radix before after next (language * later) := by
  intro text member
  obtain ⟨front, front_mem, back, back_mem, rfl⟩ := Language.mem_mul.mp member
  obtain ⟨no_mark, front_eq⟩ := first front front_mem
  obtain ⟨no_mark', back_eq⟩ := second back back_mem
  refine ⟨fun no_radix c found => ?_, fun rest allowed => ?_⟩
  · rcases List.mem_append.mp found with found | found
    · exact no_mark no_radix c found
    · exact no_mark' no_radix c found
  · rw [List.append_assoc, front_eq _ trivial, back_eq rest allowed]
    refine Prod.ext ?_ rfl
    simp only [Prod.map_fst, List.length_append]
    omega

theorem add (first : Takes radix before after next language)
    (second : Takes radix before after next later) :
    Takes radix before after next (language + later) := by
  rintro text (member | member)
  · exact first text member
  · exact second text member

theorem optional (takes : Takes radix before before next language) :
    Takes radix before before next (optional language) := by
  rintro text (missing | member)
  · obtain rfl : text = [] := missing
    exact ⟨by simp, fun rest _ => rfl⟩
  · exact takes text member

theorem mono (takes : Takes radix before after anything language) :
    Takes radix before after next language :=
  fun text member => ⟨(takes text member).1, fun rest _ => (takes text member).2 rest trivial⟩

/-- A text of characters that change nothing. -/
theorem of_plain (plain : ∀ text ∈ language, ∀ c ∈ text, isPlain radix c = true) :
    Takes radix before before anything language := by
  intro text member
  have all_plain := plain text member
  refine ⟨fun no_radix c found mark => ?_, fun rest _ => ?_⟩
  · have := all_plain c found
    subst no_radix
    simp only [List.mem_cons, List.not_mem_nil, or_false] at mark
    rcases mark with rfl | rfl | rfl | rfl <;> exact absurd this (by decide)
  · clear member
    induction text with
    | nil => rfl
    | cons c text induction =>
        rw [List.cons_append, numberLength_plain (all_plain c (by simp)),
          induction fun c found => all_plain c (List.mem_cons_of_mem _ found)]
        rfl

theorem anyOf {chars : List Char} (plain : ∀ c ∈ chars, isPlain radix c = true) :
    Takes radix before before anything (anyOf chars) := by
  apply of_plain
  rintro _ ⟨c, member, rfl⟩ d found
  obtain rfl := List.mem_singleton.mp found
  exact plain d member

theorem digits {isDigit : Char → Bool} (plain : ∀ c, isDigit c = true → isPlain radix c = true) :
    Takes radix before before anything (digits isDigit) := by
  apply of_plain
  rintro text ⟨all, -, -⟩ c found
  rcases all c found with digit | rfl
  · exact plain c digit
  · cases radix <;> rfl

theorem floatSuffix {dotted floating : Bool} :
    Takes false (dotted, floating) (dotted, true) anything floatSuffix := by
  rintro _ ⟨c, member, rfl⟩
  have checked : ∀ c ∈ ['f', 'F', 'd', 'D'], (c.isAlphanum || c = '_') = true ∧
      isExponent false c = false ∧ c ∉ ['x', 'X', 'b', 'B'] := by
    exact forall_mem_of_all (by decide)
  obtain ⟨part, no_exponent, no_mark⟩ := checked c member
  refine ⟨by simpa using no_mark, fun rest _ => ?_⟩
  have suffix : (!false && ['f', 'F', 'd', 'D'].contains c) = true := by simpa using member
  rw [List.singleton_append, numberLength_cons, if_pos part, no_exponent, suffix, Bool.or_true]
  rfl

/-- An exponent makes a number a floating-point number. -/
theorem exponent {dotted floating : Bool} {letters : List Char}
    (allowed : ∀ c ∈ letters, isExponent radix c = true ∧ c ∉ ['x', 'X', 'b', 'B']) :
    Takes radix (dotted, floating) (dotted, true) anything (exponent letters) := by
  intro text member
  obtain ⟨_, ⟨letter, letter_mem, rfl⟩, _, signed, rfl⟩ := Language.mem_mul.mp member
  obtain ⟨sign, sign_mem, number, number_mem, rfl⟩ := Language.mem_mul.mp signed
  obtain ⟨is_exponent, letter_unmarked⟩ := allowed letter letter_mem
  have taken : Takes radix (dotted, true) (dotted, true) anything (Token.digits Char.isDigit) :=
    digits fun c digit => isPlain_of_isDigit digit radix
  obtain ⟨number_unmarked, number_eq⟩ := taken number number_mem
  have sign_unmarked : ∀ c ∈ sign, c ∉ ['x', 'X', 'b', 'B'] := by
    rcases sign_mem with rfl | ⟨d, sign_mem, rfl⟩
    · simp
    · simp only [List.mem_cons, List.not_mem_nil, or_false] at sign_mem
      rcases sign_mem with rfl | rfl <;> exact forall_mem_of_all (by decide)
  refine ⟨fun no_radix => ?_, fun rest _ => ?_⟩
  · exact List.forall_mem_append.mpr ⟨by simpa using letter_unmarked,
      List.forall_mem_append.mpr ⟨sign_unmarked, number_unmarked no_radix⟩⟩
  · rw [List.append_assoc, List.append_assoc, List.singleton_append,
      numberLength_exponent is_exponent dotted floating sign_mem, number_eq rest trivial]
    · refine Prod.ext ?_ rfl
      simp only [Prod.map_fst, List.length_append, List.length_singleton]
      omega
    · obtain ⟨-, ⟨c, first, digit⟩, -⟩ := number_mem
      obtain ⟨more, rfl⟩ := List.head?_eq_some_iff.mp first
      have unsigned : ∀ d ∈ ['+', '-'], d.isDigit = false :=
        List.forall_iff_forall_mem.mp (by decide)
      intro d d_first mark
      obtain rfl : c = d := Option.some.inj d_first
      simp [unsigned _ mark] at digit

/-- The point of a number without a radix mark makes it a floating-point number, unless something
follows that makes it a mark of its own. -/
theorem point_mul {floating : Bool} (takes : Takes false (true, true) after next language)
    (goes_on : ∀ text ∈ language, ∀ rest, next rest → dotEndsNumber (text ++ rest) = false) :
    Takes false (false, floating) after next (point * language) := by
  intro text member
  obtain ⟨_, ⟨c, point_mem, rfl⟩, text, text_mem, rfl⟩ := Language.mem_mul.mp member
  obtain rfl := List.mem_singleton.mp point_mem
  obtain ⟨no_mark, taken⟩ := takes text text_mem
  refine ⟨fun no_radix => by simpa using no_mark no_radix, fun rest allowed => ?_⟩
  rw [List.append_assoc, List.singleton_append, numberLength_cons, if_neg (by decide),
    if_pos (by simp [goes_on text text_mem rest allowed]), taken rest allowed]
  refine Prod.ext ?_ rfl
  simp only [Prod.map_fst, List.length_append, List.length_singleton]
  omega

end Takes

/-! ## Where a numeral ends -/

theorem toNat_of_part {c : Char} (part : (c.isAlphanum || c = '_') = true) :
    48 ≤ c.toNat ∧ c.toNat ≤ 122 := by
  simp only [Char.isAlphanum, Char.isAlpha, Char.isUpper, Char.isLower, Char.isDigit,
    Bool.or_eq_true, Bool.and_eq_true, decide_eq_true_eq, UInt32.le_iff_toNat_le, ge_iff_le] at part
  change (((65 ≤ c.toNat ∧ c.toNat ≤ 90) ∨ 97 ≤ c.toNat ∧ c.toNat ≤ 122) ∨
    48 ≤ c.toNat ∧ c.toNat ≤ 57) ∨ c = '_' at part
  rcases part with ((upper | lower) | digit) | rfl
  · omega
  · omega
  · omega
  · decide

namespace EndsNumeral

variable {rest : List Char}

theorem head_cases (ends : EndsNumeral rest) {c : Char} (first : c ∈ rest.head?) :
    (c.isAlphanum || c = '_') = false ∧ c ≠ '.' ∧ isIdentifierStart c = false := by
  rcases ends c first with white | mark
  · obtain ⟨range, member, low_le, le_high⟩ := exists_range_of_inRanges white
    have apart : ∀ range ∈ whiteSpaceRanges, range.2 < 46 ∨ 122 < range.1 := by decide
    have outside : c.toNat < 46 ∨ 122 < c.toNat := by
      have := apart range member
      omega
    refine ⟨?_, ?_, ?_⟩
    · by_contra part
      have bounds := toNat_of_part (Bool.eq_true_of_not_eq_false part)
      omega
    · rintro rfl
      exact absurd outside (by decide)
    · by_contra start
      rw [isWhiteSpace_eq_false (Bool.eq_true_of_not_eq_false start)] at white
      cases white
  · have checked : ∀ c ∈ [';', ')', ','],
        (c.isAlphanum || c = '_') = false ∧ c ≠ '.' ∧ isIdentifierStart c = false := by
      exact forall_mem_of_all (by decide)
    exact checked c mark

theorem numberLength_eq (ends : EndsNumeral rest) (radix dotted floating : Bool) :
    numberLength radix dotted floating rest = (0, floating) := by
  cases rest with
  | nil => rfl
  | cons c rest =>
      obtain ⟨no_part, no_dot, -⟩ := ends.head_cases rfl
      simp [numberLength_cons, no_part, no_dot]

theorem dotEndsNumber_eq (ends : EndsNumeral rest) : dotEndsNumber rest = false := by
  cases rest with
  | nil => rfl
  | cons c rest =>
      obtain ⟨no_part, no_dot, no_start⟩ := ends.head_cases rfl
      simp [dotEndsNumber, no_dot, no_start]

end EndsNumeral

/-- Whether a text begins with a digit, or with a point and a digit. -/
def beginsNumeral : List Char → Bool
  | [] => false
  | c :: cs => c.isDigit || c = '.' && cs.head?.any Char.isDigit

/-- Whether a text begins with a radix mark. -/
def hasRadix : List Char → Bool
  | [] => false
  | c :: cs => c = '0' && cs.head?.any (['x', 'X', 'b', 'B'].contains ·)

theorem map_succ_inj {found : Nat × Bool} {length : Nat} {floating : Bool}
    (eq : found.map (· + 1) id = (length + 1, floating)) : found = (length, floating) := by
  have length_eq := congrArg Prod.fst eq
  have floating_eq := congrArg Prod.snd eq
  exact Prod.ext (Nat.succ.inj length_eq) floating_eq

/-- Scanning a number from its first character is running over it from the start. -/
theorem numberRest_eq {c : Char} {cs : List Char} (begins : beginsNumeral (c :: cs) = true)
    {length : Nat} {floating : Bool}
    (run : numberLength (hasRadix (c :: cs)) false false (c :: cs) = (length + 1, floating)) :
    numberRest c cs = (length, if floating then .floating else .integer) := by
  have rest_eq : numberLength (hasRadix (c :: cs)) (c = '.') (c = '.') cs = (length, floating) := by
    by_cases digit : c.isDigit = true
    · have no_dot : c ≠ '.' := by
        rintro rfl
        simp at digit
      rw [numberLength_plain (isPlain_of_isDigit digit _)] at run
      simp only [no_dot, decide_false]
      exact map_succ_inj run
    · obtain ⟨rfl, first⟩ : c = '.' ∧ cs.head?.any Char.isDigit = true := by
        simpa [beginsNumeral, digit] using begins
      have goes_on : dotEndsNumber cs = false := by
        cases cs with
        | nil => rfl
        | cons d cs => simp_all [dotEndsNumber]
      have no_radix : hasRadix ('.' :: cs) = false := rfl
      rw [no_radix] at run ⊢
      rw [numberLength_cons, if_neg (by decide), if_pos (by simp [goes_on])] at run
      exact map_succ_inj run
  rw [hasRadix] at rest_eq
  rw [numberRest, rest_eq]

theorem pieceAt_numeral {c : Char} {cs : List Char} (begins : beginsNumeral (c :: cs) = true) :
    pieceAt c cs = ((numberRest c cs).1, some (numberRest c cs).2) := by
  apply pieceAt_number
  · simp only [beginsNumeral, Bool.or_eq_true, Bool.and_eq_true] at begins ⊢
    exact begins.imp_right And.left
  · by_cases digit : c.isDigit = true
    · exact punctuationAt?_eq_none (by decide) digit _
    · obtain ⟨rfl, first⟩ : c = '.' ∧ cs.head?.any Char.isDigit = true := by
        simpa [beginsNumeral, digit] using begins
      exact (punctuationAt?_dot cs).mpr first

/-- A text over which the scanner of numbers runs to its end is one token. -/
theorem scan_of_numberLength {text rest : List Char} {floating : Bool}
    (begins : beginsNumeral (text ++ rest) = true) (nonempty : text ≠ [])
    (run : numberLength (hasRadix (text ++ rest)) false false (text ++ rest) =
      (text.length, floating)) (offset : Nat) :
    scan offset (text ++ rest) =
      ⟨if floating then .floating else .integer, .ofList text,
        ⟨offset, offset + byteLength text⟩⟩ :: scan (offset + byteLength text) rest := by
  obtain ⟨c, cs, rfl⟩ := List.exists_cons_of_ne_nil nonempty
  rw [List.cons_append] at begins run ⊢
  have piece := pieceAt_numeral begins
  rw [numberRest_eq begins run] at piece
  rw [scan, scanFrom_eq_append piece, List.take_left, List.drop_left]
  rfl

/-! ## The numerals, one by one -/

/-- Whether every text of a language begins with a digit, or with a point and a digit. -/
def Begins (language : Language Char) : Prop :=
  ∀ text ∈ language, beginsNumeral text = true

namespace Begins

variable {language later : Language Char}

theorem append {text : List Char} (begins : beginsNumeral text = true) (rest : List Char) :
    beginsNumeral (text ++ rest) = true := by
  match text with
  | [] => cases begins
  | [c] =>
      have digit : c.isDigit = true := by simpa [beginsNumeral] using begins
      simp [beginsNumeral, digit]
  | c :: d :: text => exact begins

theorem mul (begins : Begins language) (later : Language Char) : Begins (language * later) := by
  intro text member
  obtain ⟨front, front_mem, back, -, rfl⟩ := Language.mem_mul.mp member
  exact append (begins front front_mem) back

theorem add (begins : Begins language) (begins' : Begins later) : Begins (language + later) := by
  rintro text (member | member)
  · exact begins text member
  · exact begins' text member

theorem anyOf {chars : List Char} (all : ∀ c ∈ chars, c.isDigit = true) : Begins (anyOf chars) := by
  rintro _ ⟨c, member, rfl⟩
  simp [beginsNumeral, all c member]

theorem digits : Begins (digits Char.isDigit) := by
  rintro text ⟨-, ⟨c, first, digit⟩, -⟩
  obtain ⟨more, rfl⟩ := List.head?_eq_some_iff.mp first
  simp [beginsNumeral, digit]

theorem point_digits : Begins (point * Token.digits Char.isDigit) := by
  intro text member
  obtain ⟨_, ⟨c, point_mem, rfl⟩, text, ⟨-, ⟨d, first, digit⟩, -⟩, rfl⟩ :=
    Language.mem_mul.mp member
  obtain rfl := List.mem_singleton.mp point_mem
  obtain ⟨more, rfl⟩ := List.head?_eq_some_iff.mp first
  simp [beginsNumeral, digit]

end Begins

/-- Whether every text of a language is one token in front of what ends a numeral. -/
def IsScanned (kind : TokenKind) (language : Language Char) : Prop :=
  ∀ text ∈ language, ∀ rest, EndsNumeral rest → ∀ offset, scan offset (text ++ rest) =
    ⟨kind, .ofList text, ⟨offset, offset + byteLength text⟩⟩ :: scan (offset + byteLength text) rest

theorem IsScanned.add {kind : TokenKind} {language later : Language Char}
    (scanned : IsScanned kind language) (scanned' : IsScanned kind later) :
    IsScanned kind (language + later) := by
  rintro text (member | member)
  · exact scanned text member
  · exact scanned' text member

variable {dotted floating : Bool} {language : Language Char}

theorem hasRadix_eq_false {text rest : List Char} (nonempty : text ≠ [])
    (no_mark : ∀ c ∈ text, c ∉ ['x', 'X', 'b', 'B']) (ends : EndsNumeral rest) :
    hasRadix (text ++ rest) = false := by
  have rest_unmarked : ∀ c ∈ rest.head?, c ∉ ['x', 'X', 'b', 'B'] := by
    intro c first mark
    have part : ∀ c ∈ ['x', 'X', 'b', 'B'], (c.isAlphanum || c = '_') = true := by
      exact forall_mem_of_all (by decide)
    have no_part := (ends.head_cases first).1
    rw [part c mark] at no_part
    cases no_part
  obtain ⟨c, text, rfl⟩ := List.exists_cons_of_ne_nil nonempty
  have unmarked : ∀ d ∈ (text ++ rest).head?, d ∉ ['x', 'X', 'b', 'B'] := by
    cases text with
    | nil => exact rest_unmarked
    | cons d text => simpa using no_mark d (by simp)
  rw [List.cons_append, hasRadix]
  cases first : (text ++ rest).head? with
  | none => simp
  | some d =>
      have no_mark : ['x', 'X', 'b', 'B'].contains d = false := by
        rw [← Bool.not_eq_true, List.contains_iff_mem]
        exact unmarked d first
      rw [Option.any_some, no_mark, Bool.and_false]

/-- A numeral without a radix mark. -/
theorem Takes.isScanned
    (takes : Takes false (false, false) (dotted, floating) EndsNumeral language)
    (begins : Begins language) :
    IsScanned (if floating then .floating else .integer) language := by
  intro text member rest ends offset
  obtain ⟨no_mark, taken⟩ := takes text member
  have nonempty : text ≠ [] := by
    rintro rfl
    cases begins [] member
  have no_radix := hasRadix_eq_false nonempty (no_mark rfl) ends
  apply scan_of_numberLength (Begins.append (begins text member) rest) nonempty
  rw [no_radix, taken rest ends, ends.numberLength_eq]
  simp

/-- A numeral with a radix mark. -/
theorem Takes.scan_eq {marks : List Char} (known : ∀ c ∈ marks, c ∈ ['x', 'X', 'b', 'B'])
    (takes : Takes true (false, false) (dotted, floating) anything
      (Token.anyOf ['0'] * Token.anyOf marks * language)) {text rest : List Char}
    (member : text ∈ Token.anyOf ['0'] * Token.anyOf marks * language)
    (stops : numberLength true dotted floating rest = (0, floating)) (offset : Nat) :
    scan offset (text ++ rest) =
      ⟨if floating then .floating else .integer, .ofList text,
        ⟨offset, offset + byteLength text⟩⟩ :: scan (offset + byteLength text) rest := by
  have taken := (takes text member).2 rest trivial
  obtain ⟨_, marked, digits, -, rfl⟩ := Language.mem_mul.mp member
  obtain ⟨_, ⟨c, zero_mem, rfl⟩, _, ⟨mark, mark_mem, rfl⟩, rfl⟩ := Language.mem_mul.mp marked
  obtain rfl := List.mem_singleton.mp zero_mem
  have has_radix : hasRadix (['0'] ++ [mark] ++ digits ++ rest) = true := by
    simpa [hasRadix] using known mark mark_mem
  apply scan_of_numberLength rfl (by simp)
  rw [has_radix, taken, stops]
  simp

/-- Whether a text of a language does not make a point before it a mark of its own. -/
def GoesOn (language : Language Char) : Prop :=
  ∀ text ∈ language, ∀ rest, dotEndsNumber rest = false → dotEndsNumber (text ++ rest) = false

namespace GoesOn

variable {language later : Language Char}

theorem mul (first : GoesOn language) (second : GoesOn later) : GoesOn (language * later) := by
  intro text member rest open_
  obtain ⟨front, front_mem, back, back_mem, rfl⟩ := Language.mem_mul.mp member
  rw [List.append_assoc]
  exact first front front_mem _ (second back back_mem rest open_)

theorem optional (goes_on : GoesOn language) : GoesOn (optional language) := by
  rintro text (rfl | member) rest open_
  · exact open_
  · exact goes_on text member rest open_

theorem anyOf {chars : List Char} (all : ∀ c ∈ chars, dotEndsNumber [c] = false) :
    GoesOn (anyOf chars) := by
  rintro _ ⟨c, member, rfl⟩ rest -
  exact all c member

theorem digits : GoesOn (digits Char.isDigit) := by
  rintro text ⟨-, ⟨c, first, digit⟩, -⟩ rest -
  obtain ⟨more, rfl⟩ := List.head?_eq_some_iff.mp first
  simp [dotEndsNumber, digit]

/-- What may follow the digits after a point. -/
theorem tail : GoesOn (Token.optional (exponent ['e', 'E']) * Token.optional floatSuffix) := by
  refine mul (optional (mul (anyOf ?_) (mul (optional (anyOf ?_)) digits))) (optional (anyOf ?_))
  all_goals
    exact forall_mem_of_all (by decide)

end GoesOn

theorem takes_decimalDigits {radix : Bool} {state : Bool × Bool} :
    Takes radix state state anything (digits Char.isDigit) :=
  .digits fun _ digit => isPlain_of_isDigit digit radix

theorem takes_exponent :
    Takes false (dotted, floating) (dotted, true) anything (exponent ['e', 'E']) :=
  .exponent (forall_mem_of_all (by decide))

/-- What may follow the digits of a floating-point number. -/
theorem takes_tail {next : List Char → Prop} : Takes false (dotted, true) (dotted, true) next
    (optional (exponent ['e', 'E']) * optional floatSuffix) :=
  takes_exponent.optional.mul (Takes.floatSuffix.optional.mono)

theorem isScanned_decimalFloating : IsScanned .floating decimalFloating := by
  refine .add (.add (.add ?_ ?_) ?_) ?_
  · refine Takes.isScanned (takes_decimalDigits.mul (.point_mul
      (takes_decimalDigits.optional.mul takes_tail) ?_)) (Begins.digits.mul _)
    intro text member rest ends
    exact GoesOn.digits.optional.mul GoesOn.tail text member rest ends.dotEndsNumber_eq
  · refine Takes.isScanned (.point_mul (takes_decimalDigits.mul takes_tail) ?_) ?_
    · intro text member rest ends
      exact GoesOn.digits.mul GoesOn.tail text member rest ends.dotEndsNumber_eq
    · rw [← mul_assoc]
      exact Begins.point_digits.mul _
  · exact Takes.isScanned
      (takes_decimalDigits.mul (takes_exponent.mul Takes.floatSuffix.optional.mono))
      (Begins.digits.mul _)
  · -- The suffix may be the first sign that the number is no integer.
    have suffixed : Takes false (false, false) (false, true) EndsNumeral
        (optional (exponent ['e', 'E']) * floatSuffix) := by
      rw [optional, add_mul, one_mul]
      exact Takes.floatSuffix.mono.add (takes_exponent.mul Takes.floatSuffix.mono)
    exact Takes.isScanned (takes_decimalDigits.mul suffixed) (Begins.digits.mul _)

theorem takes_hexDigits {state : Bool × Bool} :
    Takes true state state anything (digits isHexDigit) := by
  refine .digits fun c digit => ?_
  simp only [isHexDigit, Bool.or_eq_true, List.contains_iff_mem] at digit
  rcases digit with digit | member
  · exact isPlain_of_isDigit digit true
  · have plain : ∀ c ∈ ['a', 'b', 'c', 'd', 'e', 'f', 'A', 'B', 'C', 'D', 'E', 'F'],
        isPlain true c = true := by
      exact forall_mem_of_all (by decide)
    exact plain c member

theorem takes_hexMark {state : Bool × Bool} : Takes true state state anything hexMark :=
  .mul (.anyOf (forall_mem_of_all (by decide)))
    (.anyOf (forall_mem_of_all (by decide)))

theorem takes_integerSuffix {radix : Bool} {state : Bool × Bool} :
    Takes radix state state anything (optional (anyOf ['l', 'L'])) := by
  refine .optional (.anyOf (forall_mem_of_all ?_))
  cases radix <;> decide

/-- The decimal digits. -/
def decimalDigits : List Char := ['0', '1', '2', '3', '4', '5', '6', '7', '8', '9']

theorem takes_underscores {radix : Bool} {state : Bool × Bool} :
    Takes radix state state anything underscores := by
  refine .of_plain fun text member c found => ?_
  rw [member c found]
  cases radix <;> rfl

theorem isDigit_of_mem {c : Char} (member : c ∈ decimalDigits) : c.isDigit = true := by
  have checked : ∀ c ∈ decimalDigits, c.isDigit = true :=
    List.forall_iff_forall_mem.mp (by decide)
  exact checked c member

theorem takes_oneDigit {radix : Bool} {state : Bool × Bool} {chars : List Char}
    (all : chars ⊆ decimalDigits) :
    Takes radix state state anything (anyOf chars) :=
  .anyOf fun _ member => isPlain_of_isDigit (isDigit_of_mem (all member)) radix

theorem begins_oneDigit {chars : List Char}
    (all : chars ⊆ decimalDigits) : Begins (anyOf chars) :=
  .anyOf fun _ member => isDigit_of_mem (all member)

theorem takes_listedDigits {radix : Bool} {state : Bool × Bool} {chars : List Char}
    (all : chars ⊆ decimalDigits) :
    Takes radix state state anything (digits chars.contains) := by
  refine .digits fun c digit => isPlain_of_isDigit (isDigit_of_mem (all ?_)) radix
  simpa using digit

theorem IsScanned.of_radix {marks : List Char} (known : ∀ c ∈ marks, c ∈ ['x', 'X', 'b', 'B'])
    (takes : Takes true (false, false) (dotted, floating) anything
      (anyOf ['0'] * anyOf marks * language)) :
    IsScanned (if floating then .floating else .integer)
      (anyOf ['0'] * anyOf marks * language) :=
  fun _ member _ ends offset =>
    takes.scan_eq known member (ends.numberLength_eq true dotted floating) offset

theorem isScanned_integerLiteral : IsScanned .integer integerLiteral := by
  rw [integerLiteral, add_mul, add_mul, add_mul]
  refine .add (.add (.add ?_ ?_) ?_) ?_
  · have decimal : Takes false (false, false) (false, false) anything decimalNumeral :=
      (takes_oneDigit (by decide)).add ((takes_oneDigit (by decide)).mul
        (takes_underscores.mul takes_decimalDigits).optional)
    exact Takes.isScanned (decimal.mul takes_integerSuffix.mono)
      (.mul (.add (begins_oneDigit (by decide)) (.mul (begins_oneDigit (by decide)) _)) _)
  · have octal : Takes false (false, false) (false, false) anything octalNumeral :=
      (takes_oneDigit (by decide)).mul (takes_underscores.mul (takes_listedDigits (by decide)))
    exact Takes.isScanned (octal.mul takes_integerSuffix.mono)
      (.mul (.mul (begins_oneDigit (by decide)) _) _)
  · rw [hexNumeral, mul_assoc]
    exact .of_radix (by simp) (takes_hexMark.mul (takes_hexDigits.mul takes_integerSuffix))
  · rw [binaryNumeral, mul_assoc]
    have mark : Takes true (false, false) (false, false) anything
        (anyOf ['0'] * anyOf ['b', 'B']) :=
      .mul (takes_oneDigit (by decide)) (.anyOf (forall_mem_of_all (by decide)))
    exact .of_radix (by simp)
      (mark.mul ((takes_listedDigits (by decide)).mul takes_integerSuffix))

theorem isScanned_hexFloating : IsScanned .floating hexFloating := by
  rw [hexFloating, hexNumeral, mul_assoc]
  have power : Takes true (false, false) (false, true) anything (exponent ['p', 'P']) :=
    .exponent (forall_mem_of_all (by decide))
  have suffix : Takes true (false, true) (false, true) anything (optional floatSuffix) :=
    .optional (.anyOf (forall_mem_of_all (by decide)))
  exact .of_radix (by simp) (takes_hexMark.mul (takes_hexDigits.mul (power.mul suffix)))

/-- A hexadecimal literal with a point is a mark with digits, if any, up to the point. -/
theorem exists_of_mem_hexPointFloating {text : List Char} (member : text ∈ hexPointFloating) :
    ∃ front ∈ hexMark * optional (digits isHexDigit), ∃ back, text = front ++ '.' :: back := by
  obtain ⟨significand, significand_mem, power, -, rfl⟩ := Language.mem_mul.mp member
  rcases significand_mem with whole | fraction
  · obtain ⟨_, front_mem, _, ⟨c, point_mem, rfl⟩, rfl⟩ := Language.mem_mul.mp whole
    obtain ⟨mark, mark_mem, number, number_mem, rfl⟩ := Language.mem_mul.mp front_mem
    obtain rfl := List.mem_singleton.mp point_mem
    exact ⟨_, Language.append_mem_mul mark_mem (.inr number_mem), power, by simp⟩
  · obtain ⟨front, front_mem, _, pointed, rfl⟩ := Language.mem_mul.mp fraction
    obtain ⟨_, ⟨c, point_mem, rfl⟩, number, -, rfl⟩ := Language.mem_mul.mp pointed
    obtain rfl := List.mem_singleton.mp point_mem
    exact ⟨front, front_mem, number ++ power, by simp⟩

/-- In front of what ends a numeral, an integer literal and a floating-point literal are one token
of their kind. A hexadecimal floating-point literal with a point is not: what stands before the
point is an integer token, and scanning goes on at the point. -/
theorem scan_numeral {text rest : List Char} (ends : EndsNumeral rest) (offset : Nat) :
    (text ∈ integerLiteral → scan offset (text ++ rest) =
      ⟨.integer, .ofList text, ⟨offset, offset + byteLength text⟩⟩ ::
        scan (offset + byteLength text) rest) ∧
    (text ∈ decimalFloating + hexFloating → scan offset (text ++ rest) =
      ⟨.floating, .ofList text, ⟨offset, offset + byteLength text⟩⟩ ::
        scan (offset + byteLength text) rest) ∧
    (text ∈ hexPointFloating → ∃ front back, text = front ++ '.' :: back ∧
      scan offset (text ++ rest) =
        ⟨.integer, .ofList front, ⟨offset, offset + byteLength front⟩⟩ ::
          scan (offset + byteLength front) ('.' :: back ++ rest)) := by
  refine ⟨fun integer => ?_, fun floating => ?_, fun pointed => ?_⟩
  · exact isScanned_integerLiteral text integer rest ends offset
  · exact isScanned_decimalFloating.add isScanned_hexFloating text floating rest ends offset
  · obtain ⟨front, front_mem, back, rfl⟩ := exists_of_mem_hexPointFloating pointed
    have takes : Takes true (false, false) (false, false) anything
        (hexMark * optional (digits isHexDigit)) := takes_hexMark.mul takes_hexDigits.optional
    refine ⟨front, back, rfl, ?_⟩
    rw [List.append_assoc]
    exact takes.scan_eq (by simp) front_mem (by simp [numberLength_cons]) offset

theorem singleton_mem_anyOf {c : Char} {chars : List Char} (member : c ∈ chars) :
    [c] ∈ anyOf chars :=
  ⟨c, member, rfl⟩

theorem mem_exponent_sample {letter : Char} {letters : List Char} (member : letter ∈ letters) :
    [letter, '-', '3'] ∈ exponent letters := by
  have sign : ['-'] ∈ optional (anyOf ['+', '-']) := .inr (singleton_mem_anyOf (by simp))
  have number : ['3'] ∈ digits Char.isDigit := ⟨by simp, ⟨'3', rfl, rfl⟩, ⟨'3', rfl, rfl⟩⟩
  exact Language.append_mem_mul (singleton_mem_anyOf member) (Language.append_mem_mul sign number)

theorem mem_integerLiteral_sample : "0b1_0L".toList ∈ integerLiteral := by
  have mark : ['0', 'b'] ∈ anyOf ['0'] * anyOf ['b', 'B'] :=
    Language.append_mem_mul (singleton_mem_anyOf (c := '0') (by simp))
      (singleton_mem_anyOf (by simp))
  have number : ['1', '_', '0'] ∈ digits isBinaryDigit :=
    ⟨by simp [isBinaryDigit], ⟨'1', rfl, rfl⟩, ⟨'0', rfl, rfl⟩⟩
  have suffix : ['L'] ∈ optional (anyOf ['l', 'L']) := .inr (singleton_mem_anyOf (by simp))
  have whole : ['0', 'b', '1', '_', '0'] ∈
      decimalNumeral + octalNumeral + hexNumeral + binaryNumeral :=
    .inr (Language.append_mem_mul mark number)
  exact Language.append_mem_mul whole suffix

theorem mem_decimalFloating_sample : ".5e-3f".toList ∈ decimalFloating + hexFloating := by
  have dot : ['.'] ∈ point := singleton_mem_anyOf (by simp)
  have number : ['5'] ∈ digits Char.isDigit := ⟨by simp, ⟨'5', rfl, rfl⟩, ⟨'5', rfl, rfl⟩⟩
  have power : ['e', '-', '3'] ∈ optional (exponent ['e', 'E']) :=
    .inr (mem_exponent_sample (by simp))
  have suffix : ['f'] ∈ optional floatSuffix := .inr (singleton_mem_anyOf (by simp))
  have pointed := Language.append_mem_mul dot
    (Language.append_mem_mul number (Language.append_mem_mul power suffix))
  exact .inl (.inl (.inl (.inr pointed)))

theorem mem_hexPointFloating_sample : "0x1.8p-3".toList ∈ hexPointFloating := by
  have mark : ['0', 'x'] ∈ hexMark :=
    Language.append_mem_mul (singleton_mem_anyOf (c := '0') (by simp))
      (singleton_mem_anyOf (by simp))
  have one : ['1'] ∈ optional (digits isHexDigit) :=
    .inr ⟨by simp [isHexDigit], ⟨'1', rfl, rfl⟩, ⟨'1', rfl, rfl⟩⟩
  have dot : ['.'] ∈ point := singleton_mem_anyOf (by simp)
  have eight : ['8'] ∈ digits isHexDigit :=
    ⟨by simp [isHexDigit], ⟨'8', rfl, rfl⟩, ⟨'8', rfl, rfl⟩⟩
  have power : ['p', '-', '3'] ∈ exponent ['p', 'P'] := mem_exponent_sample (by simp)
  have significand : ['0', 'x', '1', '.', '8'] ∈ hexNumeral * point +
      hexMark * optional (digits isHexDigit) * (point * digits isHexDigit) :=
    .inr (Language.append_mem_mul (Language.append_mem_mul mark one)
      (Language.append_mem_mul dot eight))
  have no_suffix : [] ∈ optional floatSuffix := .inl rfl
  exact Language.append_mem_mul significand (Language.append_mem_mul power no_suffix)

/-- In front of a parenthesis, `0b1_0L` and `.5e-3f` are one token each, and `0x1.8p-3` is cut at
its point. -/
theorem scan_numeral_samples :
    EndsNumeral [')'] ∧
      scan 0 ("0b1_0L".toList ++ [')']) = ⟨.integer, "0b1_0L", ⟨0, 6⟩⟩ :: scan 6 [')'] ∧
      scan 0 (".5e-3f".toList ++ [')']) = ⟨.floating, ".5e-3f", ⟨0, 6⟩⟩ :: scan 6 [')'] ∧
      ∃ front back, "0x1.8p-3".toList = front ++ '.' :: back ∧
        scan 0 ("0x1.8p-3".toList ++ [')']) =
          ⟨.integer, .ofList front, ⟨0, 0 + byteLength front⟩⟩ ::
            scan (0 + byteLength front) ('.' :: back ++ [')']) := by
  have ends : EndsNumeral [')'] := by
    rintro _ ⟨rfl⟩
    exact .inr (by simp)
  exact ⟨ends, (scan_numeral ends 0).1 mem_integerLiteral_sample,
    (scan_numeral ends 0).2.1 mem_decimalFloating_sample,
    (scan_numeral ends 0).2.2 mem_hexPointFloating_sample⟩

/-- The literal `0x1.8p-3` is cut into four tokens. -/
theorem scan_hexPoint :
    "0x1.8p-3".toList ∈ hexPointFloating ∧ scan 0 "0x1.8p-3".toList =
      [⟨.integer, "0x1", ⟨0, 3⟩⟩, ⟨.floating, ".8p", ⟨3, 6⟩⟩, ⟨.minus, "-", ⟨6, 7⟩⟩,
        ⟨.integer, "3", ⟨7, 8⟩⟩] :=
  ⟨mem_hexPointFloating_sample, by decide +kernel⟩

end JavaOutline.Token
