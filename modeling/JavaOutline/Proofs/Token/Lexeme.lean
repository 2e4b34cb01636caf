import Mathlib.Computability.Language
import Mathlib.Data.List.TakeWhile
import JavaOutline.Token.Scan

/-!
# Texts that scan by themselves

A lexeme is a token without its place. A text scans by itself if it is cut into the same lexemes
whatever stands behind it, as long as that begins with a character that ends it. Texts that scan by
themselves can be joined, which is how the tokens of a rendered expression are found without
scanning it as a whole.
-/

namespace JavaOutline.Token

/-- What a token is and its characters. -/
abbrev Lexeme : Type := TokenKind × String

/-- The lexeme of a token. -/
def lexeme (token : Token) : Lexeme := (token.kind, token.text)

/-- The tokens that have the given lexemes and touch each other. -/
def spelled (lexemes : List Lexeme) : Language Token :=
  {tokens | tokens.map lexeme = lexemes ∧
    tokens.IsChain fun token following => token.span.stop = following.span.start}

/-- The one token of a lexeme. -/
theorem mem_spelled_singleton {kind : TokenKind} {text : String} {tokens : List Token} :
    tokens ∈ spelled [(kind, text)] ↔ ∃ span, tokens = [⟨kind, text, span⟩] := by
  constructor
  · rintro ⟨lexemes_eq, -⟩
    obtain ⟨⟨_, _, span⟩, rfl, token_eq⟩ := List.map_eq_singleton_iff.mp lexemes_eq
    obtain ⟨rfl, rfl⟩ := Prod.mk.inj token_eq
    exact ⟨span, rfl⟩
  · rintro ⟨span, rfl⟩
    exact ⟨rfl, .singleton _⟩

/-- A text is cut off as tokens of a spelling in front of any text that is allowed next. -/
def Scans (text : String) (next : List Char → Prop) (spelling : Language Token) : Prop :=
  ∀ offset rest, next rest → ∃ tokens ∈ spelling,
    scanFrom 0 offset (text.toList ++ rest) =
      tokens ++ scanFrom 0 (offset + byteLength text.toList) rest

namespace Scans

variable {text following : String} {next next' : List Char → Prop}
  {spelling later : Language Token}

theorem mono (scans : Scans text next spelling) (narrower : ∀ rest, next' rest → next rest) :
    Scans text next' spelling :=
  fun offset rest allowed => scans offset rest (narrower rest allowed)

/-- Texts that scan by themselves can be joined. -/
theorem append (scans : Scans text next spelling) (scans' : Scans following next' later)
    (allows : ∀ rest, next' rest → next (following.toList ++ rest)) :
    Scans (text ++ following) next' (spelling * later) := by
  intro offset rest allowed
  obtain ⟨first, first_mem, first_eq⟩ := scans offset _ (allows rest allowed)
  obtain ⟨second, second_mem, second_eq⟩ :=
    scans' (offset + byteLength text.toList) rest allowed
  refine ⟨first ++ second, Language.append_mem_mul first_mem second_mem, ?_⟩
  rw [String.toList_append, List.append_assoc, first_eq, second_eq, byteLength_append,
    Nat.add_assoc, List.append_assoc]

/-- A blank leaves no token. -/
theorem blank : Scans " " (fun _ => True) 1 :=
  fun _ _ _ => ⟨[], rfl, rfl⟩

theorem append_blank (scans : Scans text next spelling) (allows : ∀ rest, next (' ' :: rest)) :
    Scans (text ++ " ") (fun _ => True) spelling := by
  have joined := scans.append blank fun rest _ => allows rest
  rwa [mul_one] at joined

end Scans

/-- A text that is one piece scans by itself. -/
theorem scans_of_pieceAt {c : Char} {cs : List Char} {kind : TokenKind} {next : List Char → Prop}
    (piece : ∀ rest, next rest → pieceAt c (cs ++ rest) = (cs.length, some kind)) :
    Scans (.ofList (c :: cs)) next (spelled [(kind, .ofList (c :: cs))]) := by
  intro offset rest allowed
  refine ⟨_, mem_spelled_singleton.mpr ⟨⟨offset, offset + byteLength (c :: cs)⟩, rfl⟩, ?_⟩
  rw [String.toList_ofList, List.cons_append, scanFrom, piece rest allowed]
  simp only [scanFrom_skip cs.length, List.take_left, List.drop_left, byteLength, Nat.add_assoc,
    List.cons_append, List.nil_append]

/-- Whether some text goes on with a character that ends every word and every number, or with a
dot if one is allowed. -/
def Ends (dot : Bool) (rest : List Char) : Prop :=
  ∃ c more, rest = c :: more ∧ (c ∈ [' ', ')', ']', ',', '[', '('] ∨ dot ∧ c = '.')

theorem ends_cons {dot : Bool} {c : Char} (rest : List Char)
    (allowed : c ∈ [' ', ')', ']', ',', '[', '('] ∨ dot ∧ c = '.') : Ends dot (c :: rest) :=
  ⟨c, rest, rfl, allowed⟩

theorem Ends.withDot {dot : Bool} {rest : List Char} (ends : Ends dot rest) : Ends true rest := by
  obtain ⟨c, more, rfl, stop | ⟨-, rfl⟩⟩ := ends
  · exact ⟨c, more, rfl, .inl stop⟩
  · exact ⟨'.', more, rfl, .inr ⟨rfl, rfl⟩⟩

/-! ## Words -/

/-- No identifier begins with a character of some ranges, which are looked up one by one. -/
theorem isIdentifierStart_eq_false {c : Char} {ranges : List (Nat × Nat)}
    (found : inRanges c.toNat ranges = true)
    (apart : ∀ range ∈ ranges, ∀ n ∈ List.range' range.1 (range.2 + 1 - range.1),
      inRanges n identifierStartRanges = false ∧ n ≠ '_'.toNat ∧ n ≠ '$'.toNat) :
    isIdentifierStart c = false := by
  obtain ⟨range, member, low_le, le_high⟩ := exists_range_of_inRanges found
  obtain ⟨outside, no_line, no_dollar⟩ :=
    apart range member c.toNat (by rw [List.mem_range'_1]; omega)
  have named : c ≠ '_' ∧ c ≠ '$' := by
    constructor
    · rintro rfl; exact no_line rfl
    · rintro rfl; exact no_dollar rfl
  simp [isIdentifierStart, outside, named]

set_option maxRecDepth 2000 in
theorem isWhiteSpace_eq_false {c : Char} (start : isIdentifierStart c = true) :
    isWhiteSpace c = false := by
  by_contra blank
  have := isIdentifierStart_eq_false (Bool.eq_true_of_not_eq_false blank) (by decide)
  simp [this] at start

theorem isDigit_eq_false {c : Char} (start : isIdentifierStart c = true) : c.isDigit = false := by
  by_contra digit
  have bounds : 48 ≤ c.toNat ∧ c.toNat ≤ 57 := by
    simp only [Bool.not_eq_false, Char.isDigit, Bool.and_eq_true, decide_eq_true_eq,
      UInt32.le_iff_toNat_le] at digit
    exact digit
  have found : inRanges c.toNat [(48, 57)] = true := by
    simp [inRanges, bounds]
  have := isIdentifierStart_eq_false found (by decide)
  simp [this] at start

/-- No punctuation mark begins with a character that passes a test which they all fail. -/
theorem punctuationAt?_eq_none {c : Char} {p : Char → Bool}
    (apart : ∀ mark ∈ punctuation, mark.1.head?.all fun d => !p d) (passes : p c = true)
    (cs : List Char) : punctuationAt? (c :: cs) = none := by
  have unmarked : punctuation.find? (fun mark => mark.1.isPrefixOf (c :: cs)) = none := by
    rw [List.find?_eq_none]
    intro mark member
    have failing := apart mark member
    have nonempty : ∀ mark ∈ punctuation, mark.1 ≠ [] := by decide
    match chars_eq : mark.1 with
    | [] => exact absurd chars_eq (nonempty mark member)
    | d :: ds =>
        rw [chars_eq] at failing
        have differs : d ≠ c := by
          rintro rfl
          simp [passes] at failing
        simp [List.isPrefixOf, differs]
  rw [punctuationAt?, unmarked, Option.filter_none]

/-- Whether a text is an identifier or a reserved word. -/
def isWordText (text : String) : Bool :=
  match text.toList with
  | [] => false
  | c :: cs => isIdentifierStart c && cs.all isIdentifierPart

/-- Where a text goes on after a word is the end of the longest word it begins with. -/
theorem takeWhile_append_of_stops {word rest : List Char}
    (parts : word.all isIdentifierPart = true)
    (stops : ∀ c ∈ rest.head?, isIdentifierPart c = false) :
    (word ++ rest).takeWhile isIdentifierPart = word := by
  rw [List.takeWhile_append, List.takeWhile_eq_self_iff.mpr (by simpa using parts), if_pos rfl]
  cases rest with
  | nil => simp
  | cons c cs => simp [stops c rfl]

theorem exists_cons_of_isWordText {text : String} (word : isWordText text = true) :
    ∃ c cs, text.toList = c :: cs ∧ isIdentifierStart c = true ∧
      cs.all isIdentifierPart = true := by
  cases chars_eq : text.toList with
  | nil => simp [isWordText, chars_eq] at word
  | cons c cs =>
      simp only [isWordText, chars_eq, Bool.and_eq_true] at word
      exact ⟨c, cs, rfl, word⟩

theorem pieceAt_word {c : Char} {cs rest : List Char} (start : isIdentifierStart c = true)
    (parts : cs.all isIdentifierPart = true) (ends : Ends true rest) :
    pieceAt c (cs ++ rest) = (cs.length, some .word) := by
  have differs : ∀ d ∈ ['/', '"', '\'', '.'], c ≠ d := by
    -- Not by `decide` alone: there is an instance that would try all characters.
    have checked : ∀ d ∈ ['/', '"', '\'', '.'], isIdentifierStart d = false :=
      List.forall_iff_forall_mem.mp (by decide)
    rintro d member rfl
    simp [checked _ member] at start
  have whole : (cs ++ rest).takeWhile isIdentifierPart = cs := by
    apply takeWhile_append_of_stops parts
    obtain ⟨d, more, rfl, member⟩ := ends
    have checked : ∀ d ∈ [' ', ')', ']', ',', '[', '(', '.'], isIdentifierPart d = false :=
      List.forall_iff_forall_mem.mp (by decide)
    simp only [List.head?_cons, Option.mem_some_iff, forall_eq']
    apply checked
    grind
  have unmarked := punctuationAt?_eq_none (by decide) start (cs ++ rest)
  have unquoted : ['"', '"', '"'].isPrefixOf (c :: (cs ++ rest)) = false := by
    simp [List.isPrefixOf, (differs '"' (by simp)).symm]
  simp [pieceAt, tokenAt, isWhiteSpace_eq_false start, differs, unquoted, unmarked,
    isDigit_eq_false start, start, whole]

theorem scans_word {text : String} (word : isWordText text = true) :
    Scans text (Ends true) (spelled [(.word, text)]) := by
  obtain ⟨c, cs, chars_eq, start, parts⟩ := exists_cons_of_isWordText word
  obtain rfl : text = .ofList (c :: cs) := by rw [← chars_eq, String.ofList_toList]
  exact scans_of_pieceAt fun rest ends => pieceAt_word start parts ends

/-! ## Literals -/

/-- Whether a text by itself is one token of a kind. -/
def isLexeme (kind : TokenKind) (text : String) : Bool :=
  (scan 0 text.toList).map lexeme = [(kind, text)]

theorem length_text_le {skip offset : Nat} {cs : List Char} {token : Token}
    (member : token ∈ scanFrom skip offset cs) : token.text.toList.length ≤ cs.length := by
  induction cs generalizing skip offset with
  | nil => simp [scanFrom] at member
  | cons c cs induction =>
      cases skip with
      | succ skip => exact Nat.le_succ_of_le (induction member)
      | zero =>
          simp only [scanFrom] at member
          cases kind_eq : (pieceAt c cs).2 with
          | none =>
              simp only [kind_eq] at member
              exact Nat.le_succ_of_le (induction member)
          | some kind =>
              simp only [kind_eq, List.mem_cons] at member
              rcases member with rfl | member
              · simp
              · exact Nat.le_succ_of_le (induction member)

theorem exists_pieceAt_of_isLexeme {kind : TokenKind} {text : String}
    (alone : isLexeme kind text = true) :
    ∃ c cs more, text = .ofList (c :: cs) ∧ pieceAt c cs = (more, some kind) ∧
      cs.length ≤ more := by
  cases chars_eq : text.toList with
  | nil => simp [isLexeme, chars_eq, scan, scanFrom] at alone
  | cons c cs =>
      obtain rfl : text = .ofList (c :: cs) := by rw [← chars_eq, String.ofList_toList]
      rcases piece_eq : pieceAt c cs with ⟨more, kind?⟩
      simp only [isLexeme, String.toList_ofList, scan, scanFrom, piece_eq,
        decide_eq_true_eq] at alone
      cases kind? with
      | none =>
          simp only at alone
          -- After a blank there is no room for a token as long as the text.
          obtain ⟨token, token_eq, lexeme_eq⟩ := List.map_eq_singleton_iff.mp alone
          have member : token ∈ scanFrom more (0 + c.utf8Size) cs :=
            token_eq ▸ List.mem_singleton_self token
          have length_le := length_text_le member
          obtain ⟨-, text_eq⟩ := Prod.mk.inj lexeme_eq
          rw [text_eq, String.toList_ofList, List.length_cons] at length_le
          omega
      | some found =>
          simp only [List.map_cons, List.cons.injEq, lexeme, Prod.mk.injEq,
            String.ofList_inj, true_and] at alone
          obtain ⟨⟨rfl, take_eq⟩, -⟩ := alone
          exact ⟨c, cs, more, rfl, piece_eq, List.take_eq_self_iff cs |>.mp take_eq⟩

/-- Whether a character begins the exponent of a number. -/
def isExponent (radix : Bool) (c : Char) : Bool :=
  if radix then c = 'p' || c = 'P' else c = 'e' || c = 'E'

theorem numberLength_nil (radix dotted floating : Bool) :
    numberLength radix dotted floating [] = (0, floating) :=
  rfl

/-- A number goes on with an exponent, with a letter or digit, with its dot, or not at all. -/
theorem numberLength_cons (radix dotted floating : Bool) (c : Char) (cs : List Char) :
    numberLength radix dotted floating (c :: cs) =
      if c.isAlphanum || c = '_' then
        if isExponent radix c then
          if cs.head?.any fun sign => sign = '+' || sign = '-' then
            (numberLength radix dotted true (cs.drop 1)).map (· + 2) id
          else (numberLength radix dotted true cs).map (· + 1) id
        else
          (numberLength radix dotted
            (floating || !radix && ['f', 'F', 'd', 'D'].contains c) cs).map (· + 1) id
      else if c = '.' && !dotted && !radix && !dotEndsNumber cs then
        (numberLength radix true true cs).map (· + 1) id
      else (0, floating) := by
  cases cs <;> cases radix <;> rfl

theorem numberLength_le (radix dotted floating : Bool) (cs : List Char) :
    (numberLength radix dotted floating cs).1 ≤ cs.length := by
  induction length_eq : cs.length using Nat.strong_induction_on generalizing cs dotted floating with
  | _ n induction =>
      cases cs with
      | nil => simp [numberLength_nil]
      | cons c cs =>
          rw [List.length_cons] at length_eq
          have after := fun dotted floating =>
            induction cs.length (by omega) dotted floating cs rfl
          rw [numberLength_cons]
          split_ifs with part exponent signed
          · obtain ⟨sign, more, rfl⟩ : ∃ sign more, cs = sign :: more := by
              cases cs <;> simp at signed ⊢
            rw [List.length_cons] at length_eq
            have := induction more.length (by omega) dotted true more rfl
            simp only [List.drop_one, List.tail_cons, Prod.map_fst]
            omega
          all_goals simp only [Prod.map_fst]
          · have := after dotted true
            omega
          · have := after dotted (floating || !radix && ['f', 'F', 'd', 'D'].contains c)
            omega
          · have := after true true
            omega
          · omega

/-- A number ends where it ends by itself, if what follows does not begin with a dot. -/
theorem numberLength_append {rest : List Char} (ends : Ends false rest)
    (radix dotted floating : Bool) (cs : List Char) :
    numberLength radix dotted floating (cs ++ rest) = numberLength radix dotted floating cs := by
  obtain ⟨d, more, rfl, stop | ⟨dot, -⟩⟩ := ends
  swap
  · cases dot
  have checked : ∀ d ∈ [' ', ')', ']', ',', '[', '('],
      (d.isAlphanum || d = '_') = false ∧ d ≠ '.' ∧ (d = '+' || d = '-') = false ∧
        dotEndsNumber [d] = false :=
    List.forall_iff_forall_mem.mp (by decide)
  obtain ⟨no_part, no_dot, unsigned, goes_on⟩ := checked d stop
  induction length_eq : cs.length using Nat.strong_induction_on generalizing cs dotted floating with
  | _ n induction =>
      cases cs with
      | nil => simp [numberLength_cons, no_part, no_dot, numberLength_nil]
      | cons c cs =>
          rw [List.length_cons] at length_eq
          have after := fun dotted floating =>
            induction cs.length (by omega) dotted floating cs rfl
          have dot_eq : dotEndsNumber (cs ++ d :: more) = dotEndsNumber cs := by
            cases cs with
            | nil => simpa [dotEndsNumber] using goes_on
            | cons => rfl
          rw [List.cons_append, numberLength_cons, numberLength_cons, dot_eq]
          simp only [after]
          cases cs with
          | nil => simp [unsigned]
          | cons sign cs =>
              rw [List.length_cons] at length_eq
              simp [induction cs.length (by omega) dotted true cs rfl]

/-- A dot begins a number exactly in front of a digit. -/
theorem punctuationAt?_dot (cs : List Char) :
    punctuationAt? ('.' :: cs) = none ↔ cs.head?.any Char.isDigit = true := by
  cases cs with
  | nil => decide
  | cons d ds =>
      by_cases dots : ['.', '.', '.'].isPrefixOf ('.' :: d :: ds) = true
      · have found : punctuation.find? (fun mark => mark.1.isPrefixOf ('.' :: d :: ds)) =
            some (['.', '.', '.'], .ellipsis) := by
          simp [punctuation, dots]
        obtain ⟨rfl, -⟩ : '.' = d ∧ _ := by simpa [List.isPrefixOf] using dots
        simp [punctuationAt?, found]
      · have found : punctuation.find? (fun mark => mark.1.isPrefixOf ('.' :: d :: ds)) =
            some (['.'], .dot) := by
          simp [punctuation, dots]
        simp [punctuationAt?, found]

/-- In front of a word a dot is a token. -/
theorem scans_dot :
    Scans "." (fun rest => ∃ c more, rest = c :: more ∧ isIdentifierStart c = true)
      (spelled [(.dot, ".")]) := by
  apply scans_of_pieceAt
  rintro _ ⟨c, more, rfl, start⟩
  have no_dot : '.' ≠ c := by
    rintro rfl
    exact absurd start (by decide)
  have found : punctuationAt? ('.' :: c :: more) = some (['.'], .dot) := by
    simp [punctuationAt?, punctuation, List.isPrefixOf, no_dot, isDigit_eq_false start]
  have visible : isWhiteSpace '.' = false := by decide
  simp [pieceAt, tokenAt, visible, found]

/-- What a literal begins with. -/
theorem literal_cases {c : Char} {cs : List Char} {kind : TokenKind} {more : Nat}
    (piece : pieceAt c cs = (more, some kind)) (literal : kind.isLiteral = true) :
    ['"', '"', '"'].isPrefixOf (c :: cs) = true ∧ kind = .textBlock ∨
    ['"', '"', '"'].isPrefixOf (c :: cs) = false ∧
      (c = '"' ∧ kind = .string ∨ c = '\'' ∧ kind = .character ∨
        isWhiteSpace c = false ∧ punctuationAt? (c :: cs) = none ∧
          (c.isDigit || c = '.') = true ∧ numberRest c cs = (more, kind)) := by
  have unpunctuated : ∀ mark ∈ punctuation, mark.2.isLiteral = false := by decide
  have token : isWhiteSpace c = false ∧ tokenAt c cs = (more, kind) := by
    unfold pieceAt at piece
    split at piece
    · simp at piece
    · rename_i visible
      refine ⟨by simpa using visible, ?_⟩
      split at piece
      · simp at piece
      · split at piece
        · simp at piece
        · simp only [Prod.mk.injEq, Option.some.injEq] at piece
          exact Prod.ext piece.1 piece.2
  obtain ⟨visible, token⟩ := token
  unfold tokenAt at token
  split at token
  · rename_i block
    exact .inl ⟨block, (Prod.mk.inj token).2.symm⟩
  · rename_i block
    refine .inr ⟨Bool.eq_false_of_not_eq_true block, ?_⟩
    split at token
    · rename_i mark found mark_eq
      obtain ⟨-, rfl⟩ := Prod.mk.inj token
      have member := List.mem_of_find?_eq_some (Option.eq_some_of_filter_eq_some mark_eq)
      simp [unpunctuated _ member] at literal
    · rename_i unmarked
      split at token
      · exact .inl ⟨‹_›, (Prod.mk.inj token).2.symm⟩
      · split at token
        · exact .inr (.inl ⟨‹_›, (Prod.mk.inj token).2.symm⟩)
        · split at token
          · exact .inr (.inr ⟨visible, unmarked, ‹_›, token⟩)
          · split at token
            · obtain ⟨-, rfl⟩ := Prod.mk.inj token
              simp [TokenKind.isLiteral] at literal
            · obtain ⟨-, rfl⟩ := Prod.mk.inj token
              simp [TokenKind.isLiteral] at literal

theorem numberRest_append {c : Char} {cs rest : List Char} (ends : Ends false rest) :
    numberRest c (cs ++ rest) = numberRest c cs := by
  have radix_eq : (cs ++ rest).head?.any (['x', 'X', 'b', 'B'].contains ·) =
      cs.head?.any (['x', 'X', 'b', 'B'].contains ·) := by
    cases cs with
    | cons => rfl
    | nil =>
        obtain ⟨d, more, rfl, stop | ⟨dot, -⟩⟩ := ends
        · have checked : ∀ d ∈ [' ', ')', ']', ',', '[', '('],
              ['x', 'X', 'b', 'B'].contains d = false :=
            List.forall_iff_forall_mem.mp (by decide)
          simpa using checked d stop
        · cases dot
  simp only [numberRest, radix_eq, numberLength_append ends]

theorem pieceAt_number {c : Char} {cs : List Char} (begins : (c.isDigit || c = '.') = true)
    (unmarked : punctuationAt? (c :: cs) = none) :
    pieceAt c cs = ((numberRest c cs).1, some (numberRest c cs).2) := by
  have differs : ∀ d ∈ ['/', '"', '\''], c ≠ d := by
    have checked : ∀ d ∈ ['/', '"', '\''], (d.isDigit || d = '.') = false :=
      List.forall_iff_forall_mem.mp (by decide)
    rintro d member rfl
    simp [checked _ member] at begins
  have visible : isWhiteSpace c = false := by
    by_contra white
    obtain ⟨range, member, low_le, le_high⟩ :=
      exists_range_of_inRanges (Bool.eq_true_of_not_eq_false white)
    have apart : ∀ range ∈ whiteSpaceRanges, range.2 < 46 ∨ 57 < range.1 := by decide
    have bounds : 46 ≤ c.toNat ∧ c.toNat ≤ 57 := by
      simp only [Char.isDigit, Bool.or_eq_true, Bool.and_eq_true, decide_eq_true_eq,
        UInt32.le_iff_toNat_le, ge_iff_le] at begins
      change 48 ≤ c.toNat ∧ c.toNat ≤ 57 ∨ c = '.' at begins
      rcases begins with digit | rfl
      · omega
      · decide
    have := apart range member
    omega
  have unquoted : ['"', '"', '"'].isPrefixOf (c :: cs) = false := by
    simp [List.isPrefixOf, (differs '"' (by simp)).symm]
  simp [pieceAt, tokenAt, visible, differs, unquoted, unmarked, begins]

/-- A number that is one token by itself is that token in front of what may end it. -/
theorem scans_number {kind : TokenKind} {text : String} (alone : isLexeme kind text = true)
    (number : kind = .integer ∨ kind = .floating) :
    Scans text (Ends false) (spelled [(kind, text)]) := by
  obtain ⟨c, cs, more, rfl, piece, whole⟩ := exists_pieceAt_of_isLexeme alone
  have literal : kind.isLiteral = true := by
    rcases number with rfl | rfl <;> rfl
  rcases literal_cases piece literal with ⟨-, rfl⟩ | ⟨-, ⟨-, rfl⟩ | ⟨-, rfl⟩ | found⟩
  · simp at number
  · simp at number
  · simp at number
  · obtain ⟨-, unmarked, begins, rest_eq⟩ := found
    have length_eq : more = cs.length := by
      have length_le : (numberRest c cs).1 ≤ cs.length := numberLength_le ..
      rw [rest_eq] at length_le
      omega
    apply scans_of_pieceAt
    intro rest ends
    have unmarked' : punctuationAt? (c :: (cs ++ rest)) = none := by
      by_cases digit : c.isDigit = true
      · exact punctuationAt?_eq_none (by decide) digit _
      · obtain rfl : c = '.' := by simpa [digit] using begins
        rw [punctuationAt?_dot] at unmarked ⊢
        cases cs with
        | nil => simp at unmarked
        | cons => exact unmarked
    rw [pieceAt_number begins unmarked', numberRest_append ends, rest_eq, length_eq]

/-- Whether the characters after an opening quote run to the quote that closes it, and end there.
A backslash takes the next character along. -/
def closesQuote (quote : Char) : List Char → Bool
  | [] => false
  | '\\' :: _ :: cs => closesQuote quote cs
  | c :: cs => if c = quote then cs.isEmpty else c ≠ '\n' && closesQuote quote cs

/-- Whether the characters after the opening quotes of a text block run to the quotes that close
it, and end there. -/
def closesBlock : List Char → Bool
  | [] => false
  | '\\' :: _ :: cs => closesBlock cs
  | '"' :: '"' :: '"' :: cs => cs.isEmpty
  | _ :: cs => closesBlock cs

theorem quotedLength_append {quote : Char} (quote_ne : quote ≠ '\\') (rest : List Char)
    {cs : List Char} (closes : closesQuote quote cs = true) :
    quotedLength quote (cs ++ rest) = cs.length := by
  fun_induction closesQuote quote cs with
  | case1 => cases closes
  | case2 _ cs induction => simp [quotedLength, induction closes]
  | case3 cs unescaped =>
      obtain rfl : cs = [] := by simpa using closes
      cases rest <;> simp [quotedLength, quote_ne]
  | case4 c cs unescaped differs induction =>
      simp only [ne_eq, decide_not, Bool.and_eq_true, Bool.not_eq_true', decide_eq_false_iff_not]
        at closes
      cases cs with
      | nil => simp [closesQuote] at closes
      | cons d ds =>
          have no_escape : c ≠ '\\' := fun escape => unescaped d ds escape rfl
          rw [List.cons_append, quotedLength, induction closes.2]
          · simp [closes.1, differs]
          all_goals simp [no_escape]

theorem length_of_closesBlock {cs : List Char} (closes : closesBlock cs = true) :
    3 ≤ cs.length := by
  fun_induction closesBlock cs with
  | case1 => cases closes
  | case2 _ cs induction => have := induction closes; simp only [List.length_cons]; omega
  | case3 cs => simp
  | case4 c cs _ _ induction => have := induction closes; simp only [List.length_cons]; omega

theorem textBlockLength_append (rest : List Char) {cs : List Char}
    (closes : closesBlock cs = true) : textBlockLength (cs ++ rest) = cs.length := by
  fun_induction closesBlock cs with
  | case1 => cases closes
  | case2 _ cs induction => simp [textBlockLength, induction closes]
  | case3 cs =>
      obtain rfl : cs = [] := by simpa using closes
      simp [textBlockLength]
  | case4 c cs unescaped open_ induction =>
      -- What is left has room for the closing quotes, so `rest` has no part in them.
      match cs, length_of_closesBlock closes with
      | d :: e :: ds, _ =>
          have goes_on : textBlockLength (c :: d :: e :: (ds ++ rest)) =
              textBlockLength (d :: e :: (ds ++ rest)) + 1 := by
            rw [textBlockLength]
            · simp
            · intro head tail escape _
              exact unescaped d (e :: ds) escape rfl
            · intro tail quote tail_eq
              obtain ⟨rfl, rfl, -⟩ := by simpa using tail_eq
              exact open_ ds quote rfl
          rw [List.cons_append, List.cons_append, List.cons_append, goes_on, List.length_cons]
          exact congrArg (· + 1) (induction closes)

theorem pieceAt_textBlock (rest : List Char) {cs : List Char} (closes : closesBlock cs = true) :
    pieceAt '"' ('"' :: '"' :: cs ++ rest) = (('"' :: '"' :: cs).length, some .textBlock) := by
  have visible : isWhiteSpace '"' = false := by decide
  simp [pieceAt, tokenAt, visible, textBlockLength_append rest closes]

theorem pieceAt_string {cs rest : List Char} (ends : Ends true rest)
    (closes : closesQuote '"' cs = true)
    (no_block : ['"', '"', '"'].isPrefixOf ('"' :: cs) = false) :
    pieceAt '"' (cs ++ rest) = (cs.length, some .string) := by
  have no_block' : ['"', '"', '"'].isPrefixOf ('"' :: (cs ++ rest)) = false := by
    match cs with
    | [] => cases closes
    | [c] =>
        obtain ⟨d, more, rfl, stop⟩ := ends
        have no_quote : '"' ≠ d := by
          rintro rfl
          simp at stop
        simp [List.isPrefixOf, no_quote]
    | c :: d :: ds => simpa [List.isPrefixOf] using no_block
  have unmarked : punctuationAt? ('"' :: (cs ++ rest)) = none :=
    punctuationAt?_eq_none (p := (· = '"')) (by decide) (by decide) _
  have visible : isWhiteSpace '"' = false := by decide
  simp [pieceAt, tokenAt, visible, no_block', unmarked,
    quotedLength_append (by decide) rest closes]

theorem pieceAt_character (rest : List Char) {cs : List Char}
    (closes : closesQuote '\'' cs = true) :
    pieceAt '\'' (cs ++ rest) = (cs.length, some .character) := by
  have unmarked : punctuationAt? ('\'' :: (cs ++ rest)) = none :=
    punctuationAt?_eq_none (p := (· = '\'')) (by decide) (by decide) _
  have visible : isWhiteSpace '\'' = false := by decide
  simp [pieceAt, tokenAt, visible, unmarked, quotedLength_append (by decide) rest closes]

/-- Whether a literal that is written in quotes ends with the quotes that close it. -/
def isTerminated (kind : TokenKind) (text : String) : Bool :=
  match kind with
  | .character => closesQuote '\'' (text.toList.drop 1)
  | .string => closesQuote '"' (text.toList.drop 1)
  | .textBlock => closesBlock (text.toList.drop 3)
  | _ => true

/-- A terminated literal that is one token by itself is that token in front of what may end it; if
it is a number, that is no dot. -/
theorem scans_literal {kind : TokenKind} {text : String} (alone : isLexeme kind text = true)
    (literal : kind.isLiteral = true) (terminated : isTerminated kind text = true) :
    Scans text (Ends (kind ≠ .integer && kind ≠ .floating)) (spelled [(kind, text)]) := by
  by_cases number : kind = .integer ∨ kind = .floating
  · have no_dot : (kind ≠ .integer && kind ≠ .floating) = false := by
      rcases number with rfl | rfl <;> rfl
    rw [no_dot]
    exact scans_number alone number
  · refine Scans.mono ?_ fun rest ends => ends.withDot
    obtain ⟨c, cs, more, rfl, piece, -⟩ := exists_pieceAt_of_isLexeme alone
    rcases literal_cases piece literal with ⟨block, rfl⟩ | ⟨no_block, found⟩
    · obtain ⟨ds, chars_eq⟩ := List.isPrefixOf_iff_prefix.mp block
      obtain ⟨rfl, rfl⟩ : '"' = c ∧ '"' :: '"' :: ds = cs := by simpa using chars_eq
      apply scans_of_pieceAt
      intro rest ends
      exact pieceAt_textBlock rest (by simpa [isTerminated] using terminated)
    · rcases found with ⟨rfl, rfl⟩ | ⟨rfl, rfl⟩ | ⟨-, -, -, rest_eq⟩
      · apply scans_of_pieceAt
        intro rest ends
        exact pieceAt_string ends (by simpa [isTerminated] using terminated) no_block
      · apply scans_of_pieceAt
        intro rest ends
        exact pieceAt_character rest (by simpa [isTerminated] using terminated)
      · obtain ⟨-, kind_eq⟩ := Prod.mk.inj rest_eq
        refine absurd ?_ number
        rw [← kind_eq]
        split <;> simp

end JavaOutline.Token
