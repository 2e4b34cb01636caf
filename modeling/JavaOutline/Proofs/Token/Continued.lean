import Mathlib.Data.List.Chain
import Mathlib.Data.List.Find
import JavaOutline.Proofs.Token.Lossless

/-!
# Texts that go on differently

A piece behind which its text goes on is the same piece where the text goes on with a character
that ends it. So the stretch of a text from one token to another that is not its last, copied to
where such a character follows, scans into tokens of the same kinds and texts.
-/

namespace JavaOutline.Token

section Pieces

variable {text part rest other : List Char}

/-- A line comment behind which the text goes on is ended. -/
theorem lineCommentLength_replace (other : List Char) (goes_on : rest ≠ [])
    (whole : lineCommentLength (text ++ rest) = text.length) :
    lineCommentLength (text ++ other) = text.length := by
  induction text with
  | nil =>
      cases rest with
      | nil => exact absurd rfl goes_on
      | cons c rest =>
          rw [List.nil_append, lineCommentLength] at whole
          split_ifs at whole
  | cons c text induction =>
      rw [List.cons_append, lineCommentLength] at whole ⊢
      split_ifs at whole ⊢ with ends
      · exact whole
      · exact congrArg (· + 1) (induction (Nat.succ.inj whole))

theorem blockCommentLength_pos (nonempty : text ≠ []) : 0 < blockCommentLength text := by
  fun_cases blockCommentLength text with
  | case1 => exact absurd rfl nonempty
  | _ => exact Nat.succ_pos _

theorem quotedLength_pos (quote : Char) (nonempty : text ≠ []) : 0 < quotedLength quote text := by
  fun_cases quotedLength quote text with
  | case1 => exact absurd rfl nonempty
  | _ => exact Nat.succ_pos _

/-- A block comment behind which the text goes on is closed. -/
theorem blockCommentLength_replace (other : List Char) (goes_on : rest ≠ [])
    (whole : blockCommentLength (text ++ rest) = text.length) :
    blockCommentLength (text ++ other) = text.length := by
  generalize append_eq : text ++ rest = all at *
  fun_induction blockCommentLength all generalizing text with
  | case1 => exact absurd (List.append_eq_nil_iff.mp append_eq).2 goes_on
  | case2 more =>
      obtain ⟨later, rfl, later_eq⟩ := exists_cons_of_append append_eq (by omega)
      rw [List.length_cons] at whole
      obtain ⟨last, rfl, -⟩ := exists_cons_of_append later_eq (by omega)
      exact whole
  | case3 c more open_ induction =>
      obtain ⟨later, rfl, rfl⟩ := exists_cons_of_append append_eq (by omega)
      have length_eq := Nat.succ.inj whole
      rw [List.cons_append, blockCommentLength, induction rfl length_eq, List.length_cons]
      rintro tail rfl later_eq
      cases later with
      | cons d later =>
          obtain ⟨rfl, -⟩ := List.cons.inj later_eq
          exact open_ _ rfl rfl
      | nil => exact absurd length_eq (Nat.ne_of_gt (blockCommentLength_pos goes_on))

/-- A quoted literal behind which the text goes on is closed. -/
theorem quotedLength_replace {quote : Char} (other : List Char) (goes_on : rest ≠ [])
    (whole : quotedLength quote (text ++ rest) = text.length) :
    quotedLength quote (text ++ other) = text.length := by
  generalize append_eq : text ++ rest = all at *
  fun_induction quotedLength quote all generalizing text with
  | case1 => exact absurd (List.append_eq_nil_iff.mp append_eq).2 goes_on
  | case2 =>
      obtain ⟨later, rfl, later_eq⟩ := exists_cons_of_append append_eq (Nat.le_of_eq whole)
      exact absurd (List.append_eq_nil_iff.mp later_eq).2 goes_on
  | case3 escaped others induction =>
      obtain ⟨later, rfl, later_eq⟩ := exists_cons_of_append append_eq (by omega)
      rw [List.length_cons] at whole
      obtain ⟨last, rfl, last_eq⟩ := exists_cons_of_append later_eq (by omega)
      rw [List.length_cons] at whole
      have induction := induction last_eq (by omega)
      simp only [List.cons_append, quotedLength, induction, List.length_cons]
  | case4 c others unescaped escapes closes =>
      obtain ⟨later, rfl, -⟩ := exists_cons_of_append append_eq (Nat.le_of_eq whole)
      have no_escape : c ≠ '\\' := by
        rintro rfl
        cases others with
        | nil => exact unescaped rfl rfl
        | cons d others => exact escapes d others rfl rfl
      rw [List.cons_append, quotedLength_cons no_escape, if_pos closes, whole]
  | case5 c others unescaped escapes open_ induction =>
      have no_escape : c ≠ '\\' := by
        rintro rfl
        cases others with
        | nil => exact unescaped rfl rfl
        | cons d others => exact escapes d others rfl rfl
      obtain ⟨later, rfl, later_eq⟩ := exists_cons_of_append append_eq (by omega)
      have induction := induction later_eq (Nat.succ.inj whole)
      rw [List.cons_append, quotedLength_cons no_escape, if_neg open_, induction, List.length_cons]

/-- A text block behind which the text goes on is closed. -/
theorem closesBlock_of_append (goes_on : rest ≠ [])
    (whole : textBlockLength (text ++ rest) = text.length) : closesBlock text = true := by
  generalize append_eq : text ++ rest = all at *
  fun_induction textBlockLength all generalizing text with
  | case1 => exact absurd (List.append_eq_nil_iff.mp append_eq).2 goes_on
  | case2 =>
      obtain ⟨later, rfl, later_eq⟩ := exists_cons_of_append append_eq (Nat.le_of_eq whole)
      exact absurd (List.append_eq_nil_iff.mp later_eq).2 goes_on
  | case3 escaped others induction =>
      obtain ⟨later, rfl, later_eq⟩ := exists_cons_of_append append_eq (by omega)
      rw [List.length_cons] at whole
      obtain ⟨last, rfl, last_eq⟩ := exists_cons_of_append later_eq (by omega)
      rw [List.length_cons] at whole
      rw [closesBlock]
      exact induction last_eq (by omega)
  | case4 others =>
      obtain ⟨later, rfl, later_eq⟩ := exists_cons_of_append append_eq (by omega)
      rw [List.length_cons] at whole
      obtain ⟨last, rfl, last_eq⟩ := exists_cons_of_append later_eq (by omega)
      rw [List.length_cons] at whole
      obtain ⟨last, rfl, -⟩ := exists_cons_of_append last_eq (by omega)
      rw [List.length_cons] at whole
      obtain rfl : last = [] := List.length_eq_zero_iff.mp (by omega)
      rfl
  | case5 c others unescaped escapes open_ induction =>
      obtain ⟨later, rfl, rfl⟩ := exists_cons_of_append append_eq (by omega)
      rw [closesBlock, induction rfl (Nat.succ.inj whole)]
      · rintro d tail rfl rfl
        exact escapes d _ rfl rfl
      · rintro tail rfl rfl
        exact open_ _ rfl rfl

/-- A token in quotes behind which the text goes on is the same token whatever it goes on with, if
that does not make two quotes a text block. -/
theorem tokenAt_replace_of_quote {quote : Char} {kind : TokenKind}
    (is_quote : quote = '"' ∨ quote = '\'') (goes_on : rest ≠ [])
    (whole : tokenAt quote (text ++ rest) = (text.length, kind))
    (quotes : other.head? = some '"' → rest.head? = some '"') :
    tokenAt quote (text ++ other) = (text.length, kind) := by
  have unmarked (cs : List Char) : punctuationAt? (quote :: cs) = none :=
    punctuationAt?_eq_none (p := fun c => c = '"' || c = '\'') (by decide)
      (by rcases is_quote with rfl | rfl <;> rfl) cs
  unfold tokenAt at whole ⊢
  rw [unmarked] at whole ⊢
  by_cases block : ['"', '"', '"'].isPrefixOf (quote :: (text ++ rest)) = true
  · rw [if_pos block] at whole
    obtain ⟨length_eq, rfl⟩ := Prod.mk.inj whole
    match text, length_eq with
    | first :: second :: body, length_eq =>
        have length_eq : textBlockLength (body ++ rest) = body.length :=
          Nat.add_right_cancel length_eq
        have closes := closesBlock_of_append goes_on length_eq
        refine (if_pos block).trans ?_
        exact congrArg (fun length => (length + 2, _)) (textBlockLength_append _ closes)
  rw [if_neg block] at whole
  have nonempty : text ≠ [] := by
    rintro rfl
    rcases is_quote with rfl | rfl
    all_goals exact absurd (congrArg Prod.fst whole) (Nat.ne_of_gt (quotedLength_pos _ goes_on))
  have unquoted : ¬['"', '"', '"'].isPrefixOf (quote :: (text ++ other)) = true := by
    match text, other with
    | first :: second :: body, _ => exact block
    | [first], [] => simp [List.isPrefixOf]
    | [first], d :: other =>
        obtain ⟨e, rest, rfl⟩ := List.exists_cons_of_ne_nil goes_on
        simp only [List.head?_cons, Option.some.injEq] at quotes
        simp only [List.cons_append, List.nil_append, List.isPrefixOf_cons_cons,
          List.isPrefixOf_nil_left, Bool.and_true, Bool.and_eq_true, beq_iff_eq,
          not_and] at block ⊢
        exact fun opens second third => block opens second (quotes third.symm).symm
  rw [if_neg unquoted]
  rcases is_quote with rfl | rfl
  · obtain ⟨length_eq, rfl⟩ := Prod.mk.inj whole
    exact congrArg (·, _) (quotedLength_replace _ goes_on length_eq)
  · obtain ⟨length_eq, rfl⟩ := Prod.mk.inj whole
    exact congrArg (·, _) (quotedLength_replace _ goes_on length_eq)

/-! ## Characters that end a token -/

/-- A mark that does not go on with a character does not reach it. -/
theorem isPrefixOf_of_notMem {mark : List Char} {d : Char} (text : List Char) (outside : d ∉ mark)
    (more : List Char) : mark.isPrefixOf (text ++ d :: more) = mark.isPrefixOf text := by
  induction mark generalizing text with
  | nil => simp
  | cons c mark induction =>
      rw [List.mem_cons, not_or] at outside
      cases text with
      | nil => simp [List.isPrefixOf, Ne.symm outside.1]
      | cons e text =>
          rw [List.cons_append, List.isPrefixOf_cons_cons, List.isPrefixOf_cons_cons,
            induction text outside.2]

/-- Whether a text is one dot or two. -/
def IsDots (text : List Char) : Prop :=
  text = ['.'] ∨ text = ['.', '.']

/-- No punctuation mark goes on with a character that ends a token, but for three dots. -/
theorem isPrefixOf_of_ends {dot : Bool} {ending : List Char} (ends : Ends dot ending) {c : Char}
    (text : List Char) (dots : dot = true → ¬IsDots (c :: text)) {mark : List Char × TokenKind}
    (member : mark ∈ punctuation) :
    mark.1.isPrefixOf (c :: (text ++ ending)) = mark.1.isPrefixOf (c :: text) := by
  obtain ⟨d, more, rfl, stops⟩ := ends
  have outside : ∀ d ∈ [' ', ')', ']', ',', '[', '(', '.'], ∀ mark ∈ punctuation,
      d ∉ mark.1.tail ∨ d = '.' ∧ mark.1 = ['.', '.', '.'] :=
    List.forall_iff_forall_mem.mp (by decide)
  have listed : d ∈ [' ', ')', ']', ',', '[', '(', '.'] := by grind -ring -linarith
  rcases outside d listed mark member with outside | ⟨rfl, mark_eq⟩
  · cases chars_eq : mark.1 with
    | nil => simp
    | cons e chars =>
        rw [chars_eq, List.tail_cons] at outside
        rw [List.isPrefixOf_cons_cons, List.isPrefixOf_cons_cons,
          isPrefixOf_of_notMem text outside more]
  · have dots : ¬IsDots (c :: text) := dots (by simpa using stops)
    rw [mark_eq]
    match text with
    | [] =>
        have no_dot : '.' ≠ c := by
          rintro rfl
          exact dots (.inl rfl)
        simp [List.isPrefixOf, no_dot]
    | [d] =>
        have no_dots : '.' = c → '.' ≠ d := by
          rintro rfl rfl
          exact dots (.inr rfl)
        simpa [List.isPrefixOf] using no_dots
    | d :: e :: text => rfl

theorem punctuationAt?_of_ends {dot : Bool} {ending : List Char} (ends : Ends dot ending) {c : Char}
    (text : List Char) (dots : dot = true → ¬IsDots (c :: text)) :
    punctuationAt? (c :: (text ++ ending)) = punctuationAt? (c :: text) := by
  have found_eq : punctuation.find? (fun mark => mark.1.isPrefixOf (c :: (text ++ ending))) =
      punctuation.find? (fun mark => mark.1.isPrefixOf (c :: text)) :=
    List.find?_congr fun mark member => isPrefixOf_of_ends ends text dots member
  have digit_eq : (text ++ ending).head?.any Char.isDigit = text.head?.any Char.isDigit := by
    refine (head?_any_of_append _ fun empty => ?_).symm
    obtain ⟨d, more, rfl, stops⟩ := ends
    have checked : ∀ d ∈ [' ', ')', ']', ',', '[', '(', '.'], d.isDigit = false :=
      List.forall_iff_forall_mem.mp (by decide)
    exact checked d (by grind -ring -linarith)
  rw [punctuationAt?, punctuationAt?, found_eq, List.drop_one, List.drop_one, List.tail_cons,
    List.tail_cons, digit_eq]

theorem takeWhile_of_ends {dot : Bool} {ending : List Char} (ends : Ends dot ending)
    (text : List Char) :
    (text ++ ending).takeWhile isIdentifierPart = text.takeWhile isIdentifierPart := by
  obtain ⟨d, more, rfl, stops⟩ := ends
  have checked : ∀ d ∈ [' ', ')', ']', ',', '[', '(', '.'], isIdentifierPart d = false :=
    List.forall_iff_forall_mem.mp (by decide)
  have stops := checked d (by grind -ring -linarith)
  induction text with
  | nil => simp [stops]
  | cons c text induction =>
      rw [List.cons_append, List.takeWhile_cons, List.takeWhile_cons, induction]

/-- A number that ends inside a text ends there whatever the text goes on with. -/
theorem numberLength_of_inside (radix dotted floating : Bool)
    (inside : (numberLength radix dotted floating text).1 < text.length) :
    numberLength radix dotted floating (text ++ other) =
      numberLength radix dotted floating text := by
  induction length_eq : text.length using Nat.strong_induction_on
    generalizing text dotted floating with
  | _ n induction =>
      cases text with
      | nil => exact absurd inside (Nat.not_lt_zero _)
      | cons c text =>
          rw [List.length_cons] at length_eq inside
          rw [numberLength_cons] at inside
          rw [List.cons_append, numberLength_cons, numberLength_cons]
          have after (dotted floating : Bool)
              (inside : (numberLength radix dotted floating text).1 + 1 < text.length + 1) :
              numberLength radix dotted floating (text ++ other) =
                numberLength radix dotted floating text :=
            induction text.length (by omega) dotted floating (by omega) rfl
          by_cases part : (c.isAlphanum || c = '_') = true
          · rw [if_pos part] at inside
            rw [if_pos part, if_pos part]
            by_cases exponent : isExponent radix c = true
            · rw [if_pos exponent] at inside
              rw [if_pos exponent, if_pos exponent]
              cases text with
              | nil => simp at inside
              | cons sign text =>
                  rw [List.length_cons] at length_eq
                  rw [List.head?_cons] at inside
                  rw [List.cons_append, List.head?_cons, List.head?_cons]
                  split_ifs at inside ⊢ with signed
                  · rw [List.drop_one, List.tail_cons] at inside ⊢
                    rw [induction text.length (by omega) dotted true
                      (Nat.lt_of_add_lt_add_right inside) rfl, List.drop_one, List.tail_cons]
                  · rw [← List.cons_append, after dotted true inside]
            · rw [if_neg exponent] at inside
              rw [if_neg exponent, if_neg exponent, after _ _ inside]
          · rw [if_neg part] at inside
            rw [if_neg part, if_neg part]
            cases text with
            | nil =>
                rw [show dotEndsNumber [] = false from rfl] at inside ⊢
                split_ifs at inside with goes_on
                · simp at inside
                · rw [if_neg goes_on, if_neg]
                  simp_all
            | cons d text =>
                rw [dotEndsNumber_of_append (List.cons_ne_nil d text)]
                split_ifs at inside ⊢ with goes_on
                · rw [after true true inside]
                · rfl

theorem numberRest_of_inside {c : Char} (inside : (numberRest c text).1 < text.length) :
    numberRest c (text ++ other) = numberRest c text := by
  have radix_eq : (text ++ other).head?.any (['x', 'X', 'b', 'B'].contains ·) =
      text.head?.any (['x', 'X', 'b', 'B'].contains ·) := by
    cases text with
    | nil => exact absurd inside (Nat.not_lt_zero _)
    | cons d text => rfl
  simp only [numberRest] at inside ⊢
  rw [radix_eq, numberLength_of_inside _ _ _ inside]

/-- A token that is not quoted is the same in front of a character that ends it; in front of a dot
that is so if it is no number that reaches to it. -/
theorem tokenAt_of_ends {dot : Bool} {ending : List Char} (ends : Ends dot ending) {c : Char}
    (no_quote : c ≠ '"') (no_mark : c ≠ '\'') (dots : dot = true → ¬IsDots (c :: text))
    (inside : dot = true → (c.isDigit || c = '.') = true → (tokenAt c text).1 < text.length) :
    tokenAt c (text ++ ending) = tokenAt c text := by
  have unquoted (cs : List Char) : ¬['"', '"', '"'].isPrefixOf (c :: cs) = true := by
    simp [List.isPrefixOf, Ne.symm no_quote]
  unfold tokenAt at inside ⊢
  simp only [if_neg (unquoted _), punctuationAt?_of_ends ends text dots] at inside ⊢
  generalize punctuationAt? (c :: text) = mark? at inside ⊢
  cases mark? with
  | some mark => rfl
  | none =>
      simp only [if_neg no_quote, if_neg no_mark] at inside ⊢
      split_ifs with number word
      · cases dot with
        | false => exact numberRest_append ends
        | true =>
            have inside := inside rfl number
            rw [if_pos number] at inside
            exact numberRest_of_inside inside
      · rw [takeWhile_of_ends ends]
      · rfl

/-- A piece behind which the text goes on is the same piece if some of what follows it stays, and
then a character comes that ends tokens. -/
theorem pieceAt_replace {dot : Bool} {ending : List Char} (ends : Ends dot ending) {c : Char}
    {kind? : Option TokenKind} (goes_on : part ++ rest ≠ [])
    (whole : pieceAt c (text ++ (part ++ rest)) = (text.length, kind?))
    (numbered : (c.isDigit || c = '.') = true → part = ['.'] → dotEndsNumber rest = false)
    (dots : dot = true → ¬IsDots (c :: (text ++ part)))
    (inside : dot = true → (c.isDigit || c = '.') = true → part ≠ []) :
    pieceAt c (text ++ (part ++ ending)) = (text.length, kind?) := by
  have head_eq {mark : Char} (listed : mark ∈ ['/', '*', '"']) {text : List Char}
      (found : (text ++ ending).head? = some mark) : (text ++ rest).head? = some mark := by
    cases text with
    | cons d text => exact found
    | nil =>
        obtain ⟨d, more, rfl, stops⟩ := ends
        obtain rfl : d = mark := by simpa using found
        grind -ring -linarith
  have head_eq' {mark : Char} (listed : mark ∈ ['/', '*', '"'])
      (found : (text ++ (part ++ ending)).head? = some mark) :
      (text ++ (part ++ rest)).head? = some mark := by
    rw [← List.append_assoc] at found ⊢
    exact head_eq listed found
  unfold pieceAt at whole ⊢
  by_cases white : isWhiteSpace c = true
  · rw [if_pos white] at whole ⊢
    exact whole
  rw [if_neg white] at whole ⊢
  by_cases line : (c = '/' && (text ++ (part ++ rest)).head? = some '/') = true
  · rw [if_pos line] at whole
    obtain ⟨length_eq, rfl⟩ := Prod.mk.inj whole
    cases text with
    | nil => cases length_eq
    | cons d text =>
        have length_eq : lineCommentLength (text ++ (part ++ rest)) = text.length :=
          Nat.succ.inj length_eq
        exact (if_pos line).trans (congrArg (fun length => (length + 1, none))
          (lineCommentLength_replace _ goes_on length_eq))
  rw [if_neg line] at whole
  by_cases block : (c = '/' && (text ++ (part ++ rest)).head? = some '*') = true
  · rw [if_pos block] at whole
    obtain ⟨length_eq, rfl⟩ := Prod.mk.inj whole
    cases text with
    | nil => cases length_eq
    | cons d text =>
        have length_eq : blockCommentLength (text ++ (part ++ rest)) = text.length :=
          Nat.succ.inj length_eq
        exact (if_neg line).trans ((if_pos block).trans (congrArg (fun length => (length + 1, none))
          (blockCommentLength_replace _ goes_on length_eq)))
  rw [if_neg block] at whole
  have no_line : ¬(c = '/' && (text ++ (part ++ ending)).head? = some '/') = true := by
    simp only [Bool.and_eq_true, decide_eq_true_eq] at line ⊢
    exact fun ⟨slash, next⟩ => line ⟨slash, head_eq' (by decide) next⟩
  have no_block : ¬(c = '/' && (text ++ (part ++ ending)).head? = some '*') = true := by
    simp only [Bool.and_eq_true, decide_eq_true_eq] at block ⊢
    exact fun ⟨slash, next⟩ => block ⟨slash, head_eq' (by decide) next⟩
  rw [if_neg no_line, if_neg no_block]
  obtain ⟨kind, rfl⟩ : ∃ kind, kind? = some kind := ⟨_, (Prod.mk.inj whole).2.symm⟩
  have token : tokenAt c (text ++ (part ++ rest)) = (text.length, kind) :=
    Prod.ext (Prod.mk.inj whole).1 (Option.some.inj (Prod.mk.inj whole).2)
  suffices same : tokenAt c (text ++ (part ++ ending)) = (text.length, kind) by rw [same]
  by_cases is_quote : c = '"' ∨ c = '\''
  · exact tokenAt_replace_of_quote is_quote goes_on token (head_eq (by decide))
  obtain ⟨no_quote, no_mark⟩ := not_or.mp is_quote
  have shorter : tokenAt c (text ++ part) = (text.length, kind) := by
    rw [← token, ← List.append_assoc]
    refine tokenAt_of_append ?_ fun number next last => ?_
    · rw [List.append_assoc, token, List.length_append]
      exact Nat.le_add_right _ _
    · rw [List.append_assoc, token, List.length_append] at next
      obtain ⟨d, rfl⟩ := List.length_eq_one_iff.mp (Nat.add_left_cancel next).symm
      rw [List.getLast?_append_of_ne_nil _ (List.cons_ne_nil d []), List.getLast?_singleton] at last
      exact numbered number (by rw [Option.some.inj last])
  rw [← List.append_assoc, ← shorter]
  refine tokenAt_of_ends ends no_quote no_mark dots fun dot number => ?_
  rw [shorter, List.length_append]
  exact Nat.lt_add_of_pos_right (List.length_pos_iff.mpr (inside dot number))

end Pieces

/-! ## Stretches of tokens -/

/-- Whether a dot may become part of a token of some kind in front of it. -/
def takesDot : TokenKind → Bool
  | .integer | .floating | .dot | .ellipsis => true
  | _ => false

/-- Whether a token stays apart from the one behind it, as far as dots go. -/
def Apart (token following : Token) : Prop :=
  takesDot token.kind = true → following.kind ≠ .dot ∧ following.kind ≠ .ellipsis

/-- A piece that begins with a digit or a dot is a token that may take in a dot. -/
theorem takesDot_of_pieceAt {c : Char} {cs : List Char} {more : Nat} {kind? : Option TokenKind}
    (begins : (c.isDigit || c = '.') = true) (piece_eq : pieceAt c cs = (more, kind?)) :
    ∃ kind, kind? = some kind ∧ takesDot kind = true := by
  cases mark_eq : punctuationAt? (c :: cs) with
  | none =>
      rw [pieceAt_number begins mark_eq] at piece_eq
      obtain ⟨-, rfl⟩ := Prod.mk.inj piece_eq
      refine ⟨_, rfl, ?_⟩
      simp only [numberRest]
      split <;> rfl
  | some mark =>
      obtain rfl : c = '.' := by
        by_contra no_dot
        have digit : c.isDigit = true := by simpa [no_dot] using begins
        rw [punctuationAt?_eq_none (by decide) digit cs] at mark_eq
        cases mark_eq
      obtain ⟨found, -⟩ := Option.filter_eq_some_iff.mp mark_eq
      have dotted : ∀ mark ∈ punctuation, mark.1.head? = some '.' → takesDot mark.2 = true := by
        decide
      have shown := List.find?_some found
      have head_eq : mark.1.head? = some '.' := by
        have nonempty : ∀ mark ∈ punctuation, mark.1 ≠ [] := by decide
        obtain ⟨d, ds, chars_eq⟩ :=
          List.exists_cons_of_ne_nil (nonempty mark (List.mem_of_find?_eq_some found))
        rw [chars_eq, List.isPrefixOf_cons_cons, Bool.and_eq_true, beq_iff_eq] at shown
        rw [chars_eq, List.head?_cons, shown.1]
      have visible : isWhiteSpace '.' = false := by decide
      simp only [pieceAt, visible, tokenAt, mark_eq] at piece_eq
      refine ⟨mark.2, ?_, dotted mark (List.mem_of_find?_eq_some found) head_eq⟩
      simpa [List.isPrefixOf] using (Prod.mk.inj piece_eq).2.symm

/-- The text of a stretch of tokens, where the text goes on behind it, is scanned into the same
lexemes in front of any character that ends tokens. -/
theorem exists_stretch {offset : Nat} {cs : List Char} {front later : List Token} {token : Token}
    (scanned : scanFrom 0 offset cs = front ++ token :: later) (goes_on : later ≠ [])
    (apart : (front ++ [token]).IsChain Apart) :
    ∃ part rest, cs = part ++ rest ∧ part ≠ [] ∧ token.span.stop = offset + byteLength part ∧
      ∀ dot ending, (dot = true → takesDot token.kind = false) → Ends dot ending → ∀ start,
        ∃ tokens, tokens.map lexeme = (front ++ [token]).map lexeme ∧
          scanFrom 0 start (part ++ ending) =
            tokens ++ scanFrom 0 (start + byteLength part) ending := by
  match cs with
  | [] => simp [scanFrom] at scanned
  | c :: cs =>
      rcases piece_eq : pieceAt c cs with ⟨more, kind?⟩
      have pieces : scanFrom 0 offset (c :: cs) = _ := scanFrom_eq_append piece_eq
      have begins_token (begins : (c.isDigit || c = '.') = true) :=
        takesDot_of_pieceAt begins piece_eq
      -- The piece is found again in front of what is left of the stretch and an ending.
      have again {part rest ending : List Char} {dot : Bool}
          (chars_eq : cs.drop more = part ++ rest) (more_left : cs.drop more ≠ [])
          (ends : Ends dot ending)
          (numbered : (c.isDigit || c = '.') = true → part ≠ ['.'])
          (dots : dot = true → (c.isDigit || c = '.') = true → part ≠ []) (start : Nat) :
          scanFrom 0 start (c :: (cs.take more ++ (part ++ ending))) =
            pieceTokens start (c :: cs.take more) kind? ++
              scanFrom 0 (start + byteLength (c :: cs.take more)) (part ++ ending) := by
        have taken : (cs.take more).length = more :=
          List.length_take_of_le
            (Nat.le_of_not_le fun short => more_left (List.drop_eq_nil_of_le short))
        have whole : pieceAt c (cs.take more ++ (part ++ rest)) =
            ((cs.take more).length, kind?) := by
          rw [← chars_eq, List.take_append_drop, piece_eq, taken]
        have found := pieceAt_replace ends (chars_eq ▸ more_left) whole
          (fun begins part_eq => absurd part_eq (numbered begins)) ?_ dots
        · rw [taken] at found
          rw [scanFrom_eq_append found, List.take_left' taken, List.drop_left' taken]
        · rintro dot_eq (chars_eq | chars_eq)
          · obtain ⟨rfl, rest_nil⟩ := List.cons.inj chars_eq
            exact dots dot_eq rfl (List.append_eq_nil_iff.mp rest_nil).2
          · obtain ⟨rfl, rest_eq⟩ := List.cons.inj chars_eq
            rcases List.append_eq_singleton_iff.mp rest_eq with ⟨-, part_eq⟩ | ⟨-, part_nil⟩
            · exact numbered rfl part_eq
            · exact dots dot_eq rfl part_nil
      rcases pieceTokens_append_cases (pieces.symm.trans scanned) with
        ⟨rfl, rest_eq, span_eq, rfl, tokens_eq⟩ | ⟨middle, rfl, rest_eq⟩
      · have more_left : cs.drop more ≠ [] := by
          intro rest_nil
          rw [rest_nil] at rest_eq
          exact goes_on rest_eq.symm
        refine ⟨c :: cs.take more, cs.drop more, ?_, List.cons_ne_nil _ _, ?_, ?_⟩
        · rw [List.cons_append, List.take_append_drop]
        · rw [span_eq]
        · intro dot ending selectable ends start
          have no_dot (dot_eq : dot = true) (begins : (c.isDigit || c = '.') = true) :
              [] ≠ ([] : List Char) := by
            obtain ⟨kind, kind_eq, takes⟩ := begins_token begins
            rw [← Option.some.inj kind_eq, selectable dot_eq] at takes
            cases takes
          have found := again (List.nil_append _).symm more_left ends
            (fun _ => (List.cons_ne_nil _ _).symm) no_dot start
          refine ⟨pieceTokens start (c :: cs.take more) (some token.kind), ?_, found⟩
          rw [List.nil_append, ← tokens_eq]
          rfl
      · rw [List.append_assoc] at apart
        obtain ⟨part, rest, chars_eq, nonempty, stop_eq, scans⟩ :=
          exists_stretch rest_eq goes_on (List.isChain_append.mp apart).2.1
        have more_left : cs.drop more ≠ [] := by
          rw [chars_eq]
          exact fun nil => nonempty (List.append_eq_nil_iff.mp nil).1
        have numbered (begins : (c.isDigit || c = '.') = true) : part ≠ ['.'] := by
          rintro rfl
          obtain ⟨kind, rfl, takes⟩ := begins_token begins
          -- A dot in front of a blank is a token, so the stretch ends with that token.
          obtain ⟨tokens, lexemes_eq, dot_eq⟩ :=
            scans false [' '] (absurd · Bool.false_ne_true) (ends_cons [] (.inl (by decide))) 0
          have dot_scan : scanFrom 0 0 (['.'] ++ [' ']) = [⟨.dot, ".", ⟨0, 1⟩⟩] := by decide +kernel
          have blank_scan (start : Nat) : scanFrom 0 start [' '] = [] := rfl
          rw [blank_scan, List.append_nil] at dot_eq
          obtain rfl : [⟨.dot, ".", ⟨0, 1⟩⟩] = tokens := dot_scan.symm.trans dot_eq
          cases middle with
          | cons other middle => simp at lexemes_eq
          | nil =>
              obtain ⟨kind_eq, -⟩ := Prod.mk.inj (List.cons.inj lexemes_eq).1
              have follows := (List.isChain_append.mp apart).2.2 _ rfl token rfl
              exact (follows takes).1 kind_eq.symm
        refine ⟨c :: (cs.take more ++ part), rest, ?_, List.cons_ne_nil _ _, ?_, ?_⟩
        · rw [List.cons_append, List.append_assoc, ← chars_eq, List.take_append_drop]
        · rw [stop_eq, ← List.cons_append, byteLength_append, Nat.add_assoc]
        · intro dot ending selectable ends start
          have found := again chars_eq more_left ends numbered (fun _ _ => nonempty) start
          obtain ⟨tokens, lexemes_eq, scan_eq⟩ := scans dot ending selectable ends
            (start + byteLength (c :: cs.take more))
          refine ⟨pieceTokens start (c :: cs.take more) kind? ++ tokens, ?_, ?_⟩
          · rw [List.append_assoc, List.map_append, List.map_append, lexemes_eq]
            cases kind? <;> rfl
          · rw [List.cons_append, List.append_assoc, found, scan_eq, List.append_assoc,
              ← List.cons_append, byteLength_append, Nat.add_assoc]
termination_by cs.length
decreasing_by
  simp only [List.length_drop, List.length_cons]
  omega

section Copies

variable {source : Source} {front window later : List Token}

/-- A stretch of the source from one token to another that is not the last token of all, copied to
where a character follows that ends tokens, scans by itself into the lexemes of its tokens. -/
theorem exists_copy {first last : Token} (scanned : scan 0 source.chars = front ++ window ++ later)
    (first_eq : window.head? = some first) (last_eq : window.getLast? = some last)
    (goes_on : later ≠ []) (apart : window.IsChain Apart) :
    ∃ text, source.slice? ⟨first.span.start, last.span.stop⟩ = some text ∧
      ∀ dot, (dot = true → takesDot last.kind = false) →
        Scans text (Ends dot) {tokens | tokens.map lexeme = window.map lexeme} := by
  obtain ⟨more, rfl⟩ := List.head?_eq_some_iff.mp first_eq
  obtain ⟨inner, window_eq⟩ := List.getLast?_eq_some_iff.mp last_eq
  rw [List.append_assoc, List.cons_append] at scanned
  obtain ⟨left, right, chars_eq, start_eq, scanned⟩ := exists_start scanned
  rw [Nat.zero_add] at start_eq scanned
  have scanned : scanFrom 0 (byteLength left) right = inner ++ last :: later := by
    rw [scanned, ← List.cons_append, window_eq, List.append_assoc, List.singleton_append]
  rw [window_eq] at apart ⊢
  obtain ⟨part, rest, right_eq, -, stop_eq, scans⟩ := exists_stretch scanned goes_on apart
  refine ⟨.ofList part, ?_, fun dot selectable start ending ends => ?_⟩
  · rw [Source.slice?, chars_eq, right_eq, start_eq, stop_eq, sliceBytes?_append]
    rfl
  · rw [String.toList_ofList]
    exact scans dot ending selectable ends start

/-- The text of a token that is not the last one scans by itself into that token. -/
theorem scans_text {token : Token} {dot : Bool}
    (scanned : scan 0 source.chars = front ++ token :: later) (goes_on : later ≠ [])
    (selectable : dot = true → takesDot token.kind = false) :
    Scans token.text (Ends dot) {tokens | tokens.map lexeme = [token.lexeme]} := by
  have around : scan 0 source.chars = front ++ [token] ++ later := by simpa using scanned
  obtain ⟨text, sliced, scans⟩ := exists_copy around rfl rfl goes_on (.singleton token)
  have member : token ∈ scan 0 source.chars := by
    rw [scanned]
    exact List.mem_append_right _ List.mem_cons_self
  have cut := ((tiles_scanFrom 0 source.chars).standsIn member).slice_eq
  obtain rfl : text = token.text := Option.some.inj (sliced.symm.trans cut)
  exact scans dot selectable

end Copies

/-! ## Texts that end -/

/-- Where a closing parenthesis behind a text is a token of its own, it may be left out. -/
theorem scanFrom_append_closeParen {offset : Nat} {cs : List Char} {token : Token}
    (member : token ∈ scanFrom 0 offset (cs ++ [')']))
    (behind : offset + byteLength cs ≤ token.span.start) :
    scanFrom 0 offset (cs ++ [')']) =
      scanFrom 0 offset cs ++ scanFrom 0 (offset + byteLength cs) [')'] := by
  match cs with
  | [] => rfl
  | c :: cs =>
      rcases piece_eq : pieceAt c (cs ++ [')']) with ⟨more, kind?⟩
      have pieces : scanFrom 0 offset (c :: (cs ++ [')'])) = _ := scanFrom_eq_append piece_eq
      rw [List.cons_append, pieces] at member ⊢
      have size : 0 < byteLength (c :: cs) := Nat.add_pos_left c.utf8Size_pos _
      have later : token ∈ scanFrom 0 (offset + byteLength (c :: (cs ++ [')']).take more))
          ((cs ++ [')']).drop more) := by
        rcases List.mem_append.mp member with first | later
        · cases kind? with
          | none => cases first
          | some kind =>
              obtain rfl := List.mem_singleton.mp first
              exact absurd behind (by simp only; omega)
        · exact later
      have within : more ≤ cs.length := by
        by_contra long
        rw [List.drop_eq_nil_of_le (by simp; omega)] at later
        cases later
      rw [List.take_append_of_le_length within, List.drop_append_of_le_length within] at later ⊢
      have alone : pieceAt c cs = (more, kind?) := by
        rw [← piece_eq]
        refine pieceAt_of_append (by rwa [piece_eq]) fun _ _ _ => by decide
      have size_eq : byteLength (c :: cs) =
          byteLength (c :: cs.take more) + byteLength (cs.drop more) := by
        rw [← byteLength_append, List.cons_append, List.take_append_drop]
      have induction := scanFrom_append_closeParen later (by omega)
      rw [induction, scanFrom_eq_append alone, List.append_assoc, size_eq, Nat.add_assoc]
termination_by cs.length
decreasing_by
  simp only [List.length_drop, List.length_cons]
  omega

/-- A text that scans by itself scans into its tokens where nothing follows it. -/
theorem Scans.alone {text : String} {spelling : Language Token}
    (scans : Scans text (Ends false) spelling) (offset : Nat) :
    scan offset text.toList ∈ spelling := by
  obtain ⟨tokens, member, scan_eq⟩ := scans offset [')'] (ends_cons [] (.inl (by decide)))
  have closing : scanFrom 0 (offset + byteLength text.toList) [')'] =
      [⟨.closeParen, ")",
        ⟨offset + byteLength text.toList, offset + byteLength text.toList + 1⟩⟩] :=
    rfl
  have split : scanFrom 0 offset (text.toList ++ [')']) = _ := scanFrom_append_closeParen
    (by rw [scan_eq, closing]; exact List.mem_append_right _ List.mem_cons_self) (Nat.le_refl _)
  rw [scan_eq] at split
  rw [scan, ← List.append_cancel_right split]
  exact member

end JavaOutline.Token
