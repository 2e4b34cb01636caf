import JavaOutline.Proofs.Token.Lexeme
import JavaOutline.Proofs.Token.Order

/-!
# Scanning a part of a text

A piece of a text is the same piece of a shorter text that holds it, unless it is a number in front
of a dot and the text is cut after the dot. So the tokens of a part that begins with a token and
ends with a closing brace, or with the last token of all, are the tokens of the whole text that
stand there.
-/

namespace JavaOutline

/-- The bytes of a part of a text are cut out as that part. -/
theorem sliceBytes?_append (left part right : List Char) :
    sliceBytes? (left ++ (part ++ right)) (byteLength left) (byteLength left + byteLength part) =
      some part := by
  have taken : takeBytes? (part ++ right) (byteLength part) = some part := by
    induction part with
    | nil => simp [byteLength, takeBytes?]
    | cons c part induction =>
        have positive := c.utf8Size_pos
        obtain ⟨n, length_eq⟩ : ∃ n, byteLength (c :: part) = n + 1 :=
          Nat.exists_eq_succ_of_ne_zero (by rw [byteLength]; omega)
        have rest_eq : n + 1 - c.utf8Size = byteLength part := by
          rw [← length_eq, byteLength, Nat.add_sub_cancel_left]
        have fits : c.utf8Size ≤ n + 1 := by
          rw [← length_eq, byteLength]
          exact Nat.le_add_right _ _
        rw [length_eq, List.cons_append, takeBytes?, if_pos fits, rest_eq, induction]
        rfl
  rw [sliceBytes?, if_pos (Nat.le_add_right _ _), dropBytes?_append, Option.bind_some,
    Nat.add_sub_cancel_left, taken]

namespace Token

/-! ## Pieces -/

section Pieces

variable {text rest : List Char}

/-- A text that is at least one character long begins with the first character of any text that
goes on after it. -/
theorem exists_cons_of_append {c : Char} {more : List Char} (append_eq : text ++ rest = c :: more)
    (long : 1 ≤ text.length) : ∃ later, text = c :: later ∧ later ++ rest = more := by
  cases text with
  | nil => simp at long
  | cons d text =>
      obtain ⟨rfl, more_eq⟩ := List.cons.inj append_eq
      exact ⟨text, rfl, more_eq⟩

theorem lineCommentLength_of_append (within : lineCommentLength (text ++ rest) ≤ text.length) :
    lineCommentLength text = lineCommentLength (text ++ rest) := by
  generalize append_eq : text ++ rest = whole at *
  fun_induction lineCommentLength whole generalizing text with
  | case1 =>
      obtain ⟨rfl, -⟩ := List.append_eq_nil_iff.mp append_eq
      rfl
  | case2 more =>
      obtain ⟨later, rfl, -⟩ := exists_cons_of_append append_eq within
      simp [lineCommentLength]
  | case3 c more goes_on induction =>
      obtain ⟨later, rfl, more_eq⟩ := exists_cons_of_append append_eq (by omega)
      have induction := induction more_eq (Nat.le_of_succ_le_succ within)
      simp [lineCommentLength, goes_on, induction]

theorem blockCommentLength_of_append (within : blockCommentLength (text ++ rest) ≤ text.length) :
    blockCommentLength text = blockCommentLength (text ++ rest) := by
  generalize append_eq : text ++ rest = whole at *
  fun_induction blockCommentLength whole generalizing text with
  | case1 =>
      obtain ⟨rfl, -⟩ := List.append_eq_nil_iff.mp append_eq
      rfl
  | case2 more =>
      obtain ⟨later, rfl, more_eq⟩ := exists_cons_of_append append_eq (by omega)
      obtain ⟨later, rfl, -⟩ := exists_cons_of_append more_eq (Nat.le_of_succ_le_succ within)
      rfl
  | case3 c more open_ induction =>
      obtain ⟨later, rfl, rfl⟩ := exists_cons_of_append append_eq (by omega)
      have induction := induction rfl (Nat.le_of_succ_le_succ within)
      rw [blockCommentLength, induction]
      rintro tail star rfl
      exact open_ _ star rfl

theorem quotedLength_cons {quote c : Char} (no_escape : c ≠ '\\') (cs : List Char) :
    quotedLength quote (c :: cs) =
      if c = '\n' ∨ c = quote then 1 else quotedLength quote cs + 1 := by
  rw [quotedLength]
  · exact fun escape => absurd escape no_escape
  · exact fun _ _ escape => absurd escape no_escape

theorem quotedLength_of_append {quote : Char}
    (within : quotedLength quote (text ++ rest) ≤ text.length) :
    quotedLength quote text = quotedLength quote (text ++ rest) := by
  generalize append_eq : text ++ rest = whole at *
  fun_induction quotedLength quote whole generalizing text with
  | case1 =>
      obtain ⟨rfl, -⟩ := List.append_eq_nil_iff.mp append_eq
      rfl
  | case2 =>
      obtain ⟨later, rfl, more_eq⟩ := exists_cons_of_append append_eq within
      obtain ⟨rfl, -⟩ := List.append_eq_nil_iff.mp more_eq
      rfl
  | case3 escaped more induction =>
      obtain ⟨later, rfl, more_eq⟩ := exists_cons_of_append append_eq (by omega)
      rw [List.length_cons] at within
      obtain ⟨last, rfl, last_eq⟩ := exists_cons_of_append more_eq (by omega)
      rw [List.length_cons] at within
      rw [quotedLength, induction last_eq (by omega)]
  | case4 c more unescaped escapes closes =>
      have no_escape : c ≠ '\\' := by
        rintro rfl
        cases more with
        | nil => exact unescaped rfl rfl
        | cons d more => exact escapes d more rfl rfl
      obtain ⟨later, rfl, -⟩ := exists_cons_of_append append_eq within
      rw [quotedLength_cons no_escape, if_pos closes]
  | case5 c more unescaped escapes goes_on induction =>
      have no_escape : c ≠ '\\' := by
        rintro rfl
        cases more with
        | nil => exact unescaped rfl rfl
        | cons d more => exact escapes d more rfl rfl
      obtain ⟨later, rfl, more_eq⟩ := exists_cons_of_append append_eq (by omega)
      rw [quotedLength_cons no_escape, if_neg goes_on,
        induction more_eq (Nat.le_of_succ_le_succ within)]

theorem textBlockLength_of_append (within : textBlockLength (text ++ rest) ≤ text.length) :
    textBlockLength text = textBlockLength (text ++ rest) := by
  generalize append_eq : text ++ rest = whole at *
  fun_induction textBlockLength whole generalizing text with
  | case1 =>
      obtain ⟨rfl, -⟩ := List.append_eq_nil_iff.mp append_eq
      rfl
  | case2 =>
      obtain ⟨later, rfl, more_eq⟩ := exists_cons_of_append append_eq within
      obtain ⟨rfl, -⟩ := List.append_eq_nil_iff.mp more_eq
      rfl
  | case3 escaped more induction =>
      obtain ⟨later, rfl, more_eq⟩ := exists_cons_of_append append_eq (by omega)
      rw [List.length_cons] at within
      obtain ⟨last, rfl, last_eq⟩ := exists_cons_of_append more_eq (by omega)
      rw [List.length_cons] at within
      rw [textBlockLength, induction last_eq (by omega)]
  | case4 more =>
      obtain ⟨later, rfl, more_eq⟩ := exists_cons_of_append append_eq (by omega)
      rw [List.length_cons] at within
      obtain ⟨last, rfl, last_eq⟩ := exists_cons_of_append more_eq (by omega)
      rw [List.length_cons] at within
      obtain ⟨last, rfl, -⟩ := exists_cons_of_append last_eq (by omega)
      rfl
  | case5 c more unescaped escapes open_ induction =>
      obtain ⟨later, rfl, rfl⟩ := exists_cons_of_append append_eq (by omega)
      rw [textBlockLength, induction rfl (Nat.le_of_succ_le_succ within)]
      · rintro rfl rfl
        cases rest with
        | nil => exact unescaped rfl rfl
        | cons d more => exact escapes d more rfl rfl
      · rintro d tail rfl rfl
        exact escapes d _ rfl rfl
      · rintro tail rfl rfl
        exact open_ _ rfl rfl

theorem takeWhile_of_append {p : Char → Bool}
    (within : ((text ++ rest).takeWhile p).length ≤ text.length) :
    text.takeWhile p = (text ++ rest).takeWhile p := by
  induction text with
  | nil => exact (List.length_eq_zero_iff.mp (Nat.le_zero.mp within)).symm
  | cons c text induction =>
      rw [List.cons_append, List.takeWhile_cons, List.takeWhile_cons] at *
      split at within
      · next passes => rw [if_pos passes, if_pos passes, induction (Nat.le_of_succ_le_succ within)]
      · next fails => rw [if_neg fails, if_neg fails]

theorem numberLength_eq_of_zero {radix dotted floating : Bool}
    (ends : (numberLength radix dotted floating text).1 = 0) :
    numberLength radix dotted floating text = (0, floating) := by
  cases text with
  | nil => rfl
  | cons c text =>
      rw [numberLength_cons] at ends ⊢
      split_ifs at ends ⊢
      all_goals first | rfl | (simp only [Prod.map_fst] at ends; omega)

theorem dotEndsNumber_of_append (nonempty : text ≠ []) :
    dotEndsNumber (text ++ rest) = dotEndsNumber text := by
  cases text with
  | nil => exact absurd rfl nonempty
  | cons c text => rfl

/-- A number is the same in a shorter text, unless it stands in front of a dot that ends it, and
what shows that the dot does so is cut off. -/
theorem numberLength_of_append (radix dotted floating : Bool)
    (within : (numberLength radix dotted floating (text ++ rest)).1 ≤ text.length)
    (dot : (numberLength radix dotted floating (text ++ rest)).1 + 1 = text.length →
      text.getLast? = some '.' → dotEndsNumber rest = false) :
    numberLength radix dotted floating text =
      numberLength radix dotted floating (text ++ rest) := by
  induction length_eq : text.length using Nat.strong_induction_on
    generalizing text dotted floating with
  | _ n induction =>
      cases text with
      | nil => exact (numberLength_eq_of_zero (Nat.le_zero.mp within)).symm
      | cons c text =>
          rw [List.length_cons] at length_eq
          -- One more character of the number, and then the rest of it.
          have after (dotted floating : Bool)
              (within : (numberLength radix dotted floating (text ++ rest)).1 + 1 ≤ text.length + 1)
              (dot :
                (numberLength radix dotted floating (text ++ rest)).1 + 1 + 1 = text.length + 1 →
                  (c :: text).getLast? = some '.' → dotEndsNumber rest = false) :
              numberLength radix dotted floating text =
                numberLength radix dotted floating (text ++ rest) := by
            refine induction text.length (by omega) dotted floating (by omega) ?_ rfl
            intro shorter last
            refine dot (by omega) ?_
            rw [List.getLast?_cons, last]
            rfl
          rw [List.cons_append, numberLength_cons] at within dot
          rw [List.cons_append, numberLength_cons, numberLength_cons]
          by_cases part : (c.isAlphanum || c = '_') = true
          · rw [if_pos part] at within dot ⊢
            rw [if_pos part]
            by_cases exponent : isExponent radix c = true
            · rw [if_pos exponent] at within dot ⊢
              rw [if_pos exponent]
              cases text with
              | nil =>
                  rw [List.nil_append] at within ⊢
                  split_ifs at within with signed
                  · simp only [Prod.map_fst, List.length_singleton] at within
                    omega
                  · rw [if_neg signed, numberLength_eq_of_zero (Nat.le_zero.mp
                      (Nat.le_of_succ_le_succ within))]
                    rfl
              | cons sign text =>
                  rw [List.cons_append, List.head?_cons] at within dot ⊢
                  rw [List.head?_cons]
                  by_cases signed : (some sign).any (fun sign => sign = '+' || sign = '-') = true
                  · rw [if_pos signed] at within dot ⊢
                    rw [if_pos signed]
                    simp only [List.drop_one, List.tail_cons, Prod.map_fst,
                      List.length_cons] at within dot length_eq ⊢
                    rw [induction text.length (by omega) dotted true (by omega) ?_ rfl]
                    intro shorter last
                    refine dot (by omega) ?_
                    rw [List.getLast?_cons, List.getLast?_cons, last]
                    rfl
                  · rw [if_neg signed] at within dot ⊢
                    rw [if_neg signed, after _ _ within dot]
                    rfl
            · rw [if_neg exponent] at within dot ⊢
              rw [if_neg exponent, after _ _ within dot]
          · rw [if_neg part] at within dot ⊢
            rw [if_neg part]
            cases text with
            | nil =>
                rw [List.nil_append] at within dot ⊢
                cases ends : dotEndsNumber rest with
                | false =>
                    rw [ends] at within
                    split_ifs at within with goes_on
                    · rw [show dotEndsNumber [] = false from rfl, if_pos goes_on, if_pos goes_on,
                        numberLength_eq_of_zero (Nat.le_zero.mp (Nat.le_of_succ_le_succ within))]
                      rfl
                    · rw [show dotEndsNumber [] = false from rfl, if_neg goes_on, if_neg goes_on]
                | true =>
                    rw [ends] at dot
                    have no_dot : c ≠ '.' := by
                      rintro rfl
                      simp at dot
                    simp [no_dot]
            | cons d text =>
                rw [dotEndsNumber_of_append (List.cons_ne_nil d text)] at within dot ⊢
                split_ifs with goes_on
                · rw [if_pos goes_on] at within dot
                  rw [after _ _ within dot]
                · rfl

theorem isPrefixOf_of_append {mark : List Char} (short : mark.length ≤ text.length) :
    mark.isPrefixOf text = mark.isPrefixOf (text ++ rest) := by
  induction mark generalizing text with
  | nil => simp
  | cons c mark induction =>
      cases text with
      | nil => simp at short
      | cons d text =>
          rw [List.cons_append, List.isPrefixOf_cons_cons, List.isPrefixOf_cons_cons,
            induction (Nat.le_of_succ_le_succ short)]

theorem isPrefixOf_append {mark : List Char} (found : mark.isPrefixOf text = true) :
    mark.isPrefixOf (text ++ rest) = true :=
  List.isPrefixOf_iff_prefix.mpr ((List.isPrefixOf_iff_prefix.mp found).trans
    (List.prefix_append text rest))

theorem head?_any_of_append (p : Char → Bool) (same : text = [] → rest.head?.any p = false) :
    text.head?.any p = (text ++ rest).head?.any p := by
  cases text with
  | nil => rw [List.nil_append, same rfl]; rfl
  | cons c text => rfl

theorem punctuationAt?_of_append {c : Char}
    (short : ∀ mark ∈ punctuationAt? (c :: (text ++ rest)), mark.1.length ≤ text.length + 1)
    (digit : text = [] → c = '.' → rest.head?.any Char.isDigit = false) :
    punctuationAt? (c :: text) = punctuationAt? (c :: (text ++ rest)) := by
  have append_eq : c :: (text ++ rest) = c :: text ++ rest := rfl
  unfold punctuationAt? at short ⊢
  cases found : punctuation.find? (fun mark => mark.1.isPrefixOf (c :: (text ++ rest))) with
  | none =>
      have absent : punctuation.find? (fun mark => mark.1.isPrefixOf (c :: text)) = none := by
        rw [List.find?_eq_none] at found ⊢
        intro mark member shown
        exact found mark member (append_eq ▸ isPrefixOf_append shown)
      rw [absent]
      rfl
  | some mark =>
      obtain ⟨shown, front, back, marks_eq, unshown⟩ := List.find?_eq_some_iff_append.mp found
      have unshown' (other : List Char × TokenKind) (member : other ∈ front) :
          (!other.1.isPrefixOf (c :: text)) = true := by
        have hidden := unshown other member
        cases shown' : other.1.isPrefixOf (c :: text) with
        | false => rfl
        | true => rw [append_eq, isPrefixOf_append shown'] at hidden; cases hidden
      have found' (shown' : mark.1.isPrefixOf (c :: text) = true) :
          punctuation.find? (fun mark => mark.1.isPrefixOf (c :: text)) = some mark :=
        List.find?_eq_some_iff_append.mpr ⟨shown', front, back, marks_eq, unshown'⟩
      have unchanged (nonempty : text ≠ []) :
          text.head?.any Char.isDigit = (text ++ rest).head?.any Char.isDigit :=
        head?_any_of_append _ fun empty => absurd empty nonempty
      rw [found] at short
      cases digits : (decide (mark.2 = .dot) && (text ++ rest).head?.any Char.isDigit) with
      | false =>
          have shown' : mark.1.isPrefixOf (c :: text) = true := by
            refine (isPrefixOf_of_append (short mark ?_)).trans shown
            simp only [Option.filter_some, List.drop_succ_cons, List.drop_zero, digits,
              Bool.not_false, if_true, Option.mem_some_iff]
          have digits' : (decide (mark.2 = .dot) && text.head?.any Char.isDigit) = false := by
            by_cases empty : text = []
            · simp [empty]
            · rw [unchanged empty, digits]
          rw [found' shown']
          simp only [Option.filter_some, List.drop_succ_cons, List.drop_zero, digits, digits']
      | true =>
          obtain ⟨is_dot, next⟩ := Bool.and_eq_true_iff.mp digits
          have only_dot : ∀ mark ∈ punctuation, mark.2 = .dot → mark.1 = ['.'] := by decide
          have mark_eq := only_dot mark (List.mem_of_find?_eq_some found) (of_decide_eq_true is_dot)
          have dot_eq : c = '.' := by
            rw [mark_eq, List.isPrefixOf_cons_cons, Bool.and_eq_true, beq_iff_eq] at shown
            exact shown.1.symm
          have nonempty : text ≠ [] := fun empty => by
            rw [empty, List.nil_append, digit empty dot_eq] at next
            cases next
          rw [found' (by simp [mark_eq, dot_eq])]
          simp only [Option.filter_some, List.drop_succ_cons, List.drop_zero, unchanged nonempty]

theorem numberLength_pos {d : Char} (alphanumeric : d.isAlphanum = true)
    (radix dotted floating : Bool) (cs : List Char) :
    0 < (numberLength radix dotted floating (d :: cs)).1 := by
  rw [numberLength_cons, alphanumeric, Bool.true_or, if_pos rfl]
  split_ifs <;> exact Nat.succ_pos _

theorem numberRest_of_append {c : Char} (within : (numberRest c (text ++ rest)).1 ≤ text.length)
    (dot : (numberRest c (text ++ rest)).1 + 1 = text.length →
      text.getLast? = some '.' → dotEndsNumber rest = false) :
    numberRest c text = numberRest c (text ++ rest) := by
  have radix_eq : text.head?.any (['x', 'X', 'b', 'B'].contains ·) =
      (text ++ rest).head?.any (['x', 'X', 'b', 'B'].contains ·) := by
    refine head?_any_of_append _ ?_
    rintro rfl
    cases rest with
    | nil => rfl
    | cons d rest =>
        have checked : ∀ d ∈ ['x', 'X', 'b', 'B'], d.isAlphanum = true :=
          List.forall_iff_forall_mem.mp (by decide)
        rw [List.head?_cons, Option.any_some, Bool.eq_false_iff]
        intro mark
        have positive := numberLength_pos (checked d (List.contains_iff_mem.mp mark))
        exact Nat.not_lt_of_le within (positive _ _ _ _)
  simp only [numberRest] at within dot ⊢
  rw [radix_eq, numberLength_of_append _ _ _ within dot]

theorem tokenAt_of_append {c : Char} (within : (tokenAt c (text ++ rest)).1 ≤ text.length)
    (dot : (c.isDigit || c = '.') = true → (tokenAt c (text ++ rest)).1 + 1 = text.length →
      text.getLast? = some '.' → dotEndsNumber rest = false) :
    tokenAt c text = tokenAt c (text ++ rest) := by
  unfold tokenAt at within dot ⊢
  by_cases quotes : ['"', '"', '"'].isPrefixOf (c :: (text ++ rest)) = true
  · rw [if_pos quotes] at within ⊢
    match text, within with
    | first :: second :: text, within =>
        have within : textBlockLength (text ++ rest) ≤ text.length := by simpa using within
        refine (if_pos quotes).trans ?_
        exact congrArg (fun length => (length + 2, _)) (textBlockLength_of_append within)
  have unquoted : ¬['"', '"', '"'].isPrefixOf (c :: text) = true :=
    fun quotes' => quotes (isPrefixOf_append quotes')
  rw [if_neg quotes] at within dot ⊢
  rw [if_neg unquoted]
  have punctuation_eq : punctuationAt? (c :: text) = punctuationAt? (c :: (text ++ rest)) := by
    refine punctuationAt?_of_append (fun mark found => ?_) ?_
    · rw [found] at within
      exact Nat.sub_le_iff_le_add.mp within
    · rintro rfl rfl
      cases rest with
      | nil => rfl
      | cons d rest =>
          rw [List.head?_cons, Option.any_some, Bool.eq_false_iff]
          intro digit
          have unmarked := (punctuationAt?_dot (d :: rest)).mpr digit
          have positive := numberLength_pos (d := d) (by simp [Char.isAlphanum, digit])
          simp only [List.nil_append, unmarked] at within
          exact Nat.not_lt_of_le within (positive _ _ _ _)
  rw [punctuation_eq]
  cases mark_eq : punctuationAt? (c :: (text ++ rest)) with
  | some mark => rfl
  | none =>
      rw [mark_eq] at within dot
      simp only at within dot ⊢
      split_ifs at within dot ⊢ with string character number
      · rw [quotedLength_of_append within]
      · rw [quotedLength_of_append within]
      · exact numberRest_of_append within (dot number)
      · rw [takeWhile_of_append within]
      · rfl

/-- A piece is the same in a shorter text that holds it, unless it is a number and the text ends in
a dot behind it. -/
theorem pieceAt_of_append {c : Char} (within : (pieceAt c (text ++ rest)).1 ≤ text.length)
    (dot : (c.isDigit || c = '.') = true → (pieceAt c (text ++ rest)).1 + 1 = text.length →
      text.getLast? = some '.' → dotEndsNumber rest = false) :
    pieceAt c text = pieceAt c (text ++ rest) := by
  unfold pieceAt at within dot ⊢
  by_cases blank : isWhiteSpace c = true
  · rw [if_pos blank, if_pos blank]
  rw [if_neg blank] at within dot ⊢
  rw [if_neg blank]
  by_cases line : (c = '/' && (text ++ rest).head? = some '/') = true
  · rw [if_pos line] at within ⊢
    cases text with
    | nil => exact absurd within (Nat.not_succ_le_zero _)
    | cons d text =>
        have within : lineCommentLength (text ++ rest) ≤ text.length :=
          Nat.le_of_succ_le_succ within
        exact (if_pos line).trans
          (congrArg (fun length => (length + 1, none)) (lineCommentLength_of_append within))
  rw [if_neg line] at within dot ⊢
  by_cases block : (c = '/' && (text ++ rest).head? = some '*') = true
  · rw [if_pos block] at within ⊢
    cases text with
    | nil => exact absurd within (Nat.not_succ_le_zero _)
    | cons d text =>
        have within : blockCommentLength (text ++ rest) ≤ text.length :=
          Nat.le_of_succ_le_succ within
        exact (if_neg line).trans ((if_pos block).trans
          (congrArg (fun length => (length + 1, none)) (blockCommentLength_of_append within)))
  rw [if_neg block] at within dot ⊢
  have same := tokenAt_of_append within dot
  cases text with
  | nil =>
      rw [← same]
      simp
  | cons d text =>
      rw [← same]
      exact (if_neg line).trans (if_neg block)

end Pieces

/-! ## Tokens -/

/-- The token of a piece, unless the piece is blank. -/
def pieceTokens (offset : Nat) (chars : List Char) (kind? : Option TokenKind) : List Token :=
  kind?.toList.map fun kind => ⟨kind, String.ofList chars, ⟨offset, offset + byteLength chars⟩⟩

theorem scanFrom_eq_append {offset : Nat} {c : Char} {cs : List Char} {more : Nat}
    {kind? : Option TokenKind} (piece_eq : pieceAt c cs = (more, kind?)) :
    scanFrom 0 offset (c :: cs) = pieceTokens offset (c :: cs.take more) kind? ++
      scanFrom 0 (offset + byteLength (c :: cs.take more)) (cs.drop more) := by
  have rest_eq := scanFrom_skip more (offset + c.utf8Size) cs
  rw [Nat.add_assoc] at rest_eq
  simp only [scanFrom, piece_eq, byteLength, rest_eq]
  cases kind? with
  | none => rfl
  | some kind => rfl

/-- A token is that of the first piece, or one of the tokens after that. -/
theorem pieceTokens_append_cases {offset : Nat} {chars : List Char} {kind? : Option TokenKind}
    {rest front later : List Token} {token : Token}
    (append_eq : pieceTokens offset chars kind? ++ rest = front ++ token :: later) :
    (front = [] ∧ rest = later ∧ token.span = ⟨offset, offset + byteLength chars⟩ ∧
      kind? = some token.kind ∧ pieceTokens offset chars kind? = [token]) ∨
    ∃ middle, front = pieceTokens offset chars kind? ++ middle ∧
      rest = middle ++ token :: later := by
  cases kind? with
  | none => exact .inr ⟨front, rfl, append_eq⟩
  | some kind =>
      cases front with
      | nil =>
          obtain ⟨rfl, rfl⟩ := List.cons.inj append_eq
          exact .inl ⟨rfl, rfl, rfl, rfl, rfl⟩
      | cons first front =>
          obtain ⟨rfl, rest_eq⟩ := List.cons.inj append_eq
          exact .inr ⟨front, rfl, rest_eq⟩

/-- Scanning may begin anew in front of every token. -/
theorem exists_start {offset : Nat} {cs : List Char} {front later : List Token} {token : Token}
    (scanned : scanFrom 0 offset cs = front ++ token :: later) :
    ∃ left right, cs = left ++ right ∧ token.span.start = offset + byteLength left ∧
      scanFrom 0 (offset + byteLength left) right = token :: later := by
  match cs with
  | [] => simp [scanFrom] at scanned
  | c :: cs =>
      rcases piece_eq : pieceAt c cs with ⟨more, kind?⟩
      have pieces : scanFrom 0 offset (c :: cs) = _ := scanFrom_eq_append piece_eq
      rcases pieceTokens_append_cases (pieces.symm.trans scanned) with
        ⟨rfl, -, span_eq, -, -⟩ | ⟨middle, -, rest_eq⟩
      · exact ⟨[], c :: cs, rfl, by rw [span_eq]; rfl, scanned⟩
      · obtain ⟨left, right, chars_eq, start_eq, scanned⟩ := exists_start rest_eq
        refine ⟨c :: cs.take more ++ left, right, ?_, ?_, ?_⟩
        · rw [List.append_assoc, ← chars_eq, List.cons_append, List.take_append_drop]
        · rw [byteLength_append, ← Nat.add_assoc, start_eq]
        · rw [byteLength_append, ← Nat.add_assoc, scanned]
termination_by cs.length
decreasing_by
  simp only [List.length_drop, List.length_cons]
  omega

/-- A text that is blank does not end a number in front of a dot. -/
theorem dotEndsNumber_of_blank {offset : Nat} {cs : List Char} (blank : scanFrom 0 offset cs = []) :
    dotEndsNumber cs = false := by
  cases cs with
  | nil => rfl
  | cons c cs =>
      have blank_head : isWhiteSpace c = true ∨ c = '/' := by
        rcases piece_eq : pieceAt c cs with ⟨more, kind?⟩
        rw [scanFrom_eq_append piece_eq] at blank
        cases kind? with
        | some kind => cases blank
        | none =>
            unfold pieceAt at piece_eq
            split_ifs at piece_eq with white line block
            · exact .inl white
            · exact .inr (of_decide_eq_true (Bool.and_eq_true_iff.mp line).1)
            · exact .inr (of_decide_eq_true (Bool.and_eq_true_iff.mp block).1)
            · cases (Prod.mk.inj piece_eq).2
      have no_start : isIdentifierStart c = false := by
        rcases blank_head with white | rfl
        · by_contra start
          simp [isWhiteSpace_eq_false (Bool.eq_true_of_not_eq_false start)] at white
        · decide
      have no_dot : c ≠ '.' := by
        rintro rfl
        rcases blank_head with white | slash
        · exact absurd white (by decide)
        · exact absurd slash (by decide)
      simp [dotEndsNumber, no_start, no_dot]

theorem pieceAt_closeBrace {c : Char} {cs : List Char} {more : Nat}
    (piece_eq : pieceAt c cs = (more, some .closeBrace)) : c = '\x7d' ∧ more = 0 := by
  have only_brace : ∀ mark ∈ punctuation, mark.2 = .closeBrace → mark.1 = ['\x7d'] := by decide
  have token_eq : tokenAt c cs = (more, .closeBrace) := by
    unfold pieceAt at piece_eq
    split_ifs at piece_eq <;> simp_all [Prod.ext_iff]
  unfold tokenAt at token_eq
  cases mark_eq : punctuationAt? (c :: cs) with
  | none =>
      have unbraced : (numberRest c cs).2 ≠ .closeBrace := by
        simp only [numberRest]
        split_ifs <;> simp
      rw [mark_eq] at token_eq
      split_ifs at token_eq <;> simp_all
  | some mark =>
      rw [mark_eq] at token_eq
      dsimp only at token_eq
      split_ifs at token_eq
      · cases (Prod.mk.inj token_eq).2
      · obtain ⟨more_eq, kind_eq⟩ := Prod.mk.inj token_eq
        obtain ⟨found, -⟩ := Option.filter_eq_some_iff.mp mark_eq
        have chars_eq := only_brace mark (List.mem_of_find?_eq_some found) kind_eq
        have shown := List.find?_some found
        rw [chars_eq, List.isPrefixOf_cons_cons, Bool.and_eq_true, beq_iff_eq] at shown
        rw [chars_eq] at more_eq
        exact ⟨shown.1.symm, more_eq.symm⟩

/-- A piece is a piece of the characters that it takes. -/
theorem pieceAt_take {c : Char} {cs : List Char} {more : Nat} {kind? : Option TokenKind}
    (piece_eq : pieceAt c cs = (more, kind?)) : pieceAt c (cs.take more) = (more, kind?) := by
  by_cases within : more ≤ cs.length
  · have append_eq := List.take_append_drop more cs
    rw [← piece_eq, ← append_eq, List.take_append_drop]
    conv_rhs => rw [← append_eq]
    refine pieceAt_of_append ?_ ?_
    · rw [append_eq, piece_eq, List.length_take_of_le within]
    · rw [append_eq, piece_eq, List.length_take_of_le within]
      exact fun _ behind => absurd behind (Nat.succ_ne_self _)
  · rw [List.take_of_length_le (Nat.le_of_not_le within), piece_eq]

/-- Scanning may end after a closing brace, and after the last token. -/
theorem exists_part {offset : Nat} {cs : List Char} {front later : List Token} {token : Token}
    (scanned : scanFrom 0 offset cs = front ++ token :: later)
    (ends : token.kind = .closeBrace ∨ later = []) :
    ∃ part rest, cs = part ++ rest ∧ part ≠ [] ∧ token.span.stop = offset + byteLength part ∧
      scanFrom 0 offset part = front ++ [token] ∧
      (part.getLast? = some '.' → dotEndsNumber rest = false) := by
  match cs with
  | [] => simp [scanFrom] at scanned
  | c :: cs =>
      rcases piece_eq : pieceAt c cs with ⟨more, kind?⟩
      have pieces : scanFrom 0 offset (c :: cs) = _ := scanFrom_eq_append piece_eq
      rcases pieceTokens_append_cases (pieces.symm.trans scanned) with
        ⟨rfl, rest_eq, span_eq, rfl, tokens_eq⟩ | ⟨middle, rfl, rest_eq⟩
      · refine ⟨c :: cs.take more, cs.drop more, ?_, List.cons_ne_nil _ _, ?_, ?_, ?_⟩
        · rw [List.cons_append, List.take_append_drop]
        · rw [span_eq]
        · rw [scanFrom_eq_append (pieceAt_take piece_eq), List.take_take, Nat.min_self, tokens_eq,
            List.drop_take, Nat.sub_self, List.take_zero]
          rfl
        · rcases ends with closes | rfl
          · rw [closes] at piece_eq
            obtain ⟨rfl, rfl⟩ := pieceAt_closeBrace piece_eq
            intro dot
            simp at dot
          · exact fun _ => dotEndsNumber_of_blank rest_eq
      · obtain ⟨part, rest, chars_eq, nonempty, stop_eq, scanned, dot⟩ := exists_part rest_eq ends
        have within : more ≤ cs.length := by
          by_contra long
          rw [List.drop_of_length_le (Nat.le_of_not_le long)] at chars_eq
          exact nonempty (List.append_eq_nil_iff.mp chars_eq.symm).1
        have taken : (cs.take more).length = more := List.length_take_of_le within
        have append_eq : cs.take more ++ part ++ rest = cs := by
          rw [List.append_assoc, ← chars_eq, List.take_append_drop]
        have last_eq : (cs.take more ++ part).getLast? = part.getLast? := by
          rw [List.getLast?_append_of_ne_nil _ nonempty]
        have piece_eq : pieceAt c (cs.take more ++ part) = (more, kind?) := by
          rw [← piece_eq]
          conv_rhs => rw [← append_eq]
          refine pieceAt_of_append ?_ ?_
          · rw [append_eq, piece_eq, List.length_append, taken]
            exact Nat.le_add_right more part.length
          · rw [last_eq]
            exact fun _ _ => dot
        refine ⟨c :: (cs.take more ++ part), rest, ?_, List.cons_ne_nil _ _, ?_, ?_, ?_⟩
        · rw [List.cons_append, append_eq]
        · rw [stop_eq, ← List.cons_append, byteLength_append, Nat.add_assoc]
        · rw [scanFrom_eq_append piece_eq, List.take_left' taken, List.drop_left' taken, scanned,
            List.append_assoc]
        · rw [← List.cons_append, List.getLast?_append_of_ne_nil _ nonempty]
          exact dot
termination_by cs.length
decreasing_by
  simp only [List.length_drop, List.length_cons]
  omega

/-- The tokens from one on up to a closing brace, or up to the last token, are those of the text
that they cover. -/
theorem exists_between {source : Source} {front window later : List Token} {first last : Token}
    (scanned : scan 0 source.chars = front ++ (first :: window ++ later))
    (last_eq : (first :: window).getLast? = some last)
    (ends : last.kind = .closeBrace ∨ later = []) :
    ∃ part, source.slice? ⟨first.span.start, last.span.stop⟩ = some (String.ofList part) ∧
      scan first.span.start part = first :: window := by
  obtain ⟨left, right, chars_eq, start_eq, scanned⟩ := exists_start scanned
  obtain ⟨inner, window_eq⟩ := List.getLast?_eq_some_iff.mp last_eq
  rw [Nat.zero_add] at start_eq scanned
  have scanned : scanFrom 0 (byteLength left) right = inner ++ last :: later := by
    rw [scanned]
    change first :: window ++ later = _
    rw [window_eq, List.append_assoc, List.singleton_append]
  obtain ⟨part, rest, right_eq, -, stop_eq, part_eq, -⟩ := exists_part scanned ends
  refine ⟨part, ?_, ?_⟩
  · rw [Source.slice?, chars_eq, right_eq, start_eq, stop_eq, sliceBytes?_append]
    rfl
  · rw [scan, start_eq, part_eq, window_eq]

end Token

end JavaOutline
