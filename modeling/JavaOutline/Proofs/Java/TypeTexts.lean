import JavaOutline.Proofs.Java.Fates
import JavaOutline.Proofs.Token.Characters

/-!
# The texts of types

The text of a type is that of its tokens, with spaces around `extends` and `super` and nothing else
between them. It scans into the same lexemes as long as no two tokens next to each other become one:
two words without such a space, two `<`, two `&`, or two dots.
-/

namespace JavaOutline.Token

variable {token following : Token} {tokens : List Token} {kind : TokenKind} {c : Char}

/-- Whether a token stands between the bound and the type argument that it is a bound of. -/
def isBoundWord (token : Token) : Bool :=
  token.isWord "extends" || token.isWord "super"

/-- Whether two tokens of a type stay apart where nothing is put between them. -/
def ApartInType (token following : Token) : Prop :=
  token.Apart following ∧ (token.kind = following.kind →
    token.kind ≠ .less ∧ token.kind ≠ .amp ∧
      (token.kind = .word → token.isBoundWord ∨ following.isBoundWord))

/-- Whether a token of some kind goes on with a character. -/
def goesOn : TokenKind → Char → Bool
  | .word, c => isIdentifierPart c
  | .dot, c => c = '.'
  | .less, c => c = '<'
  | .amp, c => c = '&'
  | _, _ => false

/-- The characters that may stand behind a token of a type, those of a word apart. -/
def typeFollowers : List Char := [' ', ')', ']', ',', '[', '(', '.', '?', '&', '@', '<', '>']

/-- Whether a text goes on with a character that may stand behind a token of a type and does not
become part of it. -/
def EndsPart (kind : TokenKind) (rest : List Char) : Prop :=
  ∃ c more, rest = c :: more ∧ (c ∈ typeFollowers ∨ isIdentifierStart c = true) ∧
    goesOn kind c = false

/-- The marks that may be parts of types. -/
def typeMarks : List (Char × TokenKind) :=
  [('.', .dot), (',', .comma), ('?', .question), ('&', .amp), ('[', .openBracket),
    (']', .closeBracket), ('@', .atSign), ('<', .less), ('>', .greater)]

theorem exists_mark_of_isTypePart (part : token.isTypePart = true) (no_word : token.kind ≠ .word) :
    ∃ mark ∈ typeMarks, mark.2 = token.kind := by
  revert part no_word
  simp only [isTypePart, TokenKind.isTypeArgument]
  cases token.kind <;> decide

theorem typeMarks_punctuation : ∀ mark ∈ typeMarks, ([mark.1], mark.2) ∈ punctuation := by
  decide

/-- No mark that may be part of a type goes on with a character that may stand behind it, unless
it is one of the marks that are known to. -/
theorem notMem_tail_of_typeMarks :
    ∀ mark ∈ typeMarks, ∀ c ∈ typeFollowers, goesOn mark.2 c = false →
      ∀ longer ∈ punctuation, longer.1.head? = some mark.1 → c ∉ longer.1.tail := by
  have checked : ∀ mark ∈ typeMarks, ∀ longer ∈ punctuation, longer.1.head? = some mark.1 →
      longer.1.tail.Forall fun c => c ∈ typeFollowers → goesOn mark.2 c = true := by
    decide
  intro mark mark_mem c follows apart longer longer_mem begins member
  have each := List.forall_iff_forall_mem.mp (checked mark mark_mem longer longer_mem begins)
  rw [each c member follows] at apart
  cases apart

theorem scans_typePart (part : token.isTypePart = true) (known : token.IsSpelled)
    (word : token.kind = .word → isWordText token.text = true) :
    Scans token.text (EndsPart token.kind) (spelled [token.lexeme]) := by
  by_cases kind_eq : token.kind = .word
  · obtain ⟨c, cs, chars_eq, start, parts⟩ := exists_cons_of_isWordText (word kind_eq)
    have text_eq : token.text = .ofList (c :: cs) := by rw [← chars_eq, String.ofList_toList]
    rw [lexeme, kind_eq, text_eq]
    refine scans_of_pieceAt ?_
    rintro _ ⟨d, more, rfl, -, ends⟩
    exact pieceAt_word_of_stops start parts fun e found => Option.some.inj found ▸ ends
  · obtain ⟨⟨c, kind⟩, member, rfl⟩ := exists_mark_of_isTypePart part kind_eq
    have punctuates := typeMarks_punctuation _ member
    have no_slash : ∀ mark ∈ typeMarks, mark.1 ≠ '/' := by decide
    rw [lexeme, known _ punctuates rfl]
    refine scans_of_pieceAt ?_
    rintro _ ⟨d, more, rfl, follows, apart⟩
    refine pieceAt_mark punctuates (no_slash _ member) ?_ ?_ more
    · rcases follows with follows | start
      · exact notMem_tail_of_typeMarks _ member d follows apart
      · have unmarked : ∀ mark ∈ punctuation, mark.1.tail.Forall (isIdentifierStart · = false) := by
          decide
        rintro mark mark_mem - tail_mem
        rw [List.forall_iff_forall_mem.mp (unmarked mark mark_mem) d tail_mem] at start
        cases start
    · rcases follows with follows | start
      · have checked : ∀ d ∈ typeFollowers, d.isDigit = false :=
          List.forall_iff_forall_mem.mp (by decide)
        exact checked d follows
      · exact isDigit_eq_false start

theorem typeArgumentText_of_isBoundWord (bound : token.isBoundWord = true) :
    token.typeArgumentText = " " ++ token.text ++ " " :=
  if_pos bound

theorem typeArgumentText_of_not (bound : ¬token.isBoundWord = true) :
    token.typeArgumentText = token.text :=
  if_neg bound

theorem scans_typeArgumentText (part : token.isTypePart = true) (known : token.IsSpelled)
    (word : token.kind = .word → isWordText token.text = true) :
    Scans token.typeArgumentText (fun rest => token.isBoundWord ∨ EndsPart token.kind rest)
      (spelled [token.lexeme]) := by
  have alone := scans_typePart part known word
  by_cases bound : token.isBoundWord = true
  · have kind_eq : token.kind = .word := by
      simp only [isBoundWord, isWord, Bool.or_eq_true, Bool.and_eq_true, decide_eq_true_eq] at bound
      exact bound.elim And.left And.left
    have ends (rest : List Char) : EndsPart token.kind (' ' :: rest) :=
      ⟨' ', rest, rfl, .inl (by decide), by rw [kind_eq]; decide⟩
    have whole := (Scans.blank.append alone fun _ _ => trivial).append_blank ends
    rw [typeArgumentText_of_isBoundWord bound]
    rw [one_mul] at whole
    exact whole.mono fun _ _ => trivial
  · rw [typeArgumentText_of_not bound]
    exact alone.mono fun rest ends => ends.resolve_left bound

/-- A token of a type begins with a character that may follow one. -/
theorem exists_begins_part (part : following.isTypePart = true) (known : following.IsSpelled)
    (word : following.kind = .word → isWordText following.text = true)
    (apart : token.ApartInType following) (rest : List Char) :
    token.isBoundWord ∨ EndsPart token.kind (following.typeArgumentText.toList ++ rest) := by
  have start_eq (c : Char) (start : isIdentifierStart c = true) (d : Char)
      (other : isIdentifierStart d = false) : c ≠ d := by
    rintro rfl
    rw [start] at other
    cases other
  by_cases bound : following.isBoundWord = true
  · rw [typeArgumentText_of_isBoundWord bound]
    refine .inr ⟨' ', following.text.toList ++ ' ' :: rest, ?_, .inl (by decide), ?_⟩
    · rw [String.toList_append, String.toList_append, List.append_assoc, List.append_assoc]
      rfl
    · cases token.kind <;> decide
  rw [typeArgumentText_of_not bound]
  by_cases kind_eq : following.kind = .word
  · obtain ⟨c, cs, chars_eq, start, -⟩ := exists_cons_of_isWordText (word kind_eq)
    by_cases same : token.kind = .word
    · exact .inl (((apart.2 (same.trans kind_eq.symm)).2.2 same).resolve_right bound)
    · refine .inr ⟨c, cs ++ rest, by rw [chars_eq, List.cons_append], .inr start, ?_⟩
      have differs := start_eq c start
      unfold goesOn
      split
      · exact absurd ‹_› same
      · exact decide_eq_false (differs _ (by decide))
      · exact decide_eq_false (differs _ (by decide))
      · exact decide_eq_false (differs _ (by decide))
      · rfl
  · obtain ⟨⟨c, kind⟩, member, mark_eq⟩ := exists_mark_of_isTypePart part kind_eq
    have checked : ∀ mark ∈ typeMarks, mark.1 ∈ typeFollowers ∧ isIdentifierPart mark.1 = false ∧
        (mark.1 = '.' → mark.2 = .dot) ∧ (mark.1 = '<' → mark.2 = .less) ∧
          (mark.1 = '&' → mark.2 = .amp) := by
      decide
    obtain ⟨follows, no_part, dot, less, amp⟩ := checked _ member
    rw [known _ (typeMarks_punctuation _ member) mark_eq]
    refine .inr ⟨c, rest, by rw [String.toList_ofList]; rfl, .inl follows, ?_⟩
    unfold goesOn
    split
    · exact no_part
    · next dot_eq =>
      refine decide_eq_false fun found => (apart.1 (by rw [dot_eq]; rfl)).1 ?_
      rw [← mark_eq, dot found]
    · next less_eq =>
      refine decide_eq_false fun found => (apart.2 ?_).1 less_eq
      rw [← mark_eq, less found, less_eq]
    · next amp_eq =>
      refine decide_eq_false fun found => (apart.2 ?_).2.1 amp_eq
      rw [← mark_eq, amp found, amp_eq]
    · rfl

/-- Behind the last token of a type a dot may follow, unless that is a dot. -/
theorem EndsPart.of_ends {dot : Bool} {rest : List Char} (ends : Ends dot rest)
    (selectable : dot = true → takesDot token.kind = false) : EndsPart token.kind rest := by
  obtain ⟨c, more, rfl, stops⟩ := ends
  have checked : ∀ c ∈ [' ', ')', ']', ',', '[', '(', '.'],
      c ∈ typeFollowers ∧ isIdentifierPart c = false ∧ c ≠ '<' ∧ c ≠ '&' :=
    List.forall_iff_forall_mem.mp (by decide)
  obtain ⟨follows, no_part, no_less, no_amp⟩ := checked c (by grind)
  refine ⟨c, more, rfl, .inl follows, ?_⟩
  unfold goesOn
  split
  · exact no_part
  · next dot_eq =>
    refine decide_eq_false ?_
    rintro rfl
    have no_dot := selectable (by simpa using stops)
    rw [dot_eq] at no_dot
    cases no_dot
  · exact decide_eq_false no_less
  · exact decide_eq_false no_amp
  · rfl

/-- The text of a type scans by itself into the tokens of the type. -/
theorem scans_typeText {dot : Bool} (parts : ∀ token ∈ tokens, token.isTypePart)
    (known : ∀ token ∈ tokens, token.IsSpelled)
    (words : ∀ token ∈ tokens, token.kind = .word → isWordText token.text = true)
    (apart : tokens.IsChain ApartInType)
    (selectable : dot = true → ∀ last ∈ tokens.getLast?, takesDot last.kind = false) :
    Scans (String.join (tokens.map typeArgumentText)) (Ends dot)
      {found | found.map lexeme = tokens.map lexeme} := by
  induction tokens with
  | nil => exact fun offset rest _ => ⟨[], rfl, rfl⟩
  | cons token tokens induction =>
      obtain ⟨part, parts⟩ := List.forall_mem_cons.mp parts
      obtain ⟨spelling, known⟩ := List.forall_mem_cons.mp known
      obtain ⟨word, words⟩ := List.forall_mem_cons.mp words
      have first := scans_typeArgumentText part spelling word
      have later := induction parts known words apart.tail fun dot_eq last found =>
        selectable dot_eq last (by cases tokens <;> simp_all)
      rw [List.map_cons, String.join_cons]
      intro offset rest ends
      have whole := first.append later (fun rest ends => ?_) offset rest ends
      · obtain ⟨found, ⟨head, ⟨head_eq, -⟩, tail, tail_eq, rfl⟩, scan_eq⟩ := whole
        have lexemes_eq : (head ++ tail).map lexeme = (token :: tokens).map lexeme := by
          rw [List.map_append, head_eq, tail_eq]
          rfl
        exact ⟨head ++ tail, lexemes_eq, scan_eq⟩
      cases tokens with
      | nil => exact .inr (EndsPart.of_ends ends fun dot_eq => selectable dot_eq token rfl)
      | cons following tokens =>
          rw [List.map_cons, String.join_cons, String.toList_append, List.append_assoc]
          exact exists_begins_part (parts following List.mem_cons_self)
            (known following List.mem_cons_self) (words following List.mem_cons_self)
            (List.isChain_cons_cons.mp apart).1 _

end JavaOutline.Token
