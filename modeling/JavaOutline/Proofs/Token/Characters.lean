import JavaOutline.Proofs.Token.Respaced

/-!
# The characters of tokens

A token that is a punctuation mark has the characters of the mark, and a word those of a word. A
word ends in front of any character that is no part of a word, and a mark of one character in front
of any character that makes no longer mark of it.
-/

namespace JavaOutline.Token

variable {c d : Char} {kind : TokenKind}

/-- Whether a token has the characters of its kind, if that is the kind of a punctuation mark. -/
def IsSpelled (token : Token) : Prop :=
  ∀ mark ∈ punctuation, mark.2 = token.kind → token.text = .ofList mark.1

theorem isSpelled_of_mem_scanFrom {skip offset : Nat} {cs : List Char} {token : Token}
    (member : token ∈ scanFrom skip offset cs) : token.IsSpelled := by
  obtain ⟨c, cs, more, piece_eq, text_eq⟩ := exists_pieceAt_of_mem member
  have no_mark : ∀ kind ∈ [TokenKind.textBlock, .string, .character, .integer, .floating, .word,
      .unknown], ∀ mark ∈ punctuation, mark.2 ≠ kind := by decide
  have one_mark : ∀ mark ∈ punctuation, ∀ mark' ∈ punctuation, mark.2 = mark'.2 →
      mark = mark' := by decide
  have token_eq : tokenAt c cs = (more, token.kind) := by
    grind [pieceAt]
  intro mark mark_mem kind_eq
  rw [text_eq, String.ofList_inj]
  have no_kind (kind : TokenKind) (length : Nat) (other : kind ∈ [TokenKind.textBlock, .string,
      .character, .integer, .floating, .word, .unknown]) : (length, kind) ≠ (more, token.kind) := by
    rintro ⟨⟩
    exact no_mark _ other mark mark_mem kind_eq
  unfold tokenAt at token_eq
  split at token_eq
  · exact absurd token_eq (no_kind _ _ (by decide))
  split at token_eq
  next chars kind mark_eq =>
    obtain ⟨rfl, rfl⟩ := Prod.mk.inj token_eq
    obtain ⟨found, -⟩ := Option.filter_eq_some_iff.mp mark_eq
    obtain rfl := one_mark mark mark_mem _ (List.mem_of_find?_eq_some found) kind_eq
    have begins := List.find?_some found
    obtain ⟨rest, chars_eq⟩ := List.isPrefixOf_iff_prefix.mp begins
    have nonempty : ∀ mark ∈ punctuation, mark.1 ≠ [] := by decide
    obtain ⟨d, ds, rfl⟩ := List.exists_cons_of_ne_nil (nonempty _ mark_mem)
    obtain ⟨rfl, rfl⟩ := List.cons.inj chars_eq
    exact congrArg (d :: ·) List.take_left
  split_ifs at token_eq
  · exact absurd token_eq (no_kind _ _ (by decide))
  · exact absurd token_eq (no_kind _ _ (by decide))
  · refine absurd token_eq (no_kind _ _ ?_)
    split_ifs <;> decide
  · exact absurd token_eq (no_kind _ _ (by decide))
  · exact absurd token_eq (no_kind _ _ (by decide))

theorem isWordText_of_mem_scanFrom {skip offset : Nat} {cs : List Char} {token : Token}
    (member : token ∈ scanFrom skip offset cs) (kind_eq : token.kind = .word) :
    isWordText token.text = true := by
  obtain ⟨c, cs, more, piece_eq, text_eq⟩ := exists_pieceAt_of_mem member
  have no_mark : ∀ mark ∈ punctuation, mark.2 ≠ .word := by decide
  rw [kind_eq] at piece_eq
  have token_eq : tokenAt c cs = (more, .word) := by
    grind [pieceAt]
  unfold tokenAt at token_eq
  split at token_eq
  · cases token_eq
  split at token_eq
  next chars kind mark_eq =>
    obtain ⟨-, rfl⟩ := Prod.mk.inj token_eq
    obtain ⟨found, -⟩ := Option.filter_eq_some_iff.mp mark_eq
    exact absurd rfl (no_mark _ (List.mem_of_find?_eq_some found))
  split_ifs at token_eq with string character number start
  · cases token_eq
  · cases token_eq
  · obtain ⟨-, kind_eq⟩ := Prod.mk.inj token_eq
    split at kind_eq <;> cases kind_eq
  · obtain ⟨rfl, -⟩ := Prod.mk.inj token_eq
    have taken : cs.take (cs.takeWhile isIdentifierPart).length = cs.takeWhile isIdentifierPart :=
      (List.prefix_iff_eq_take.mp (List.takeWhile_prefix _)).symm
    rw [text_eq, isWordText, String.toList_ofList, taken, Bool.and_eq_true]
    exact ⟨start, List.all_takeWhile⟩
  · cases token_eq

/-- In front of a character that is no part of a word, a word is a token. -/
theorem pieceAt_word_of_stops {cs rest : List Char} (start : isIdentifierStart c = true)
    (parts : cs.all isIdentifierPart = true)
    (stops : ∀ d ∈ rest.head?, isIdentifierPart d = false) :
    pieceAt c (cs ++ rest) = (cs.length, some .word) := by
  have differs : ∀ d ∈ ['/', '"', '\'', '.'], c ≠ d := by
    -- Not by `decide` alone: there is an instance that would try all characters.
    have checked : ∀ d ∈ ['/', '"', '\'', '.'], isIdentifierStart d = false :=
      List.forall_iff_forall_mem.mp (by decide)
    rintro d member rfl
    simp [checked _ member] at start
  have whole := takeWhile_append_of_stops parts stops
  have unmarked := punctuationAt?_eq_none (by decide) start (cs ++ rest)
  have unquoted : ['"', '"', '"'].isPrefixOf (c :: (cs ++ rest)) = false := by
    simp [List.isPrefixOf, (differs '"' (by simp)).symm]
  simp [pieceAt, tokenAt, isWhiteSpace_eq_false start, differs, unquoted, unmarked,
    isDigit_eq_false start, start, whole]

/-- In front of a character that makes no longer mark of it, a mark of one character is a token. -/
theorem pieceAt_mark (known : ([c], kind) ∈ punctuation) (no_slash : c ≠ '/')
    (outside : ∀ mark ∈ punctuation, mark.1.head? = some c → d ∉ mark.1.tail)
    (digit : d.isDigit = false) (more : List Char) :
    pieceAt c (d :: more) = (0, some kind) := by
  have alone : ∀ mark ∈ punctuation, mark.1.length = 1 →
      punctuation.find? (fun other => other.1.isPrefixOf mark.1) = some mark := by decide
  have visible : ∀ mark ∈ punctuation, mark.1.head?.all fun c =>
      !isWhiteSpace c && c ≠ '"' := by decide
  have visible := visible _ known
  simp only [List.head?_cons, Option.all_some, Bool.and_eq_true, Bool.not_eq_true',
    decide_eq_true_eq] at visible
  have found_eq : punctuation.find? (fun mark => mark.1.isPrefixOf (c :: d :: more)) =
      punctuation.find? (fun mark => mark.1.isPrefixOf [c]) := by
    refine List.find?_congr fun mark member => ?_
    have outside := outside mark member
    generalize mark.1 = chars at outside
    match chars with
    | [] | [e] => simp [List.isPrefixOf]
    | e :: f :: rest =>
        by_cases head_eq : e = c
        · subst head_eq
          have differs : f ≠ d := fun same => outside rfl (same ▸ List.mem_cons_self)
          simp [List.isPrefixOf, differs]
        · simp [List.isPrefixOf, head_eq]
  have unquoted : ['"', '"', '"'].isPrefixOf (c :: d :: more) = false := by
    simp [List.isPrefixOf, Ne.symm visible.2]
  have found : punctuationAt? (c :: d :: more) = some ([c], kind) := by
    rw [punctuationAt?, found_eq, alone _ known rfl]
    simp [digit]
  simp [pieceAt, tokenAt, visible.1, no_slash, unquoted, found]

end JavaOutline.Token
