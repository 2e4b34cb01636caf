import JavaOutline.Proofs.Java.Writable
import JavaOutline.Proofs.Reading.Onward

/-!
# Looking ahead in vain

The grammar takes a parenthesis for the beginning of a cast, and `<` for that of type arguments,
until what follows says otherwise. On the tokens of rendered expressions it does: what stands in
parentheses is a type only if nothing that is operand of a cast follows, and type arguments never
close before a parenthesis or a literal.
-/

namespace JavaOutline

open Std.Do

namespace Parser

variable {α β : Type}

@[simp] theorem bind_apply (p : Parser α) (f : α → Parser β) (cursor : Cursor) :
    (p >>= f) cursor = f (p cursor).1 (p cursor).2 := rfl

@[simp] theorem pure_apply (value : α) (cursor : Cursor) :
    (pure value : Parser α) cursor = (value, cursor) := rfl

@[simp] theorem get_apply (cursor : Cursor) : (get : Parser Cursor) cursor = (cursor, cursor) := rfl

@[simp] theorem set_apply (place cursor : Cursor) :
    (set place : Parser PUnit) cursor = (⟨⟩, place) := rfl

@[simp] theorem discard_apply (p : Parser α) (cursor : Cursor) :
    (discard p : Parser PUnit) cursor = (⟨⟩, (p cursor).2) := rfl

@[simp] theorem map_apply (f : α → β) (p : Parser α) (cursor : Cursor) :
    (f <$> p) cursor = (f (p cursor).1, (p cursor).2) := rfl

@[simp] theorem spanFrom_apply (start : Nat) (cursor : Cursor) :
    spanFrom start cursor = (cursor.spanFrom start, cursor) := rfl

@[simp] theorem next?_apply (cursor : Cursor) :
    next? cursor = (cursor.rest.head?, cursor.tail) := rfl

@[simp] theorem advance_one_apply (cursor : Cursor) : advance 1 cursor = ((), cursor.tail) := rfl

theorem accept_apply (kind : TokenKind) (cursor : Cursor) :
    accept kind cursor = (cursor.isAt kind, if cursor.isAt kind then cursor.tail else cursor) := by
  unfold accept
  split <;> simp_all

theorem acceptWord_apply (word : String) (cursor : Cursor) :
    acceptWord word cursor =
      (cursor.isAtWord word, if cursor.isAtWord word then cursor.tail else cursor) := by
  unfold acceptWord
  split <;> simp_all

end Parser

namespace Token

/-- Whether a token is a parenthesis. -/
def isParen (token : Token) : Bool :=
  token.kind = .openParen || token.kind = .closeParen

/-- Whether a token is no arrow and no annotation, and `<` is written as it is. -/
structure IsPlain (token : Token) : Prop where
  arrow : token.kind ≠ .arrow
  atSign : token.kind ≠ .atSign
  less : token.kind = .less → token.text = "<"

/-- Whether all of some tokens are plain. -/
def AllPlain (tokens : List Token) : Prop := ∀ token ∈ tokens, token.IsPlain

end Token

/-- Whether a text is a word, or a word and something that is not part of it. -/
def Prolongs (word text : String) : Prop :=
  ∃ more, text.toList = word.toList ++ more ∧ ∀ c ∈ more.head?, isIdentifierPart c = false

namespace Prolongs

variable {word text : String}

theorem refl (word : String) : Prolongs word word :=
  ⟨[], by simp⟩

/-- What goes on with a character that is not part of a word does not change where it ends. -/
theorem append_mark (prolongs : Prolongs word text) {c : Char} {mark : String} {cs : List Char}
    (mark_eq : mark.toList = c :: cs) (ends : isIdentifierPart c = false) :
    Prolongs word (text ++ mark) ∧ text ++ mark ≠ word := by
  obtain ⟨more, text_eq, stops⟩ := prolongs
  refine ⟨⟨more ++ mark.toList, by rw [String.toList_append, text_eq, List.append_assoc], ?_⟩, ?_⟩
  · cases more with
    | nil => simpa [mark_eq] using ends
    | cons d ds => simpa using stops
  · intro same
    have length_eq := congrArg (·.toList.length) same
    simp only [String.toList_append, List.length_append, text_eq, mark_eq,
      List.length_cons] at length_eq
    omega

theorem append (prolongs : Prolongs word text) (differs : text ≠ word) (later : String) :
    Prolongs word (text ++ later) ∧ text ++ later ≠ word := by
  obtain ⟨more, text_eq, stops⟩ := prolongs
  cases more with
  | nil => exact absurd (String.toList_inj.mp (by simpa using text_eq)) differs
  | cons c cs =>
      refine ⟨⟨c :: cs ++ later.toList, ?_, by simpa using stops⟩, ?_⟩
      · rw [String.toList_append, text_eq, List.append_assoc]
      · intro same
        have length_eq := congrArg (·.toList.length) same
        simp only [String.toList_append, List.length_append, text_eq,
          List.length_cons] at length_eq
        omega

end Prolongs

/-- A text is what is left of it without bracket pairs, and bracket pairs. -/
theorem exists_eq_dropPairs (cs : List Char) :
    ∃ pairs, cs.reverse = (dropPairs cs).reverse ++ pairs ∧ ∀ c ∈ pairs.head?, c = '[' := by
  fun_induction dropPairs cs with
  | case1 cs induction =>
      obtain ⟨pairs, cs_eq, begins⟩ := induction
      refine ⟨pairs ++ ['[', ']'], by simp [cs_eq], ?_⟩
      cases pairs with
      | nil => simp
      | cons => simpa using begins
  | case2 cs => exact ⟨[], by simp⟩

/-- No type is primitive that begins with an identifier. -/
theorem TypeRef.isPrimitive_eq_false {type : TypeRef} {word : String}
    (identifier : isIdentifier word = true) (prolongs : Prolongs word type.text) :
    type.isPrimitive = false := by
  have reserved : ∀ word ∈ primitiveTypes, isReserved word = true := by decide
  have parts : ∀ word ∈ primitiveTypes, word.toList.tail.all isIdentifierPart = true := by decide
  have filled : ∀ word ∈ primitiveTypes, word.toList ≠ [] := by decide
  by_contra primitive
  obtain ⟨pairs, text_eq, brackets⟩ := exists_eq_dropPairs type.text.toList.reverse
  rw [List.reverse_reverse] at text_eq
  set base : String := .ofList (dropPairs type.text.toList.reverse).reverse with base_eq
  have member : base ∈ primitiveTypes := by
    simpa [isPrimitive, JavaOutline.isPrimitive] using primitive
  obtain ⟨more, prolonged_eq, stops⟩ := prolongs
  simp only [isIdentifier, Bool.and_eq_true, Bool.not_eq_true'] at identifier
  -- Both words begin the text, and both end with the first character that is no part of a word.
  have same : base.toList = word.toList := by
    have chars_eq : base.toList ++ pairs = word.toList ++ more := by
      rw [← prolonged_eq, base_eq, String.toList_ofList, ← text_eq]
    have base_parts := parts base member
    cases base_chars : base.toList with
    | nil => exact absurd base_chars (filled base member)
    | cons c cs =>
        obtain ⟨d, ds, word_chars, -, word_parts⟩ := Token.exists_cons_of_isWordText identifier.1
        rw [word_chars]
        rw [base_chars, word_chars, List.cons_append, List.cons_append] at chars_eq
        obtain ⟨rfl, tail_eq⟩ := List.cons.inj chars_eq
        rw [base_chars, List.tail_cons] at base_parts
        have taken := congrArg (List.takeWhile isIdentifierPart) tail_eq
        rw [Token.takeWhile_append_of_stops base_parts,
          Token.takeWhile_append_of_stops word_parts stops] at taken
        · rw [taken]
        · intro c member
          rw [brackets c member]
          decide
  have := reserved base member
  rw [String.toList_inj.mp same, identifier.2] at this
  cases this

namespace Cursor

/-- Whether one place leads to another by reading tokens that are no parentheses. -/
def Skims (before after : Cursor) : Prop :=
  ∃ read, before.rest = read ++ after.rest ∧ ∀ token ∈ read, token.isParen = false

namespace Skims

theorem refl (cursor : Cursor) : cursor.Skims cursor := ⟨[], rfl, by simp⟩

theorem trans {before middle after : Cursor} (first : before.Skims middle)
    (second : middle.Skims after) : before.Skims after := by
  obtain ⟨read, rest_eq, clear⟩ := first
  obtain ⟨read', rest_eq', clear'⟩ := second
  refine ⟨read ++ read', by rw [rest_eq, rest_eq', List.append_assoc], ?_⟩
  intro token member
  rcases List.mem_append.mp member with member | member
  · exact clear token member
  · exact clear' token member

theorem cons {token : Token} {rest : List Token} {behind : Nat} {after : Cursor}
    (clear : token.isParen = false) (skims : Skims ⟨rest, token.span.stop⟩ after) :
    Skims ⟨token :: rest, behind⟩ after := by
  refine trans ⟨[token], rfl, ?_⟩ skims
  simpa using clear

theorem allPlain {before after : Cursor} (skims : before.Skims after)
    (plain : Token.AllPlain before.rest) : Token.AllPlain after.rest := by
  obtain ⟨read, rest_eq, -⟩ := skims
  intro token member
  exact plain token (rest_eq ▸ List.mem_append_right _ member)

/-- A closing parenthesis that is reached without passing a parenthesis is the first one. -/
theorem rest_eq {inner after : List Token} {closing : Token} {behind : Nat} {place : Cursor}
    (skims : Skims ⟨inner ++ closing :: after, behind⟩ place) (closes : closing.kind = .closeParen)
    (opens : ∀ token ∈ inner.find? Token.isParen, token.kind = .openParen)
    (closed : place.isAt .closeParen = true) : place.rest = closing :: after := by
  obtain ⟨read, rest_eq, clear⟩ := skims
  obtain ⟨token, rest, place_eq⟩ : ∃ token rest, place.rest = token :: rest := by
    cases place_eq : place.rest with
    | nil => simp [isAt, place_eq] at closed
    | cons token rest => exact ⟨token, rest, rfl⟩
  have kind_eq : token.kind = .closeParen := by simpa [isAt, place_eq] using closed
  have token_paren : token.isParen = true := by simp [Token.isParen, kind_eq]
  have closing_paren : closing.isParen = true := by simp [Token.isParen, closes]
  rw [place_eq] at rest_eq ⊢
  have read_clear : read.find? Token.isParen = none :=
    List.find?_eq_none.mpr (by simpa using clear)
  have first_eq := congrArg (List.find? Token.isParen) rest_eq
  rw [List.find?_append, List.find?_append, read_clear, List.find?_cons_of_pos token_paren,
    Option.none_or] at first_eq
  have inner_clear : inner.find? Token.isParen = none := by
    cases inner_eq : inner.find? Token.isParen with
    | none => rfl
    | some first =>
        rw [inner_eq, Option.some_or] at first_eq
        have opened := opens first inner_eq
        rw [Option.some.inj first_eq, kind_eq] at opened
        cases opened
  have dropped := congrArg (List.dropWhile fun token => !token.isParen) rest_eq
  rw [List.dropWhile_append_of_pos (by simpa using List.find?_eq_none.mp inner_clear),
    List.dropWhile_append_of_pos (by simpa using clear)] at dropped
  simpa [List.dropWhile_cons, token_paren, closing_paren] using dropped.symm

end Skims

theorem skims_afterBrackets (behind : Nat) (rest : List Token) :
    Skims ⟨rest, behind⟩ (afterBrackets behind rest).2 := by
  fun_induction afterBrackets behind rest with
  | case1 behind token closing rest pair pairs cursor eq induction =>
      simp only [Bool.and_eq_true, decide_eq_true_eq] at pair
      rw [eq] at induction
      apply Skims.cons (by simp [Token.isParen, pair.1])
      exact Skims.cons (by simp [Token.isParen, pair.2]) induction
  | case2 | case3 => exact .refl _

/-- The rest of a type is read without passing a parenthesis, and a type that began with a word
still does. -/
theorem skims_typeRest? {depth behind : Nat} {text word : String} {rest : List Token}
    {result : String} {after : Cursor}
    (found : typeRest? depth text behind rest = some (result, after))
    (plain : Token.AllPlain rest) (prolongs : Prolongs word text)
    (inside : 0 < depth → text ≠ word) :
    Skims ⟨rest, behind⟩ after ∧ Prolongs word result := by
  fun_induction typeRest? depth text behind rest with
  | case1 | case4 | case6 | case7 =>
      obtain ⟨rfl, rfl⟩ := Prod.mk.inj (Option.some.inj found)
      exact ⟨.refl _, prolongs⟩
  | case2 | case11 => cases found
  | case3 text behind token rest less induction =>
      have mark_eq : token.text.toList = ['<'] := by
        rw [(plain token (by simp)).less less]
        rfl
      have longer := prolongs.append_mark mark_eq (by decide)
      obtain ⟨skims, result⟩ := induction found (fun t member => plain t (by simp [member]))
        longer.1 fun _ => longer.2
      exact ⟨skims.cons (by simp [Token.isParen, less]), result⟩
  | case5 text behind dot _ is_dot word more is_word induction =>
      have dotted := prolongs.append_mark (show ".".toList = ['.'] from rfl) (by decide)
      have longer := dotted.1.append dotted.2 word.text
      obtain ⟨skims, result⟩ := induction found (fun t member => plain t (by simp [member]))
        longer.1 (by simp)
      simp only [Bool.and_eq_true, decide_eq_true_eq] at is_word
      refine ⟨.cons (by simp [Token.isParen, is_dot]) ?_, result⟩
      exact skims.cons (by simp [Token.isParen, is_word.1])
  | case8 depth text _ token rest less induction =>
      have longer := prolongs.append (inside (by omega)) token.text
      obtain ⟨skims, result⟩ := induction found (fun t member => plain t (by simp [member]))
        longer.1 fun _ => longer.2
      exact ⟨skims.cons (by simp [Token.isParen, less]), result⟩
  | case9 depth text _ token rest greater induction =>
      have longer := prolongs.append (inside (by omega)) token.text
      obtain ⟨skims, result⟩ := induction found (fun t member => plain t (by simp [member]))
        longer.1 fun _ => longer.2
      exact ⟨skims.cons (by simp [Token.isParen, greater]), result⟩
  | case10 depth text _ token rest _ _ argument induction =>
      have longer := prolongs.append (inside (by omega)) token.typeArgumentText
      obtain ⟨skims, result⟩ := induction found (fun t member => plain t (by simp [member]))
        longer.1 fun _ => longer.2
      refine ⟨skims.cons ?_, result⟩
      cases kind_eq : token.kind <;> simp_all [TokenKind.isTypeArgument, Token.isParen]

end Cursor

/-- Type arguments that run into a token that is none of them are not closed. -/
theorem Cursor.afterTypeArguments?_eq_none {front rest : List Token} {stop : Token}
    (arguments : ∀ token ∈ front, token.kind.isTypeArgument = true)
    (blocks : stop.kind.isTypeArgument = false ∧ stop.kind ≠ .less ∧ stop.kind ≠ .greater)
    (depth behind : Nat) :
    afterTypeArguments? (depth + 1) behind (front ++ stop :: rest) = none := by
  induction front generalizing behind with
  | nil => simp [afterTypeArguments?, blocks]
  | cons token front induction =>
      have argument := arguments token (by simp)
      have later := induction fun token member => arguments token (by simp [member])
      rw [List.cons_append, afterTypeArguments?]
      split
      · rename_i less
        simp [less, TokenKind.isTypeArgument] at argument
      · rename_i greater
        simp [greater, TokenKind.isTypeArgument] at argument
      · rw [if_pos argument, later]

/-- Without an arrow there is no lambda. -/
theorem Cursor.isAtLambda_eq_false {cursor : Cursor} (plain : Token.AllPlain cursor.rest) :
    cursor.isAtLambda = false := by
  have no_arrow (depth : Nat) : arrowAfterParens depth cursor.rest = false := by
    generalize cursor.rest = rest at plain
    fun_induction arrowAfterParens depth rest with
    | case1 | case5 | case6 | case7 => rfl
    | case3 depth token rest =>
        cases rest with
        | nil => rfl
        | cons following rest => simpa using (plain following (by simp)).arrow
    | case2 _ _ _ _ induction | case4 _ _ _ _ _ induction | case8 _ _ _ _ _ _ _ _ induction =>
        exact induction fun token member => plain token (by simp [member])
  have no_arrow_ahead : cursor.isAhead 1 [.arrow] = false := by
    simp only [isAhead, kindAhead?, ahead?, Option.any_map]
    cases following_eq : cursor.rest[1]? with
    | none => rfl
    | some following => simpa using (plain following (List.mem_of_getElem? following_eq)).arrow
  simp [isAtLambda, no_arrow, no_arrow_ahead]

namespace Parser

theorem repeatWhile_of_false {step : Parser Bool} {cursor after : Cursor}
    (stop : step cursor = (false, after)) : repeatWhile step cursor = ((), after) := by
  simp only [repeatWhile, discard_apply, many, manyUpTo, bind_apply, stop, Bool.false_eq_true,
    if_false, pure_apply]

theorem skipAnnotations_eq {cursor : Cursor} (no_sign : cursor.isAt .atSign = false) :
    skipAnnotations cursor = ((), cursor) := by
  have stop : atAnnotation cursor = (false, cursor) := by
    simp [no_sign, atAnnotation]
  exact repeatWhile_of_false (by simp [stop])

theorem typeRef?_nil (behind : Nat) : typeRef? ⟨[], behind⟩ = (none, ⟨[], behind⟩) := by
  rfl

/-- What is read as a type that begins with the next token. -/
theorem typeRef?_cons {first : Token} (no_sign : first.kind ≠ .atSign) (rest : List Token)
    (behind : Nat) :
    typeRef? ⟨first :: rest, behind⟩ =
      if first.beginsType then
        match Cursor.typeRest? 0 first.text first.span.stop rest with
        | none => (none, ⟨first :: rest, behind⟩)
        | some (text, after) =>
          let (pairs, after) := Cursor.afterBrackets after.behind after.rest
          (some ⟨(List.replicate pairs "[]").foldl (· ++ ·) text, after.spanFrom first.span.start⟩,
            after)
      else (none, ⟨first :: rest, behind⟩) := by
  have no_signs : skipAnnotations ⟨first :: rest, behind⟩ = _ :=
    skipAnnotations_eq (by simpa [Cursor.isAt] using no_sign)
  simp only [typeRef?, bind_apply, get_apply, no_signs]
  split_ifs with begins
  · simp only [bind_apply, advance_one_apply, Cursor.tail, typeRest?]
    cases Cursor.typeRest? 0 first.text first.span.stop rest with
    | none => rfl
    | some found => rfl
  · rfl

theorem prolongs_brackets {word text : String} (prolongs : Prolongs word text) (pairs : Nat) :
    Prolongs word ((List.replicate pairs "[]").foldl (· ++ ·) text) := by
  induction pairs generalizing text with
  | zero => exact prolongs
  | succ pairs induction =>
      exact induction
        (prolongs.append_mark (show "[]".toList = ['[', ']'] from rfl) (by decide)).1

/-- A type is read without passing a parenthesis, and one that begins with an identifier is not
primitive. -/
theorem skims_typeRef? {cursor : Cursor} (plain : Token.AllPlain cursor.rest) :
    typeRef? cursor = (none, cursor) ∨ ∃ first ∈ cursor.rest.head?, first.beginsType = true ∧
      ∃ type after, typeRef? cursor = (some type, after) ∧ cursor.Skims after ∧
        Prolongs first.text type.text := by
  obtain ⟨rest, behind⟩ := cursor
  cases rest with
  | nil => exact .inl (typeRef?_nil behind)
  | cons first rest =>
      rw [typeRef?_cons (plain first (by simp)).atSign]
      split_ifs with begins
      · cases rest_eq : Cursor.typeRest? 0 first.text first.span.stop rest with
        | none => exact .inl rfl
        | some found =>
            obtain ⟨text, middle⟩ := found
            obtain ⟨skims, prolongs⟩ := Cursor.skims_typeRest? rest_eq
              (fun token member => plain token (List.mem_cons_of_mem _ member)) (.refl _) (by simp)
            refine .inr ⟨first, rfl, begins, _, _, rfl, ?_, prolongs_brackets prolongs _⟩
            have clear : first.isParen = false := by
              simp only [Token.beginsType, Bool.and_eq_true, decide_eq_true_eq] at begins
              simp [Token.isParen, begins.1]
            exact .cons clear (skims.trans (Cursor.skims_afterBrackets _ _))
      · exact .inl rfl

/-- The further types of a cast are read without passing a parenthesis, and the first word stays. -/
theorem skims_castType? {word : String} {type result : TypeRef} {start after : Cursor}
    (plain : Token.AllPlain start.rest) (prolongs : Prolongs word type.text)
    (found : castType? type start = (some result, after)) :
    start.Skims after ∧ Prolongs word result.text := by
  -- Until a type is missing, everything read since `start` is clear of parentheses.
  let Holds (type? : Option TypeRef) (cursor : Cursor) : Prop :=
    ∀ type, type? = some type → start.Skims cursor ∧ Prolongs word type.text
  have kept : ⦃fun cursor => ⌜Holds (some type) cursor⌝⦄ castType? type
      ⦃⇓ result cursor => ⌜Holds result cursor⌝⦄ := by
    refine iterate_invariant Holds (fun type? => triple_iff.mpr fun cursor holds => ?_) (some type)
    cases type? with
    | none => exact holds
    | some type =>
        obtain ⟨skims, prolongs⟩ := holds type rfl
        simp only [bind_apply, accept_apply]
        split_ifs with amp
        · have skims_tail : start.Skims cursor.tail := by
            refine skims.trans ?_
            obtain ⟨rest, behind⟩ := cursor
            cases rest with
            | nil => exact .refl _
            | cons token rest =>
                have clear : token.isParen = false := by
                  have kind_eq : token.kind = .amp := by simpa [Cursor.isAt] using amp
                  simp [Token.isParen, kind_eq]
                exact .cons clear (.refl _)
          rcases skims_typeRef? (skims_tail.allPlain plain) with
            missing | ⟨first, -, -, more, after, read, skims', -⟩
          · simp [missing, Holds]
          · simp only [bind_apply, read, pure_apply, Option.getD_some]
            rintro _ ⟨rfl⟩
            refine ⟨skims_tail.trans skims', ?_⟩
            have joined := prolongs.append_mark (show "&".toList = ['&'] from rfl) (by decide)
            exact (joined.1.append joined.2 more.text).1
        · exact fun _ same => Option.some.inj same ▸ ⟨skims, prolongs⟩
  have holds := triple_iff.mp kept start fun _ same =>
    Option.some.inj same ▸ ⟨.refl start, prolongs⟩
  rw [found] at holds
  exact holds result rfl

/-- What stands in parentheses is no cast, if it begins with no primitive type and no operand of a
cast follows. -/
theorem castWith_eq_none (rules : Rules) {opening closing : Token} {inner after : List Token}
    {behind : Nat} (closes : closing.kind = .closeParen)
    (plain : Token.AllPlain (inner ++ closing :: after))
    (opens : ∀ token ∈ inner.find? Token.isParen, token.kind = .openParen)
    (named : ∀ first ∈ inner.head?, first.beginsType = true → isIdentifier first.text = true)
    (ends : ∀ offset, Cursor.isAtOperand ⟨after, offset⟩ = false) :
    castWith rules ⟨opening :: (inner ++ closing :: after), behind⟩ =
      (none, ⟨opening :: (inner ++ closing :: after), behind⟩) := by
  set start : Cursor := ⟨opening :: (inner ++ closing :: after), behind⟩ with start_eq
  simp only [castWith, bind_apply, get_apply, advance_one_apply]
  have plain_tail : Token.AllPlain start.tail.rest := plain
  rcases skims_typeRef? plain_tail with
    missing | ⟨first, first_eq, begins, type, middle, read, skims, prolongs⟩
  · simp only [missing, set_apply, bind_apply, pure_apply]
  simp only [read, bind_apply]
  have identifier : isIdentifier first.text = true := by
    cases inner with
    | nil =>
        obtain rfl : closing = first := Option.some.inj first_eq
        simp [Token.beginsType, closes] at begins
    | cons => exact named first first_eq begins
  rcases more_eq : castType? type middle with ⟨_ | type, place⟩
  · rfl
  obtain ⟨skims', prolongs'⟩ := skims_castType? (skims.allPlain plain) prolongs more_eq
  simp only [bind_apply, accept_apply]
  by_cases closed : place.isAt .closeParen = true
  · have place_eq := (skims.trans skims').rest_eq closes opens closed
    have tail_eq : place.tail = ⟨after, closing.span.stop⟩ := by
      simp [Cursor.tail, place_eq]
    simp [closed, tail_eq, ends, TypeRef.isPrimitive_eq_false identifier prolongs']
  · simp [closed]

end Parser

end JavaOutline
