import JavaOutline.Proofs.Reading.Parallel

/-!
# Tokens read side by side

What looks at tokens, reads them or skips them agrees on two texts. Bracket pairs, dotted names and
types hold no closing brace, so looking for them does not lead out of the common stretch.
-/

set_option mvcgen.warning false

open Std.Do

namespace JavaOutline

open Relocatable (relocate)

namespace Parallel

open JavaOutline.Parser

variable {texts : Parallel} {α β : Type} [Relocatable α] [Relocatable β]
  {stays : Prop} {cursor before after other : Cursor}

/-! ## Single tokens and brackets -/

/-- Reading one token leads to places that mirror each other. -/
theorem Mirrors.tail_within (mirrors : texts.Mirrors cursor other)
    (within : stays ∨ texts.Inside cursor.tail) (clear : stays → ¬cursor.isAt .closeBrace) :
    texts.Mirrors cursor.tail other.tail :=
  mirrors.tail (within.elim (fun sure => mirrors.inside_tail (clear sure)) id)

theorem agree_accept (kind : TokenKind)
    (clear : stays → kind ≠ .closeBrace) :
    texts.Agree stays (accept kind) (accept kind) cursor := by
  intro tame
  by_cases found : cursor.isAt kind
  · have left : accept kind cursor = (true, cursor.tail) := if_pos found
    rw [left]
    refine ⟨.tail .refl, fun other mirrors within => ?_⟩
    have right : accept kind other = (true, other.tail) :=
      if_pos ((mirrors.shows.isAt_eq kind).trans found)
    rw [right]
    exact ⟨rfl, mirrors.tail_within within fun sure =>
      not_isAt_closeBrace_of_isAt found (clear sure)⟩
  · have left : accept kind cursor = (false, cursor) := if_neg found
    rw [left]
    refine ⟨.refl, fun other mirrors _ => ?_⟩
    have right : accept kind other = (false, other) :=
      if_neg (mirrors.shows.isAt_eq kind ▸ found)
    rw [right]
    exact ⟨rfl, mirrors⟩

theorem agree_acceptWord (word : String) :
    texts.Agree stays (acceptWord word) (acceptWord word) cursor := by
  intro tame
  by_cases found : cursor.isAtWord word
  · have left : acceptWord word cursor = (true, cursor.tail) := if_pos found
    rw [left]
    refine ⟨.tail .refl, fun other mirrors within => ?_⟩
    have right : acceptWord word other = (true, other.tail) :=
      if_pos ((mirrors.shows.isAtWord_eq word).trans found)
    rw [right]
    exact ⟨rfl, mirrors.tail_within within fun _ => not_isAt_closeBrace_of_isAtWord found⟩
  · have left : acceptWord word cursor = (false, cursor) := if_neg found
    rw [left]
    refine ⟨.refl, fun other mirrors _ => ?_⟩
    have right : acceptWord word other = (false, other) :=
      if_neg (mirrors.shows.isAtWord_eq word ▸ found)
    rw [right]
    exact ⟨rfl, mirrors⟩

theorem agree_next? (clear : stays → ¬cursor.isAt .closeBrace) :
    texts.Agree stays next? next? cursor :=
  fun _ => ⟨.tail .refl, fun _ mirrors within =>
    ⟨mirrors.shows.head?_eq, mirrors.tail_within within clear⟩⟩

theorem agree_advance_one (clear : stays → ¬cursor.isAt .closeBrace) :
    texts.Agree stays (advance 1) (advance 1) cursor :=
  fun _ => ⟨.tail .refl, fun _ mirrors within => ⟨rfl, mirrors.tail_within within clear⟩⟩

theorem agree_advance (n : Nat) : texts.Agree False (advance n) (advance n) cursor := by
  induction n generalizing cursor with
  | zero => exact .pure rfl
  | succ n induction =>
      exact .bind (p := advance 1) (f := fun _ => advance n) (g := fun _ => advance n)
        (agree_advance_one False.elim) fun _ _ _ _ => induction

/-- A place found by going through the tokens is mirrored by the place found in the other text. -/
theorem agree_of_mirrors {p : Parser Unit} (reaches : cursor.Reaches (p cursor).2)
    (mirrors : ∀ other, texts.Mirrors cursor other → texts.Inside (p cursor).2 →
      texts.Mirrors (p cursor).2 (p other).2) : texts.Agree False p p cursor :=
  fun _ => ⟨reaches, fun other mirror within =>
    ⟨rfl, mirrors other mirror (within.resolve_left id)⟩⟩

/-- In front of a token, the other text has the token too, and the places after it mirror each other
if they are still in the common stretch. -/
theorem Mirrors.cons_iff {token : Token} {rest : List Token} {behind : Nat}
    (mirrors : texts.Mirrors ⟨token :: rest, behind⟩ other) :
    ∃ more, other = ⟨relocate texts.move token :: more, texts.move behind⟩ ∧
      (texts.Inside ⟨rest, token.span.stop⟩ →
        texts.Mirrors ⟨rest, token.span.stop⟩ ⟨more, texts.move token.span.stop⟩) := by
  obtain ⟨more, rest_eq⟩ := mirrors.shows.rest_cons rfl
  have behind_eq := mirrors.shows.behind_eq
  obtain ⟨_, _⟩ := other
  obtain rfl : _ = _ := rest_eq
  obtain rfl : _ = _ := behind_eq
  refine ⟨more, rfl, fun inside => ?_⟩
  obtain ⟨_, other_eq, later⟩ := mirrors.cons inside
  cases other_eq
  exact later

theorem Mirrors.afterBalanced {opening closing : TokenKind} {depth behind : Nat}
    {rest : List Token} (mirrors : texts.Mirrors ⟨rest, behind⟩ other)
    (inside : texts.Inside (Cursor.afterBalanced opening closing depth behind rest)) :
    texts.Mirrors (Cursor.afterBalanced opening closing depth behind rest)
      (Cursor.afterBalanced opening closing depth other.behind other.rest) := by
  induction rest generalizing depth behind other with
  | nil =>
      obtain rfl := mirrors.nil
      cases depth <;> exact mirrors
  | cons token rest induction =>
      obtain ⟨more, rfl, later⟩ := mirrors.cons_iff
      cases depth with
      | zero => exact mirrors
      | succ depth =>
          exact induction (later (inside.of_reaches (Cursor.reaches_afterBalanced ..))) inside

theorem Mirrors.beforeStop {stops : List TokenKind} {depth behind : Nat} {rest : List Token}
    (mirrors : texts.Mirrors ⟨rest, behind⟩ other)
    (inside : texts.Inside (Cursor.beforeStop stops depth behind rest)) :
    texts.Mirrors (Cursor.beforeStop stops depth behind rest)
      (Cursor.beforeStop stops depth other.behind other.rest) := by
  induction rest generalizing depth behind other with
  | nil =>
      obtain rfl := mirrors.nil
      exact mirrors
  | cons token rest induction =>
      obtain ⟨more, rfl, later⟩ := mirrors.cons_iff
      have goes_on {depth : Nat}
          (inside : texts.Inside (Cursor.beforeStop stops depth token.span.stop rest)) :=
        induction (later (inside.of_reaches (Cursor.reaches_beforeStop ..))) inside
      have kind_eq : (relocate texts.move token).kind = token.kind := rfl
      have stop_eq : (relocate texts.move token).span.stop = texts.move token.span.stop := rfl
      grind [Cursor.beforeStop]

theorem Mirrors.beforeAny {stops : List TokenKind} {behind : Nat} {rest : List Token}
    (mirrors : texts.Mirrors ⟨rest, behind⟩ other)
    (inside : texts.Inside (Cursor.beforeAny stops behind rest)) :
    texts.Mirrors (Cursor.beforeAny stops behind rest)
      (Cursor.beforeAny stops other.behind other.rest) := by
  induction rest generalizing behind other with
  | nil =>
      obtain rfl := mirrors.nil
      exact mirrors
  | cons token rest induction =>
      obtain ⟨more, rfl, later⟩ := mirrors.cons_iff
      have goes_on (inside : texts.Inside (Cursor.beforeAny stops token.span.stop rest)) :=
        induction (later (inside.of_reaches (Cursor.reaches_beforeAny ..))) inside
      have kind_eq : (relocate texts.move token).kind = token.kind := rfl
      rw [Cursor.beforeAny] at inside ⊢
      rw [Cursor.beforeAny, kind_eq]
      split at inside
      · next stopped => rwa [if_pos stopped, if_pos stopped]
      · next passed =>
        rw [if_neg passed, if_neg passed]
        exact goes_on inside

theorem Mirrors.beforeBody {depth behind : Nat} {rest : List Token}
    (mirrors : texts.Mirrors ⟨rest, behind⟩ other)
    (inside : texts.Inside (Cursor.beforeBody depth behind rest)) :
    texts.Mirrors (Cursor.beforeBody depth behind rest)
      (Cursor.beforeBody depth other.behind other.rest) := by
  induction rest generalizing depth behind other with
  | nil =>
      obtain rfl := mirrors.nil
      exact mirrors
  | cons token rest induction =>
      obtain ⟨more, rfl, later⟩ := mirrors.cons_iff
      have goes_on {depth : Nat}
          (inside : texts.Inside (Cursor.beforeBody depth token.span.stop rest)) :=
        induction (later (inside.of_reaches (Cursor.reaches_beforeBody ..))) inside
      cases depth with
      | zero =>
          have kind_eq : (relocate texts.move token).kind = token.kind := rfl
          rw [Cursor.beforeBody] at inside ⊢
          rw [Cursor.beforeBody, kind_eq]
          split at inside
          · next stopped => rwa [if_pos stopped, if_pos stopped]
          · next passed =>
            rw [if_neg passed, if_neg passed]
            exact goes_on inside
      | succ depth => exact goes_on inside

theorem Mirrors.cons_of_ne {token : Token} {rest : List Token} {behind : Nat}
    (mirrors : texts.Mirrors ⟨token :: rest, behind⟩ other) (kind_ne : token.kind ≠ .closeBrace) :
    ∃ more, other = ⟨relocate texts.move token :: more, texts.move behind⟩ ∧
      texts.Mirrors ⟨rest, token.span.stop⟩ ⟨more, texts.move token.span.stop⟩ := by
  refine mirrors.cons (mirrors.inside_tail ?_)
  simpa [Cursor.isAt] using kind_ne

theorem isTypeArgument_closeBrace : TokenKind.isTypeArgument .closeBrace = false := rfl

theorem Mirrors.afterTypeArguments? {depth behind : Nat} {rest : List Token}
    (mirrors : texts.Mirrors ⟨rest, behind⟩ other) :
    Option.Rel texts.Mirrors (Cursor.afterTypeArguments? depth behind rest)
      (Cursor.afterTypeArguments? depth other.behind other.rest) := by
  induction rest generalizing depth behind other with
  | nil =>
      obtain rfl := mirrors.nil
      cases depth with
      | zero => exact .some mirrors
      | succ depth => exact .none
  | cons token rest induction =>
      have kind_eq : (relocate texts.move token).kind = token.kind := rfl
      have stop_eq : (relocate texts.move token).span.stop = texts.move token.span.stop := rfl
      cases depth with
      | zero =>
          obtain ⟨more, rfl, -⟩ := mirrors.cons_iff
          exact .some mirrors
      | succ depth =>
          by_cases closed : token.kind = .closeBrace
          · obtain ⟨more, rfl, -⟩ := mirrors.cons_iff
            simp only [Cursor.afterTypeArguments?, kind_eq, closed, isTypeArgument_closeBrace]
            exact .none
          · obtain ⟨more, rfl, later⟩ := mirrors.cons_of_ne closed
            have goes_on (depth : Nat) := @induction _ depth _ later
            simp only [Cursor.afterTypeArguments?, kind_eq, stop_eq]
            split
            · exact goes_on _
            · exact goes_on _
            · split
              · exact goes_on _
              · exact .none

theorem Mirrors.typeRest? {depth behind : Nat} {text : String} {rest : List Token}
    (mirrors : texts.Mirrors ⟨rest, behind⟩ other) :
    Option.Rel (fun left right => right.1 = left.1 ∧ texts.Mirrors left.2 right.2)
      (Cursor.typeRest? depth text behind rest)
      (Cursor.typeRest? depth text other.behind other.rest) := by
  fun_induction Cursor.typeRest? depth text behind rest generalizing other with
  | case1 text behind =>
      obtain rfl := mirrors.nil
      exact .some ⟨rfl, mirrors⟩
  | case2 depth text behind =>
      obtain rfl := mirrors.nil
      exact .none
  | case3 text behind token rest less induction =>
      obtain ⟨more, rfl, later⟩ := mirrors.cons_of_ne (by rw [less]; decide)
      have kind_eq : (relocate texts.move token).kind = .less := less
      rw [Cursor.typeRest?.eq_def 0 text (texts.move behind)]
      simp only [kind_eq, if_true]
      exact induction later
  | case4 text behind token less dot =>
      obtain ⟨more, rfl, later⟩ := mirrors.cons_of_ne (by rw [dot]; decide)
      obtain rfl := congrArg Cursor.rest later.nil
      have kind_eq : (relocate texts.move token).kind = .dot := dot
      simp only [Cursor.typeRest?, kind_eq, reduceCtorEq, if_true, if_false]
      exact .some ⟨rfl, mirrors⟩
  | case5 text behind token less dot word rest found induction =>
      have word_ne : word.kind ≠ .closeBrace := by
        intro closed
        simp [closed] at found
      obtain ⟨more, rfl, later⟩ := mirrors.cons_of_ne (by rw [dot]; decide)
      obtain ⟨more, other_eq, last⟩ := later.cons_of_ne word_ne
      cases other_eq
      have kind_eq : (relocate texts.move token).kind = .dot := dot
      have word_eq : (decide ((relocate texts.move word).kind = .word) &&
        !isReserved (relocate texts.move word).text) = true := found
      simp only [Cursor.typeRest?, kind_eq, word_eq, reduceCtorEq, if_true, if_false]
      exact induction last
  | case6 text behind token less dot word rest found =>
      obtain ⟨more, rfl, later⟩ := mirrors.cons_of_ne (by rw [dot]; decide)
      obtain ⟨more, other_eq, -⟩ := later.cons_iff
      cases other_eq
      have kind_eq : (relocate texts.move token).kind = .dot := dot
      have word_eq : ¬(decide ((relocate texts.move word).kind = .word) &&
        !isReserved (relocate texts.move word).text) = true := found
      simp only [Cursor.typeRest?, kind_eq, word_eq, reduceCtorEq, if_true, if_false]
      exact .some ⟨rfl, mirrors⟩
  | case7 text behind token rest less dot =>
      obtain ⟨more, rfl, -⟩ := mirrors.cons_iff
      have less : ¬(relocate texts.move token).kind = .less := less
      have dot : ¬(relocate texts.move token).kind = .dot := dot
      rw [Cursor.typeRest?.eq_def 0 text (texts.move behind)]
      simp only [less, dot, if_false]
      exact .some ⟨rfl, mirrors⟩
  | case8 depth text behind token rest less induction =>
      obtain ⟨more, rfl, later⟩ := mirrors.cons_of_ne (by rw [less]; decide)
      have kind_eq : (relocate texts.move token).kind = .less := less
      simp only [Cursor.typeRest?, kind_eq]
      exact induction later
  | case9 depth text behind token rest greater induction =>
      obtain ⟨more, rfl, later⟩ := mirrors.cons_of_ne (by rw [greater]; decide)
      have kind_eq : (relocate texts.move token).kind = .greater := greater
      simp only [Cursor.typeRest?, kind_eq]
      exact induction later
  | case10 behind depth text token rest less greater argument induction =>
      have kind_ne : token.kind ≠ .closeBrace := by
        intro closed
        simp [closed, isTypeArgument_closeBrace] at argument
      obtain ⟨more, rfl, later⟩ := mirrors.cons_of_ne kind_ne
      have kind_eq : (relocate texts.move token).kind = token.kind := rfl
      simp only [Cursor.typeRest?, kind_eq]
      rw [if_pos argument]
      exact induction later
  | case11 behind depth text token rest less greater argument =>
      obtain ⟨more, rfl, -⟩ := mirrors.cons_iff
      have kind_eq : (relocate texts.move token).kind = token.kind := rfl
      simp only [Cursor.typeRest?, kind_eq]
      rw [if_neg argument]
      exact .none

theorem isAt_and_isAhead_of_short {first second : TokenKind} {rest : List Token} {behind : Nat}
    (short : ∀ token next more, rest = token :: next :: more → False) :
    (Cursor.isAt ⟨rest, behind⟩ first && Cursor.isAhead ⟨rest, behind⟩ 1 [second]) = false := by
  match rest with
  | [] => rfl
  | [_] => exact Bool.and_false _
  | token :: next :: rest => exact (short token next rest rfl).elim

theorem afterBrackets_of_not {behind : Nat} {rest : List Token}
    (absent : Cursor.isAtBrackets ⟨rest, behind⟩ = false) :
    Cursor.afterBrackets behind rest = (0, ⟨rest, behind⟩) := by
  match rest with
  | [] | [_] => rfl
  | token :: closing :: rest =>
      rw [Cursor.isAtBrackets, Cursor.isAt_and_isAhead_cons] at absent
      rw [Cursor.afterBrackets, absent]
      rfl

theorem afterDotted_of_not {behind : Nat} {rest : List Token}
    (absent :
      (Cursor.isAt ⟨rest, behind⟩ .dot && Cursor.isAhead ⟨rest, behind⟩ 1 [.word]) = false) :
    Cursor.afterDotted behind rest = ([], ⟨rest, behind⟩) := by
  match rest with
  | [] | [_] => rfl
  | dot :: word :: rest =>
      rw [Cursor.isAt_and_isAhead_cons] at absent
      rw [Cursor.afterDotted, absent]
      rfl

theorem Mirrors.afterBrackets {behind : Nat} {rest : List Token}
    (mirrors : texts.Mirrors ⟨rest, behind⟩ other) :
    (Cursor.afterBrackets other.behind other.rest).1 = (Cursor.afterBrackets behind rest).1 ∧
      texts.Mirrors (Cursor.afterBrackets behind rest).2
        (Cursor.afterBrackets other.behind other.rest).2 := by
  fun_induction Cursor.afterBrackets behind rest generalizing other with
  | case1 behind token closing rest found pairs cursor after_eq induction =>
      obtain ⟨opens, closes⟩ : token.kind = .openBracket ∧ closing.kind = .closeBracket := by
        simpa using found
      obtain ⟨more, rfl, later⟩ := mirrors.cons_of_ne (by rw [opens]; decide)
      obtain ⟨more, other_eq, last⟩ := later.cons_of_ne (by rw [closes]; decide)
      cases other_eq
      obtain ⟨pairs_eq, last⟩ := induction last
      rw [after_eq] at pairs_eq last
      have opens : (relocate texts.move token).kind = .openBracket := opens
      have closes : (relocate texts.move closing).kind = .closeBracket := closes
      simp only [Cursor.afterBrackets, opens, closes, decide_true, Bool.and_self, if_true]
      exact ⟨congrArg (· + 1) pairs_eq, last⟩
  | case2 behind token closing rest absent =>
      rw [← Cursor.isAt_and_isAhead_cons _ _ _ _ rest behind, Bool.not_eq_true] at absent
      rw [afterBrackets_of_not (mirrors.shows.isAtBrackets_eq.trans absent)]
      exact ⟨rfl, mirrors⟩
  | case3 behind rest short =>
      have absent := mirrors.shows.isAtBrackets_eq.trans (isAt_and_isAhead_of_short short)
      rw [afterBrackets_of_not absent]
      exact ⟨rfl, mirrors⟩

theorem Mirrors.afterDotted {behind : Nat} {rest : List Token}
    (mirrors : texts.Mirrors ⟨rest, behind⟩ other) :
    (Cursor.afterDotted other.behind other.rest).1 = (Cursor.afterDotted behind rest).1 ∧
      texts.Mirrors (Cursor.afterDotted behind rest).2
        (Cursor.afterDotted other.behind other.rest).2 := by
  fun_induction Cursor.afterDotted behind rest generalizing other with
  | case1 behind dot word rest found words cursor after_eq induction =>
      obtain ⟨dots, named⟩ : dot.kind = .dot ∧ word.kind = .word := by
        simpa using found
      obtain ⟨more, rfl, later⟩ := mirrors.cons_of_ne (by rw [dots]; decide)
      obtain ⟨more, other_eq, last⟩ := later.cons_of_ne (by rw [named]; decide)
      cases other_eq
      obtain ⟨words_eq, last⟩ := induction last
      rw [after_eq] at words_eq last
      have dots : (relocate texts.move dot).kind = .dot := dots
      have named : (relocate texts.move word).kind = .word := named
      simp only [Cursor.afterDotted, dots, named, decide_true, Bool.and_self, if_true]
      exact ⟨congrArg (word.text :: ·) words_eq, last⟩
  | case2 behind dot word rest absent =>
      rw [← Cursor.isAt_and_isAhead_cons _ _ _ _ rest behind, Bool.not_eq_true] at absent
      rw [afterDotted_of_not ((mirrors.shows.isAt_and_isAhead_eq .dot [.word] nofun).trans absent)]
      exact ⟨rfl, mirrors⟩
  | case3 behind rest short =>
      have absent := (mirrors.shows.isAt_and_isAhead_eq .dot [.word] nofun).trans
        (isAt_and_isAhead_of_short short)
      rw [afterDotted_of_not absent]
      exact ⟨rfl, mirrors⟩

theorem agree_skipBalanced (opening closing : TokenKind) :
    texts.Agree False (skipBalanced opening closing) (skipBalanced opening closing) cursor := by
  by_cases found : cursor.isAt opening
  · have left : skipBalanced opening closing cursor =
        ((), .afterBalanced opening closing 1 cursor.tail.behind cursor.tail.rest) := if_pos found
    have onward :=
      Cursor.reaches_afterBalanced opening closing 1 cursor.tail.behind cursor.tail.rest
    refine agree_of_mirrors ?_ fun other mirrors inside => ?_
    · rw [left]
      exact .trans (.tail .refl) onward
    · have right : skipBalanced opening closing other =
          ((), .afterBalanced opening closing 1 other.tail.behind other.tail.rest) :=
        if_pos ((mirrors.shows.isAt_eq opening).trans found)
      rw [left] at inside ⊢
      rw [right]
      exact (mirrors.tail (inside.of_reaches onward)).afterBalanced inside
  · have left : skipBalanced opening closing cursor = ((), cursor) := if_neg found
    refine agree_of_mirrors (by rw [left]; exact .refl) fun other mirrors inside => ?_
    have right : skipBalanced opening closing other = ((), other) :=
      if_neg (mirrors.shows.isAt_eq opening ▸ found)
    rw [left, right]
    exact mirrors

theorem agree_skipTo (stops : List TokenKind) :
    texts.Agree False (skipTo stops) (skipTo stops) cursor :=
  agree_of_mirrors (Cursor.reaches_beforeStop ..) fun _ mirrors => mirrors.beforeStop

theorem agree_skipToAny (stops : List TokenKind) :
    texts.Agree False (skipToAny stops) (skipToAny stops) cursor :=
  agree_of_mirrors (Cursor.reaches_beforeAny ..) fun _ mirrors => mirrors.beforeAny

theorem agree_skipHeader : texts.Agree False skipHeader skipHeader cursor :=
  agree_of_mirrors (Cursor.reaches_beforeBody ..) fun _ mirrors => mirrors.beforeBody

theorem agree_skipBracketPairs : texts.Agree stays skipBracketPairs skipBracketPairs cursor :=
  fun _ => ⟨Cursor.reaches_afterBrackets .., fun _ mirrors _ => mirrors.afterBrackets⟩

theorem agree_dottedWords : texts.Agree stays dottedWords dottedWords cursor := by
  refine fun _ => ⟨Cursor.reaches_afterDotted .., fun _ mirrors _ => ?_⟩
  have words_eq : relocate texts.move (dottedWords cursor).1 = (dottedWords cursor).1 :=
    List.map_id _
  rw [words_eq]
  exact mirrors.afterDotted

theorem agree_skipTypeArguments :
    texts.Agree stays skipTypeArguments skipTypeArguments cursor := by
  intro _
  by_cases found : cursor.isAt .less
  · have skip_eq {cursor : Cursor} (found : cursor.isAt .less) : skipTypeArguments cursor =
        (Cursor.afterTypeArguments? 1 cursor.tail.behind cursor.tail.rest).elim (false, cursor)
          (true, ·) := by
      rw [skipTypeArguments, if_pos found]
      cases Cursor.afterTypeArguments? 1 cursor.tail.behind cursor.tail.rest <;> rfl
    refine ⟨?_, fun other mirrors _ => ?_⟩
    · rw [skip_eq found]
      cases read : Cursor.afterTypeArguments? 1 cursor.tail.behind cursor.tail.rest with
      | none => exact .refl
      | some after => exact .trans (.tail .refl) (Cursor.reaches_afterTypeArguments? read)
    · have clear := not_isAt_closeBrace_of_isAt found (by decide)
      have after : Option.Rel texts.Mirrors
          (Cursor.afterTypeArguments? 1 cursor.tail.behind cursor.tail.rest)
          (Cursor.afterTypeArguments? 1 other.tail.behind other.tail.rest) :=
        (mirrors.tail (mirrors.inside_tail clear)).afterTypeArguments?
      rw [skip_eq found, skip_eq ((mirrors.shows.isAt_eq .less).trans found)]
      generalize Cursor.afterTypeArguments? 1 cursor.tail.behind cursor.tail.rest = left at after ⊢
      generalize Cursor.afterTypeArguments? 1 other.tail.behind other.tail.rest = right at after ⊢
      cases after with
      | some mirrors => exact ⟨rfl, mirrors⟩
      | none => exact ⟨rfl, mirrors⟩
  · have skip_eq {cursor : Cursor} (absent : ¬cursor.isAt .less) :
        skipTypeArguments cursor = (false, cursor) := if_neg absent
    rw [skip_eq found]
    refine ⟨.refl, fun other mirrors _ => ?_⟩
    rw [skip_eq (mirrors.shows.isAt_eq .less ▸ found)]
    exact ⟨rfl, mirrors⟩

theorem agree_typeRest? (text : String) :
    texts.Agree stays (typeRest? text) (typeRest? text) cursor := by
  intro _
  refine ⟨?_, fun other mirrors _ => ?_⟩
  · unfold typeRest?
    split
    · next read => exact Cursor.reaches_typeRest? read
    · exact .refl
  · have after : Option.Rel (fun left right => right.1 = left.1 ∧ texts.Mirrors left.2 right.2)
        (Cursor.typeRest? 0 text cursor.behind cursor.rest)
        (Cursor.typeRest? 0 text other.behind other.rest) := mirrors.typeRest?
    unfold typeRest?
    generalize Cursor.typeRest? 0 text cursor.behind cursor.rest = left at after ⊢
    generalize Cursor.typeRest? 0 text other.behind other.rest = right at after ⊢
    cases after with
    | some same =>
        obtain ⟨text_eq, mirrors⟩ := same
        exact ⟨congrArg some text_eq, mirrors⟩
    | none => exact ⟨rfl, mirrors⟩

/-! ## Annotations, modifiers and types -/

theorem agree_qualifiedName : texts.Agree stays qualifiedName qualifiedName cursor := by
  refine .get fun other _ shows => ?_
  rw [shows.isAt_eq]
  refine .ite_bind (fun found => agree_next? fun _ => not_isAt_closeBrace_of_isAt found (by decide))
    (fun _ => .pure rfl) fun first after _ _ => ?_
  refine .bind agree_dottedWords fun words _ _ _ => .pure ?_
  have words_eq : relocate texts.move words = words := List.map_id _
  rw [words_eq]
  cases first with
  | none => rfl
  | some token => rfl

theorem agree_skipAnnotation : texts.Agree False skipAnnotation skipAnnotation cursor := by
  refine .bind (.discard (agree_accept _ fun _ => by decide)) fun _ after _ _ => ?_
  refine .get fun other _ shows => ?_
  rw [shows.isAt_eq]
  refine .ite (fun _ => ?_) fun _ => agree_skipBalanced _ _
  exact .bind (.discard agree_qualifiedName) fun _ _ _ _ => agree_skipBalanced _ _

/-- No annotation of the common stretch ends after it. -/
theorem agree_skipAnnotation_of_isAt (found : cursor.isAt .atSign) :
    texts.Agree stays skipAnnotation skipAnnotation cursor := by
  intro tame
  obtain ⟨reaches, same⟩ := agree_skipAnnotation tame
  refine ⟨reaches, fun other mirrors _ => ?_⟩
  exact same other mirrors (.inr (mirrors.annotations cursor .refl mirrors.inside found))

theorem agree_atAnnotation : texts.Agree stays atAnnotation atAnnotation cursor := by
  refine fun _ => ⟨.refl, fun other mirrors _ => ⟨?_, mirrors⟩⟩
  refine mirrors.shows.isAt_and_eq .atSign nofun fun clear => ?_
  rw [mirrors.shows.isWordAhead_one_eq _ clear]

theorem isAt_of_atAnnotation (found : atAnnotation cursor = (true, after)) :
    cursor.isAt .atSign ∧ after = cursor := by
  obtain ⟨asked, rfl⟩ := Prod.mk.inj found
  exact ⟨(Bool.and_eq_true_iff.mp asked).1, rfl⟩

/-- Skipping an annotation if there is one, and else doing something that reads a token if it says
so. -/
theorem agree_skipAnnotation_or {p : Parser Bool} (agree : texts.Agree stays p p cursor) :
    texts.Agree stays
      (do if ← atAnnotation then skipAnnotation; return true
          p)
      (do if ← atAnnotation then skipAnnotation; return true
          p) cursor := by
  refine .bind_bool agree_atAnnotation (fun after read _ => ?_) fun after read _ => ?_
  · obtain ⟨found, rfl⟩ := isAt_of_atAnnotation read
    exact .bind (agree_skipAnnotation_of_isAt found) fun _ _ _ _ => .pure rfl
  · obtain ⟨-, rfl⟩ := Prod.mk.inj read
    exact agree

theorem agree_skipAnnotations : texts.Agree stays skipAnnotations skipAnnotations cursor := by
  refine .repeatWhile (fun after reaches => ?_) fun before _ order => ?_
  · exact agree_skipAnnotation_or (.pure rfl)
  · mvcgen <;> grind -ring -linarith

theorem agree_skipVariableModifiers :
    texts.Agree stays skipVariableModifiers skipVariableModifiers cursor := by
  refine .repeatWhile (fun after reaches => ?_) fun before _ order => ?_
  · exact agree_skipAnnotation_or (agree_acceptWord _)
  · mvcgen <;> grind -ring -linarith

theorem isAt_tail_of_isAhead {kind : TokenKind} (found : cursor.isAhead 1 [kind]) :
    cursor.tail.isAt kind := by
  match cursor with
  | ⟨[], _⟩ | ⟨[_], _⟩ => cases found
  | ⟨_ :: next :: _, _⟩ =>
      simpa [Cursor.isAhead, Cursor.kindAhead?, Cursor.ahead?, Cursor.isAt, Cursor.tail] using found

theorem isAtWord_tail_tail_of_isWordAhead {word : String} (found : cursor.isWordAhead 2 word) :
    cursor.tail.tail.isAtWord word := by
  match cursor with
  | ⟨[], _⟩ | ⟨[_], _⟩ | ⟨[_, _], _⟩ => cases found
  | ⟨_ :: _ :: next :: _, _⟩ => exact found

theorem kindAhead?_of_isAhead {n : Nat} {kind : TokenKind} (found : cursor.isAhead n [kind]) :
    cursor.kindAhead? n = some kind := by
  rw [Cursor.isAhead] at found
  cases kind_eq : cursor.kindAhead? n with
  | none =>
      rw [kind_eq] at found
      cases found
  | some found_kind =>
      rw [kind_eq] at found
      simpa using found

/-- Whether the three tokens of the modifier `non-sealed` come next. -/
theorem Shows.isAtNonSealed_eq (shows : texts.Shows cursor other) :
    (other.isAtWord "non" && other.isAhead 1 [.minus] && other.isWordAhead 2 "sealed") =
      (cursor.isAtWord "non" && cursor.isAhead 1 [.minus] && cursor.isWordAhead 2 "sealed") := by
  rw [shows.isAtWord_and_isAhead_eq]
  by_cases found : cursor.isAtWord "non" && cursor.isAhead 1 [.minus]
  · obtain ⟨word, minus⟩ := Bool.and_eq_true_iff.mp found
    have clear := clear_succ (clear_one (not_isAt_closeBrace_of_isAtWord word))
      (by rw [kindAhead?_of_isAhead minus]; decide)
    rw [shows.isWordAhead_eq _ clear]
  · rw [Bool.eq_false_iff.mpr found, Bool.false_and, Bool.false_and]

theorem agree_advance_three (found : (cursor.isAtWord "non" && cursor.isAhead 1 [.minus] &&
    cursor.isWordAhead 2 "sealed") = true) :
    texts.Agree stays (advance 3) (advance 3) cursor := by
  obtain ⟨found, last⟩ := Bool.and_eq_true_iff.mp found
  obtain ⟨first, middle⟩ := Bool.and_eq_true_iff.mp found
  refine .bind (p := advance 1) (f := fun _ => advance 2) (q := advance 1) (g := fun _ => advance 2)
    (agree_advance_one fun _ => not_isAt_closeBrace_of_isAtWord first) fun _ after read _ => ?_
  obtain rfl : cursor.tail = after := congrArg Prod.snd read
  refine .bind (p := advance 1) (f := fun _ => advance 1) (q := advance 1) (g := fun _ => advance 1)
    (agree_advance_one fun _ =>
      not_isAt_closeBrace_of_isAt (isAt_tail_of_isAhead middle) (by decide))
    fun _ after read _ => ?_
  obtain rfl : cursor.tail.tail = after := congrArg Prod.snd read
  exact agree_advance_one fun _ =>
    not_isAt_closeBrace_of_isAtWord (isAtWord_tail_tail_of_isWordAhead last)

theorem agree_atModifier : texts.Agree stays atModifier atModifier cursor := by
  refine fun _ => ⟨.refl, fun other mirrors _ => ⟨?_, mirrors⟩⟩
  have shows := mirrors.shows
  have modifier_eq := shows.any_head?_eq
    (fun token => decide (token.kind = .word) && modifierWords.contains token.text) fun _ => rfl
  simp only [atModifier, shows.isAtWord_and_isAhead_eq, modifier_eq]
  rfl

theorem agree_skipModifiers : texts.Agree stays skipModifiers skipModifiers cursor := by
  refine .repeatWhile (fun after reaches => ?_) fun before _ order => ?_
  · refine agree_skipAnnotation_or ?_
    refine .get fun other _ shows => ?_
    rw [shows.isAtNonSealed_eq]
    refine .ite (fun found => ?_) fun _ => ?_
    · exact .bind (agree_advance_three found) fun _ _ _ _ => .pure rfl
    · refine .bind_bool agree_atModifier (fun after read _ => ?_) fun _ _ _ => .pure rfl
      obtain ⟨found, rfl⟩ := Prod.mk.inj read
      refine .bind (agree_advance_one fun _ => ?_) fun _ _ _ _ => .pure rfl
      exact not_isAt_closeBrace_of_any (any_head?_of_atModifier found) fun _ => kind_ne_of_word
  · mvcgen <;> grind -ring -linarith

theorem agree_typeRef? : texts.Agree stays typeRef? typeRef? cursor := by
  refine .look fun origin' _ _ => ?_
  refine .bind agree_skipAnnotations fun _ after _ _ => ?_
  refine .get fun other _ shows => ?_
  cases rest_eq : after.rest with
  | nil =>
      rw [shows.rest_nil rest_eq]
      exact .restore (.pure rfl)
  | cons first rest =>
      obtain ⟨more, other_eq⟩ := shows.rest_cons rest_eq
      rw [other_eq]
      refine .ite (fun begins => ?_) fun _ => .restore (.pure rfl)
      have clear : ¬after.isAt .closeBrace := not_isAt_closeBrace_of_any
        (p := Token.beginsType) (by rwa [rest_eq]) fun _ => kind_ne_of_word
      refine .bind (agree_advance_one fun _ => clear) fun _ _ _ _ => ?_
      refine .bind_option (agree_typeRest? _) (fun _ _ _ => .restore (.pure rfl))
        fun text _ _ _ => ?_
      refine Agree.resume (.bind agree_skipBracketPairs fun pairs _ _ _ => ?_)
      exact .bind (.spanFrom _) fun span _ _ _ => .pure rfl

theorem agree_typeRef : texts.Agree stays typeRef typeRef cursor := by
  refine .bind_option agree_typeRef? (fun after _ _ => ?_) fun type _ _ _ => .pure rfl
  refine .get fun other _ shows => .pure ?_
  rw [shows.here_eq]
  rfl

/-- The name of a parameter after its type. -/
theorem agree_parameterName (type : TypeRef) :
    let parser (type : TypeRef) : Parser (Option Parameter) := do
      match (← get).rest with
      | name :: _ =>
        if name.kind = .word then
          advance 1
          discard skipBracketPairs
          return some ⟨← Parser.spanFrom type.span.start, type, ⟨name.text, name.span⟩⟩
        else return none
      | [] => return none
    texts.Agree stays (parser type) (parser (relocate texts.move type)) cursor := by
  refine .get fun other _ shows => ?_
  cases rest_eq : cursor.rest with
  | nil =>
      rw [shows.rest_nil rest_eq]
      exact .pure rfl
  | cons name rest =>
      obtain ⟨more, other_eq⟩ := shows.rest_cons rest_eq
      rw [other_eq]
      refine .ite (fun word => ?_) fun _ => .pure rfl
      have clear := not_isAt_closeBrace_of_isAt (Cursor.isAt_of_head rest_eq) (by rw [word]; decide)
      refine .bind (agree_advance_one fun _ => clear) fun _ _ _ _ => ?_
      refine .bind (.discard agree_skipBracketPairs) fun _ _ _ _ => ?_
      exact .bind (.spanFrom _) fun span _ _ _ => .pure rfl

theorem agree_parameter? : texts.Agree stays parameter? parameter? cursor := by
  refine .bind_option agree_typeRef? (fun after _ _ => .pure rfl) fun type after _ _ => ?_
  refine .get fun other _ shows => ?_
  cases rest_eq : after.rest with
  | nil =>
      rw [shows.rest_nil rest_eq]
      exact agree_parameterName type
  | cons dots rest =>
      obtain ⟨more, other_eq⟩ := shows.rest_cons rest_eq
      rw [other_eq]
      refine .ite (fun ellipsis => ?_) fun _ => agree_parameterName type
      have clear := not_isAt_closeBrace_of_isAt (Cursor.isAt_of_head rest_eq)
        (by rw [ellipsis]; decide)
      refine .bind (agree_advance_one fun _ => clear) fun _ _ _ _ => ?_
      exact agree_parameterName ⟨type.text ++ dots.text, ⟨type.span.start, dots.span.stop⟩⟩

theorem relocate_cover (texts : Parallel) (left right : Span) :
    relocate texts.move (left.cover right) =
      (relocate texts.move left).cover (relocate texts.move right) := by
  have start_eq := texts.monotone.map_min (a := left.start) (b := right.start)
  have stop_eq := texts.monotone.map_max (a := left.stop) (b := right.stop)
  exact congrArg₂ Span.mk start_eq stop_eq

theorem agree_castType? (type : TypeRef) :
    texts.Agree stays (castType? type) (castType? (relocate texts.move type)) cursor := by
  refine .loop (fun (type? : Option TypeRef) after _ => ?_) fun type? before _ order => ?_
  · cases type? with
    | none => exact .pure rfl
    | some type =>
        refine .bind_bool (agree_accept _ fun _ => by decide) (fun _ _ _ => ?_) fun _ _ _ =>
          .pure rfl
        refine .bind_option agree_typeRef? (fun _ _ _ => .pure rfl) fun more _ _ _ => .pure ?_
        have span_eq := relocate_cover texts type.span more.span
        exact congrArg (fun span => some (some (TypeRef.mk _ span))) span_eq.symm
  · mvcgen <;> grind -ring -linarith

/-! ## Operators and other things to look for -/

/-- A `>` touches the next token in both texts or in neither. -/
theorem Shows.touches_eq (shows : texts.Shows cursor other) (tame : texts.Tame cursor) {n : Nat}
    (clear : ∀ i < n, cursor.kindAhead? i ≠ some .closeBrace)
    (greater : cursor.kindAhead? n = some .greater) :
    other.touches n = cursor.touches n := by
  have clear' := clear_succ clear (by rw [greater]; decide)
  obtain ⟨token, first, kind_eq⟩ := Option.map_eq_some_iff.mp greater
  rw [Cursor.touches, Cursor.touches, shows.ahead?_eq clear, shows.ahead?_eq clear', first]
  cases second : cursor.ahead? (n + 1) with
  | none => rfl
  | some following => exact decide_eq_decide.mpr (tame.kept.touches_iff first second kind_eq)

theorem Shows.assignOp?_eq (shows : texts.Shows cursor other) (tame : texts.Tame cursor) :
    other.assignOp? = cursor.assignOp? := by
  have kind_eq := shows.kindAhead?_eq clear_zero
  by_cases greater : cursor.kindAhead? 0 = some .greater
  · have clear := clear_succ clear_zero (by rw [greater]; decide)
    simp only [Cursor.assignOp?, kind_eq, greater, shows.isAhead_eq _ clear,
      shows.touches_eq tame clear_zero greater]
    by_cases second : cursor.isAhead 1 [.greater]
    · have second' := kindAhead?_of_isAhead second
      have clear' := clear_succ clear (by rw [second']; decide)
      rw [shows.isAhead_eq _ clear', shows.touches_eq tame clear second']
    · simp only [second, Bool.false_and]
  · simp only [Cursor.assignOp?, kind_eq]
    split
    all_goals first | rfl | contradiction

theorem Shows.binaryOp?_eq (shows : texts.Shows cursor other) (tame : texts.Tame cursor) :
    other.binaryOp? = cursor.binaryOp? := by
  have kind_eq := shows.kindAhead?_eq clear_zero
  by_cases greater : cursor.kindAhead? 0 = some .greater
  · have clear := clear_succ clear_zero (by rw [greater]; decide)
    simp only [Cursor.binaryOp?, kind_eq, greater, shows.kindAhead?_eq clear,
      shows.touches_eq tame clear_zero greater]
    by_cases second : cursor.kindAhead? 1 = some .greater
    · have clear' := clear_succ clear (by rw [second]; decide)
      rw [shows.kindAhead?_eq clear', shows.touches_eq tame clear second]
    · -- Without a second `>` the third token does not count.
      have second_ne : (if cursor.touches 0 then cursor.kindAhead? 1 else none) ≠
          some .greater := by
        split
        · exact second
        · nofun
      generalize (if cursor.touches 0 then cursor.kindAhead? 1 else none) = found at second_ne ⊢
      match found with
      | none => rfl
      | some kind => cases kind <;> first | rfl | contradiction
  · simp only [Cursor.binaryOp?, kind_eq]
    split
    all_goals first | rfl | contradiction

theorem Shows.unaryOp?_eq (shows : texts.Shows cursor other) :
    other.unaryOp? = cursor.unaryOp? := by
  rw [Cursor.unaryOp?, Cursor.unaryOp?, shows.kindAhead?_eq clear_zero]

theorem Shows.updateOp?_eq (shows : texts.Shows cursor other) :
    other.updateOp? = cursor.updateOp? := by
  rw [Cursor.updateOp?, Cursor.updateOp?, shows.kindAhead?_eq clear_zero]

theorem Shows.typeKind?_eq (shows : texts.Shows cursor other) :
    other.typeKind? = cursor.typeKind? := by
  have annotation := shows.isAt_and_eq .atSign nofun (shows.isWordAhead_one_eq "interface")
  rw [Cursor.typeKind?, annotation, shows.isAtWord_and_isAhead_eq]
  simp only [shows.isAtWord_eq]
  rfl

theorem Shows.isAtLabel_eq (shows : texts.Shows cursor other) :
    other.isAtLabel = cursor.isAtLabel := by
  rw [Cursor.isAtLabel, Cursor.isAtLabel, shows.isAtWord_eq, shows.isAtWord_and_isAhead_eq]

theorem arrowAfterParens_eq {move : Nat → Nat} {old new window : List Token} {depth : Nat}
    (seam : old = [] ∧ new = [] ∨
      ∃ inner brace, window = inner ++ [brace] ∧ brace.kind = .closeBrace) :
    Cursor.arrowAfterParens depth (relocate move window ++ new) =
      Cursor.arrowAfterParens depth (window ++ old) := by
  induction window generalizing depth with
  | nil =>
      rcases seam with ⟨rfl, rfl⟩ | ⟨inner, brace, impossible, -⟩
      · rfl
      · simp at impossible
  | cons token window induction =>
      have relocate_eq : relocate move (token :: window) ++ new =
        relocate move token :: (relocate move window ++ new) := rfl
      have kind_eq : (relocate move token).kind = token.kind := rfl
      rw [relocate_eq, List.cons_append]
      simp only [Cursor.arrowAfterParens, kind_eq]
      by_cases closed : token.kind = .closeBrace
      · simp only [closed]
      · have seam' : old = [] ∧ new = [] ∨
            ∃ inner brace, window = inner ++ [brace] ∧ brace.kind = .closeBrace := by
          refine seam.imp_right ?_
          rintro ⟨inner, brace, window_eq, brace_kind⟩
          cases inner with
          | nil => exact (closed ((List.cons.inj window_eq).1 ▸ brace_kind)).elim
          | cons _ inner => exact ⟨inner, brace, (List.cons.inj window_eq).2, brace_kind⟩
        have head_eq : (relocate move window ++ new).head?.any (·.kind = .arrow) =
            (window ++ old).head?.any (·.kind = .arrow) := by
          cases window with
          | nil =>
              rcases seam' with ⟨rfl, rfl⟩ | ⟨inner, brace, impossible, -⟩
              · rfl
              · simp at impossible
          | cons next window => rfl
        split
        · exact induction seam'
        · split
          · exact head_eq
          · exact induction seam'
        · rfl
        · rfl
        · rfl
        · exact induction seam'

theorem Shows.isAtLambda_eq (shows : texts.Shows cursor other) :
    other.isAtLambda = cursor.isAtLambda := by
  rw [Cursor.isAtLambda, Cursor.isAtLambda, shows.isAtIdentifier_and_isAhead_eq, shows.isAt_eq]
  obtain ⟨old, new, window, rest_eq, rfl, seam⟩ := shows
  rw [rest_eq, arrowAfterParens_eq seam]

end Parallel

end JavaOutline
