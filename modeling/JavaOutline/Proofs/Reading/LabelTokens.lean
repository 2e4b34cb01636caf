import JavaOutline.Proofs.Reading.LabelEnds

/-!
# The tokens of a label before a colon and before an arrow

What looks at tokens, reads them or skips them follows in a text with an arrow what it does in the
text with a colon. Text in brackets is the only thing that may run beyond the label and still leave
off at the same place in both texts; types with annotations may hold such text.
-/

namespace JavaOutline

namespace LabelEnds

variable {ends : LabelEnds} {cursor before after other : Cursor} {token : Token}
  {rest window : List Token} {behind : Nat}

/-! ## Single tokens -/

section Tokens

variable {α : Type} {stays : Prop} {opens : Cursor → α → Prop}

open JavaOutline.Parser

theorem follows_spanFrom (start : Nat) {opens : Cursor → Span → Prop} :
    ends.Follows stays opens (spanFrom start) (spanFrom start) cursor :=
  .of_mirrors .refl fun _ mirrors _ => ⟨mirrors.shows.spanFrom_eq start, mirrors.abreast⟩

theorem follows_missing {opens : Cursor → Expr → Prop} :
    ends.Follows stays opens missing missing cursor :=
  .of_mirrors .refl fun _ mirrors _ =>
    ⟨congrArg (fun here => Expr.missing (.point here)) mirrors.shows.here_eq, mirrors.abreast⟩

theorem follows_accept (kind : TokenKind) (not_arrow : kind ≠ .arrow)
    (not_colon : stays → kind ≠ .colon) {opens : Cursor → Bool → Prop} :
    ends.Follows stays opens (accept kind) (accept kind) cursor := by
  refine .of_mirrors (passes_accept kind cursor).reaches fun other mirrors within => ?_
  obtain ⟨window, behind, rfl, rfl⟩ := mirrors.exists_window
  cases window with
  | nil =>
      by_cases colon : kind = .colon
      · subst colon
        simp [accept_apply, withColon, Inside, ends.is_colon] at within
        exact absurd rfl (not_colon within)
      · rw [accept_apply, accept_apply]
        simp [withColon, withArrow, ends.is_colon, ends.is_arrow, Ne.symm colon, not_arrow.symm]
        exact mirrors.abreast
  | cons token window =>
      by_cases found : token.kind = kind
      · simp [accept_apply, found]
        exact (mirrors_window window token.span.stop).abreast
      · simp [accept_apply, found]
        exact mirrors.abreast

theorem follows_acceptWord (word : String) {opens : Cursor → Bool → Prop} :
    ends.Follows stays opens (acceptWord word) (acceptWord word) cursor := by
  have reaches := (triple_iff.mp (place_acceptWord word cursor) cursor rfl).1
  refine .of_mirrors reaches fun other mirrors _ => ?_
  obtain ⟨window, behind, rfl, rfl⟩ := mirrors.exists_window
  cases window with
  | nil =>
      simp [acceptWord_apply, withColon, withArrow, Token.isWord, ends.is_colon, ends.is_arrow]
      exact mirrors.abreast
  | cons token window =>
      cases found : token.isWord word with
      | true =>
          simp [acceptWord_apply, found]
          exact (mirrors_window window token.span.stop).abreast
      | false =>
          simp [acceptWord_apply, found]
          exact mirrors.abreast

theorem follows_advance_one (goes_on : stays → cursor.isAt .colon = false)
    {opens : Cursor → Unit → Prop} :
    ends.Follows stays opens (advance 1) (advance 1) cursor :=
  .of_mirrors (.tail .refl) fun _ mirrors within =>
    ⟨rfl, (mirrors.tail (within.imp_left goes_on)).abreast⟩

theorem follows_advance (n : Nat) {opens : Cursor → Unit → Prop} :
    ends.Follows False opens (advance n) (advance n) cursor := by
  induction n generalizing cursor with
  | zero => exact .pure rfl
  | succ n induction => exact .bind (follows_advance_one False.elim) fun _ _ _ _ => induction

theorem follows_next? {opens : Cursor → Option Token → Prop}
    (goes_on : cursor.isAt .colon = false) :
    ends.Follows stays opens next? next? cursor := by
  refine .of_mirrors (.tail .refl) fun other mirrors _ => ?_
  obtain ⟨window, behind, rfl, rfl⟩ := mirrors.exists_window
  cases window with
  | nil => simp [withColon, ends.is_colon] at goes_on
  | cons token window => exact ⟨rfl, (mirrors_window window token.span.stop).abreast⟩

/-! ## Skipped tokens -/

/-- Text in brackets that is not closed in the label is closed in the same place after it. -/
theorem abreast_afterBalanced {opening closing : TokenKind}
    (opens_not : opening ∉ [.colon, .arrow, .semicolon])
    (closes_not : closing ∉ [.colon, .arrow, .semicolon])
    (window : List Token) (depth behind : Nat) :
    ends.Abreast (.afterBalanced opening closing depth behind (window ++ ends.withColon))
      (.afterBalanced opening closing depth behind (window ++ ends.withArrow)) := by
  simp only [List.mem_cons, List.not_mem_nil, or_false, not_or] at opens_not closes_not
  obtain ⟨no_colon, no_arrow, no_semicolon⟩ := opens_not
  obtain ⟨no_colon', no_arrow', no_semicolon'⟩ := closes_not
  induction window generalizing depth behind with
  | nil =>
      cases depth with
      | zero => exact (mirrors_window [] behind).abreast
      | succ depth =>
          refine .inr ⟨?_, fun inside => ?_⟩
          · simp [withColon, withArrow, Cursor.afterBalanced, ends.is_colon, ends.is_arrow,
              ends.is_semicolon, Ne.symm no_colon, Ne.symm no_colon', Ne.symm no_arrow,
              Ne.symm no_arrow', Ne.symm no_semicolon, Ne.symm no_semicolon']
          · have shorter := (Cursor.reaches_afterBalanced opening closing depth.succ
              ends.colon.span.stop (ends.brace :: ends.more)).length_le
            simp [withColon, Cursor.afterBalanced, ends.is_colon, Ne.symm no_colon,
              Ne.symm no_colon', Inside] at inside shorter
            omega
  | cons token window induction =>
      cases depth with
      | zero => exact (mirrors_window (token :: window) behind).abreast
      | succ depth => exact induction _ _

theorem follows_skipBalanced {opening closing : TokenKind}
    (opens_not : opening ∉ [.colon, .arrow, .semicolon])
    (closes_not : closing ∉ [.colon, .arrow, .semicolon]) {opens : Cursor → Unit → Prop} :
    ends.Follows stays opens (skipBalanced opening closing) (skipBalanced opening closing)
      cursor := by
  have no_colon : opening ≠ .colon := fun found => opens_not (by simp [found])
  have no_arrow : opening ≠ .arrow := fun found => opens_not (by simp [found])
  have reaches := Parser.triple_iff.mp (onward_skipBalanced opening closing cursor) cursor .refl
  refine .of_mirrors reaches fun other mirrors _ => ⟨rfl, ?_⟩
  obtain ⟨window, behind, rfl, rfl⟩ := mirrors.exists_window
  cases window with
  | nil =>
      simp [skipBalanced, withColon, withArrow, ends.is_colon, ends.is_arrow, Ne.symm no_colon,
        Ne.symm no_arrow]
      exact mirrors.abreast
  | cons token window =>
      by_cases found : token.kind = opening
      · simp [skipBalanced, found]
        exact abreast_afterBalanced opens_not closes_not window 1 token.span.stop
      · simp [skipBalanced, found]
        exact mirrors.abreast

theorem follows_skipParens {opens : Cursor → Unit → Prop} :
    ends.Follows stays opens skipParens skipParens cursor :=
  follows_skipBalanced (by decide) (by decide)

theorem follows_skipBraces {opens : Cursor → Unit → Prop} :
    ends.Follows stays opens skipBraces skipBraces cursor :=
  follows_skipBalanced (by decide) (by decide)

theorem follows_skipBrackets {opens : Cursor → Unit → Prop} :
    ends.Follows stays opens skipBrackets skipBrackets cursor :=
  follows_skipBalanced (by decide) (by decide)

/-- One step of skipping does not depend on what comes after it. -/
theorem beforeStop_cons (stops : List TokenKind) (depth behind : Nat) (token : Token)
    (rest rest' : List Token) :
    (Cursor.beforeStop stops depth behind (token :: rest) = ⟨token :: rest, behind⟩ ∧
      Cursor.beforeStop stops depth behind (token :: rest') = ⟨token :: rest', behind⟩) ∨
    ∃ depth', Cursor.beforeStop stops depth behind (token :: rest) =
        .beforeStop stops depth' token.span.stop rest ∧
      Cursor.beforeStop stops depth behind (token :: rest') =
        .beforeStop stops depth' token.span.stop rest' := by
  rw [Cursor.beforeStop, Cursor.beforeStop]
  split_ifs
  · exact .inl ⟨rfl, rfl⟩
  · split <;> first | exact .inl ⟨rfl, rfl⟩ | exact .inr ⟨_, rfl, rfl⟩
  · split <;> exact .inr ⟨_, rfl, rfl⟩

theorem mirrors_beforeStop {stops : List TokenKind} (no_colon : .colon ∉ stops)
    (window : List Token) (depth behind : Nat)
    (inside : ends.Inside (.beforeStop stops depth behind (window ++ ends.withColon))) :
    ends.Mirrors (.beforeStop stops depth behind (window ++ ends.withColon))
      (.beforeStop stops depth behind (window ++ ends.withArrow)) := by
  induction window generalizing depth behind with
  | nil =>
      have shorter := (Cursor.reaches_beforeStop stops depth ends.colon.span.stop
        (ends.brace :: ends.more)).length_le
      simp [withColon, Cursor.beforeStop, ends.is_colon, no_colon, Inside] at inside shorter
      omega
  | cons token window induction =>
      rw [List.cons_append] at inside ⊢
      rw [List.cons_append]
      obtain ⟨left, right⟩ | ⟨depth', left, right⟩ := beforeStop_cons stops depth behind token
        (window ++ ends.withColon) (window ++ ends.withArrow)
      · rw [left, right]
        exact mirrors_window (token :: window) behind
      · rw [left] at inside ⊢
        rw [right]
        exact induction _ _ inside

theorem follows_skipTo {stops : List TokenKind} (no_colon : .colon ∉ stops)
    {opens : Cursor → Unit → Prop} :
    ends.Follows False opens (skipTo stops) (skipTo stops) cursor := by
  refine .of_mirrors (Cursor.reaches_beforeStop ..) fun other mirrors within => ⟨rfl, ?_⟩
  obtain ⟨window, behind, rfl, rfl⟩ := mirrors.exists_window
  exact (mirrors_beforeStop no_colon window 0 behind (within.resolve_left id)).abreast

theorem mirrors_afterBrackets (behind : Nat) : (window : List Token) →
    (Cursor.afterBrackets behind (window ++ ends.withArrow)).1 =
        (Cursor.afterBrackets behind (window ++ ends.withColon)).1 ∧
      ends.Mirrors (Cursor.afterBrackets behind (window ++ ends.withColon)).2
        (Cursor.afterBrackets behind (window ++ ends.withArrow)).2
  | [] => by
      simpa [withColon, withArrow, Cursor.afterBrackets, ends.is_colon, ends.is_arrow]
        using mirrors_window [] behind
  | [token] => by
      simpa [withColon, withArrow, Cursor.afterBrackets, ends.is_colon, ends.is_arrow]
        using mirrors_window [token] behind
  | token :: closing :: window => by
      obtain ⟨pairs_eq, mirrors⟩ := mirrors_afterBrackets closing.span.stop window
      by_cases found : token.kind = .openBracket ∧ closing.kind = .closeBracket
      · simp [Cursor.afterBrackets, found, pairs_eq, mirrors]
      · have stop_eq : (decide (token.kind = .openBracket) &&
            decide (closing.kind = .closeBracket)) = false := by
          simpa using found
        simpa [Cursor.afterBrackets, stop_eq]
          using mirrors_window (token :: closing :: window) behind

theorem follows_skipBracketPairs {opens : Cursor → Nat → Prop} :
    ends.Follows stays opens skipBracketPairs skipBracketPairs cursor := by
  refine .of_mirrors (Cursor.reaches_afterBrackets ..) fun other mirrors _ => ?_
  obtain ⟨window, behind, rfl, rfl⟩ := mirrors.exists_window
  obtain ⟨pairs_eq, mirrors⟩ := mirrors_afterBrackets behind window
  exact ⟨pairs_eq, mirrors.abreast⟩

theorem mirrors_afterDotted (behind : Nat) : (window : List Token) →
    (Cursor.afterDotted behind (window ++ ends.withArrow)).1 =
        (Cursor.afterDotted behind (window ++ ends.withColon)).1 ∧
      ends.Mirrors (Cursor.afterDotted behind (window ++ ends.withColon)).2
        (Cursor.afterDotted behind (window ++ ends.withArrow)).2
  | [] => by
      simpa [withColon, withArrow, Cursor.afterDotted, ends.is_colon, ends.is_arrow]
        using mirrors_window [] behind
  | [token] => by
      simpa [withColon, withArrow, Cursor.afterDotted, ends.is_colon, ends.is_arrow]
        using mirrors_window [token] behind
  | dot :: word :: window => by
      obtain ⟨words_eq, mirrors⟩ := mirrors_afterDotted word.span.stop window
      by_cases found : dot.kind = .dot ∧ word.kind = .word
      · simp [Cursor.afterDotted, found, words_eq, mirrors]
      · have stop_eq : (decide (dot.kind = .dot) && decide (word.kind = .word)) = false := by
          simpa using found
        simpa [Cursor.afterDotted, stop_eq] using mirrors_window (dot :: word :: window) behind

theorem follows_dottedWords {opens : Cursor → List String → Prop} :
    ends.Follows stays opens dottedWords dottedWords cursor := by
  refine .of_mirrors (Cursor.reaches_afterDotted ..) fun other mirrors _ => ?_
  obtain ⟨window, behind, rfl, rfl⟩ := mirrors.exists_window
  obtain ⟨words_eq, mirrors⟩ := mirrors_afterDotted behind window
  exact ⟨words_eq, mirrors.abreast⟩

variable (ends) in
/-- Type arguments do not run beyond the label. -/
theorem mirrors_afterTypeArguments? (window : List Token) (depth behind : Nat) :
    Option.Rel ends.Mirrors (Cursor.afterTypeArguments? depth behind (window ++ ends.withColon))
      (Cursor.afterTypeArguments? depth behind (window ++ ends.withArrow)) := by
  induction window generalizing depth behind with
  | nil =>
      cases depth with
      | zero => exact .some (mirrors_window [] behind)
      | succ depth =>
          simp [withColon, withArrow, Cursor.afterTypeArguments?, ends.is_colon, ends.is_arrow,
            TokenKind.isTypeArgument]
  | cons token window induction =>
      cases depth with
      | zero => exact .some (mirrors_window (token :: window) behind)
      | succ depth =>
          simp only [List.cons_append, Cursor.afterTypeArguments?]
          split
          · exact induction _ _
          · exact induction _ _
          · split_ifs
            · exact induction _ _
            · exact .none

theorem follows_skipTypeArguments {opens : Cursor → Bool → Prop} :
    ends.Follows stays opens skipTypeArguments skipTypeArguments cursor := by
  have reaches := triple_iff.mp (onward_skipTypeArguments cursor) cursor .refl
  refine .of_mirrors reaches fun other mirrors _ => ?_
  obtain ⟨window, behind, rfl, rfl⟩ := mirrors.exists_window
  cases window with
  | nil =>
      simp [skipTypeArguments, withColon, withArrow, ends.is_colon, ends.is_arrow]
      exact mirrors.abreast
  | cons token window =>
      have rel := mirrors_afterTypeArguments? ends window 1 token.span.stop
      by_cases found : token.kind = .less
      · simp only [skipTypeArguments, List.cons_append, Cursor.isAt_cons, found, decide_true,
          if_true, Cursor.tail_cons]
        generalize Cursor.afterTypeArguments? 1 token.span.stop (window ++ ends.withColon) = left
          at rel
        generalize Cursor.afterTypeArguments? 1 token.span.stop (window ++ ends.withArrow) = right
          at rel
        cases rel with
        | some mirrors => exact ⟨rfl, mirrors.abreast⟩
        | none => exact ⟨rfl, mirrors.abreast⟩
      · simp [skipTypeArguments, found]
        exact mirrors.abreast

/-- One step of reading a type outside angle brackets. -/
theorem typeRest?_of_closed (text : String) (behind : Nat) (token next : Token)
    (rest : List Token) : Cursor.typeRest? 0 text behind (token :: next :: rest) =
      if token.kind = .less then
        Cursor.typeRest? 1 (text ++ token.text) token.span.stop (next :: rest)
      else if token.kind = .dot then
        if next.kind = .word && !isReserved next.text then
          Cursor.typeRest? 0 (text ++ "." ++ next.text) next.span.stop rest
        else some (text, ⟨token :: next :: rest, behind⟩)
      else some (text, ⟨token :: next :: rest, behind⟩) := by
  rw [Cursor.typeRest?]

variable (ends) in
/-- The rest of a type does not run beyond the label. -/
theorem mirrors_typeRest? (depth : Nat) (text : String) (behind : Nat) : (window : List Token) →
    Option.Rel (fun left right => right.1 = left.1 ∧ ends.Mirrors left.2 right.2)
      (Cursor.typeRest? depth text behind (window ++ ends.withColon))
      (Cursor.typeRest? depth text behind (window ++ ends.withArrow))
  | [] => by
      cases depth with
      | zero =>
          simpa [withColon, withArrow, Cursor.typeRest?, ends.is_colon, ends.is_arrow]
            using mirrors_window [] behind
      | succ depth =>
          simp [withColon, withArrow, Cursor.typeRest?, ends.is_colon, ends.is_arrow,
            TokenKind.isTypeArgument]
  | token :: window => by
      have ended : ends.Mirrors ⟨token :: window ++ ends.withColon, behind⟩
          ⟨token :: window ++ ends.withArrow, behind⟩ := mirrors_window (token :: window) behind
      cases depth with
      | succ depth =>
          rw [List.cons_append, List.cons_append, Cursor.typeRest?, Cursor.typeRest?]
          split
          · exact mirrors_typeRest? _ _ _ window
          · exact mirrors_typeRest? _ _ _ window
          · split_ifs
            · exact mirrors_typeRest? _ _ _ window
            · exact .none
      | zero =>
          cases window with
          | nil =>
              have inner := mirrors_typeRest? 1 (text ++ token.text) token.span.stop []
              simp only [withColon, withArrow, List.cons_append, List.nil_append] at inner ended ⊢
              rw [typeRest?_of_closed text behind token ends.colon,
                typeRest?_of_closed text behind token ends.arrow]
              simp only [ends.is_colon, ends.is_arrow, reduceCtorEq, decide_false, Bool.false_and,
                Bool.false_eq_true, if_false, ite_self]
              split_ifs
              · exact inner
              · exact .some ⟨rfl, ended⟩
          | cons next window =>
              simp only [List.cons_append] at ended ⊢
              rw [typeRest?_of_closed, typeRest?_of_closed]
              split_ifs
              · exact mirrors_typeRest? 1 _ _ (next :: window)
              · exact mirrors_typeRest? 0 _ _ window
              · exact .some ⟨rfl, ended⟩
              · exact .some ⟨rfl, ended⟩

theorem follows_typeRest? (text : String) {opens : Cursor → Option String → Prop} :
    ends.Follows stays opens (typeRest? text) (typeRest? text) cursor := by
  have reaches := triple_iff.mp (onward_typeRest? text cursor) cursor .refl
  refine .of_mirrors reaches fun other mirrors _ => ?_
  obtain ⟨window, behind, rfl, rfl⟩ := mirrors.exists_window
  have rel := mirrors_typeRest? ends 0 text behind window
  simp only [typeRest?]
  generalize Cursor.typeRest? 0 text behind (window ++ ends.withColon) = left at rel
  generalize Cursor.typeRest? 0 text behind (window ++ ends.withArrow) = right at rel
  cases rel with
  | some same => exact ⟨congrArg some same.1, same.2.abreast⟩
  | none => exact ⟨rfl, mirrors.abreast⟩

/-! ## Types -/

theorem Shows.rest_cases (shows : ends.Shows cursor other) :
    cursor.rest = [] ∧ other.rest = [] ∨
      (∃ token rest more, cursor.rest = token :: rest ∧ other.rest = token :: more) ∨
      cursor.rest = ends.withColon ∧ other.rest = ends.withArrow := by
  rcases shows with mirrors | rfl
  · obtain ⟨window, behind, rfl, rfl⟩ := mirrors.exists_window
    cases window with
    | nil => exact .inr (.inr ⟨rfl, rfl⟩)
    | cons token window => exact .inr (.inl ⟨token, _, _, rfl, rfl⟩)
  · cases rest_eq : other.rest with
    | nil => exact .inl ⟨rfl, rfl⟩
    | cons token rest => exact .inr (.inl ⟨token, rest, rest, rfl, rfl⟩)

theorem follows_qualifiedName :
    ends.Follows stays OpensNone qualifiedName qualifiedName cursor := by
  refine .get fun other shows => ?_
  rw [shows.isAt_eq .word nofun nofun]
  refine .ite_bind (fun found => follows_next? (Cursor.isAt_eq_false_of_isAt found _ nofun))
    (fun _ => .pure rfl) fun first after _ _ => ?_
  exact .bind follows_dottedWords fun words _ _ _ => .pure rfl

theorem follows_skipAnnotation :
    ends.Follows stays OpensNone skipAnnotation skipAnnotation cursor := by
  refine .bind (.discard (follows_accept .atSign nofun fun _ => nofun)) fun _ after _ _ => ?_
  refine .get fun other shows => ?_
  rw [shows.isAt_eq .word nofun nofun]
  refine .ite (fun _ => ?_) fun _ => follows_skipParens
  exact .bind (.discard follows_qualifiedName) fun _ _ _ _ => follows_skipParens

theorem follows_atAnnotation : ends.Follows stays OpensNone atAnnotation atAnnotation cursor := by
  refine .of_mirrors .refl fun other mirrors _ => ⟨?_, mirrors.abreast⟩
  refine mirrors.shows.isAt_and_eq nofun nofun fun goes_on => ?_
  rw [mirrors.shows.isWordAhead_one_eq _ goes_on]

theorem follows_skipAnnotations :
    ends.Follows stays OpensNone skipAnnotations skipAnnotations cursor := by
  rw [skipAnnotations_eq_repeatWhile]
  refine .repeatWhile advances_annotationStep advances_annotationStep fun after _ => ?_
  refine .bind follows_atAnnotation fun found after _ _ => ?_
  cases found with
  | true => exact .bind follows_skipAnnotation fun _ _ _ _ => .pure rfl
  | false => exact .pure rfl

/-- A type is read or the place is left as it was. -/
theorem typeRef?_eq_attempt : typeRef? = attempt (do
    skipAnnotations
    match (← get).rest with
    | [] => return none
    | first :: _ =>
      if first.beginsType then
        advance 1
        match ← typeRest? first.text with
        | none => return none
        | some text =>
          let pairs ← skipBracketPairs
          let text := (List.replicate pairs "[]").foldl (· ++ ·) text
          return some ⟨text, ← spanFrom first.span.start⟩
      else return none) := by
  funext cursor
  simp only [typeRef?, attempt, bind_apply, get_apply]
  generalize (skipAnnotations cursor).2 = after
  cases after.rest with
  | nil => rfl
  | cons first rest =>
      cases begins : first.beginsType with
      | false => simp [begins]
      | true =>
          simp only [begins, if_true, bind_apply]
          cases (typeRest? first.text (advance 1 after).2).1 with
          | none => rfl
          | some text => rfl

theorem follows_typeRef? {opens : Cursor → Option TypeRef → Prop} :
    ends.Follows stays opens typeRef? typeRef? cursor := by
  rw [typeRef?_eq_attempt]
  refine .attempt (.bind follows_skipAnnotations fun _ after _ _ => ?_)
  refine .get fun other shows => ?_
  obtain ⟨left, right⟩ | ⟨first, rest, more, left, right⟩ | ⟨left, right⟩ := shows.rest_cases
  · rw [left, right]
    exact .pure rfl
  · rw [left, right]
    refine .ite (fun begins => ?_) fun _ => .pure rfl
    have word : after.isAt .word := by
      simp only [Token.beginsType, Bool.and_eq_true] at begins
      simpa [Cursor.isAt, left] using begins.1
    have goes_on := Cursor.isAt_eq_false_of_isAt word .colon (by decide)
    refine .bind (follows_advance_one fun _ => goes_on) fun _ _ _ _ => ?_
    refine .bind (follows_typeRest? _) fun text _ _ _ => ?_
    cases text with
    | none => exact .pure rfl
    | some text =>
        refine .bind follows_skipBracketPairs fun pairs _ _ _ => ?_
        exact .bind (follows_spanFrom _) fun span _ _ _ => .pure rfl
  · rw [left, right]
    simp [withColon, withArrow, Token.beginsType, ends.is_colon, ends.is_arrow]
    exact .pure rfl

theorem follows_typeRef {opens : Cursor → TypeRef → Prop} :
    ends.Follows stays opens typeRef typeRef cursor := by
  refine .bind follows_typeRef? fun type after _ _ => ?_
  cases type with
  | none => exact .get fun other shows => .pure (by rw [shows.here_eq])
  | some type => exact .pure rfl

theorem follows_castType? (type : TypeRef) :
    ends.Follows stays OpensNone (castType? type) (castType? type) cursor := by
  rw [castType?_eq]
  have carries : ends.Carries stays OpensNone (fun _ _ => True) castTypeStep cursor :=
    { advances := advances_castTypeStep
      keeps := fun _ _ _ => trivial
      carries := fun _ _ _ _ _ _ _ opened => opened }
  refine .loop carries advances_castTypeStep trivial fun type? after _ _ => ?_
  cases type? with
  | none => exact .pure rfl
  | some type =>
      refine .bind (follows_accept .amp nofun fun _ => nofun) fun accepted _ _ _ => ?_
      cases accepted with
      | false => exact .pure rfl
      | true =>
          refine .bind follows_typeRef? fun more _ _ _ => ?_
          cases more with
          | none => exact .pure rfl
          | some more => exact .pure rfl

/-! ## Lambdas -/

theorem arrowAfterParens_withArrow {window : List Token} {depth : Nat}
    (found : Cursor.arrowAfterParens depth (window ++ ends.withColon) = true) :
    Cursor.arrowAfterParens depth (window ++ ends.withArrow) = true := by
  induction window generalizing depth with
  | nil => simp [withColon, Cursor.arrowAfterParens, ends.is_colon, ends.is_brace] at found
  | cons token window induction =>
      simp only [List.cons_append, Cursor.arrowAfterParens] at found ⊢
      split at found
      · exact induction found
      · split_ifs at found ⊢
        · cases window with
          | nil => simp [withColon, ends.is_colon] at found
          | cons next window => exact found
        · exact induction found
      · cases found
      · cases found
      · cases found
      · exact induction found

theorem isAt_colon_of_isAtIdentifier (found : cursor.isAtIdentifier = true) :
    cursor.isAt .colon = false := by
  obtain ⟨rest, behind⟩ := cursor
  cases rest with
  | nil => cases found
  | cons token rest =>
      have word : token.kind = .word := by simpa using (Bool.and_eq_true_iff.mp found).1
      simp [word]

/-- A lambda in front of the colon is one in front of the arrow, too. -/
theorem Shows.isAtLambda (shows : ends.Shows cursor other) (lambda : cursor.isAtLambda = true) :
    other.isAtLambda = true := by
  rcases shows with mirrors | rfl
  · have shows := mirrors.shows
    simp only [Cursor.isAtLambda, Bool.or_eq_true, Bool.and_eq_true] at lambda ⊢
    rw [shows.isAtIdentifier_eq, shows.isAt_eq .openParen (by decide) (by decide)]
    rcases lambda with ⟨identifier, arrow⟩ | ⟨opened, arrow⟩
    · refine .inl ⟨identifier, ?_⟩
      rcases shows.ahead?_one (isAt_colon_of_isAtIdentifier identifier) with same | ⟨colon, -⟩
      · rwa [Cursor.isAhead, Cursor.kindAhead?, same]
      · simp [Cursor.isAhead, Cursor.kindAhead?, colon, ends.is_colon] at arrow
    · obtain ⟨window, behind, rfl, rfl⟩ := mirrors.exists_window
      exact .inr ⟨opened, arrowAfterParens_withArrow arrow⟩
  · exact lambda

theorem Shows.isHead (shows : ends.Shows cursor other) (not_lambda : cursor.isAtLambda = false)
    (lambda : other.isAtLambda = true) : ends.IsHead cursor := by
  rcases shows with mirrors | rfl
  · exact ⟨other, mirrors, not_lambda, lambda⟩
  · rw [not_lambda] at lambda
    cases lambda

/-- The parentheses of a lambda end in front of its arrow. -/
theorem isAt_arrow_afterBalanced {depth behind : Nat} {rest : List Token}
    (found : Cursor.arrowAfterParens (depth + 1) rest = true) :
    (Cursor.afterBalanced .openParen .closeParen (depth + 1) behind rest).isAt .arrow = true := by
  induction rest generalizing depth behind with
  | nil => cases found
  | cons token rest induction =>
      simp only [Cursor.arrowAfterParens] at found
      rw [Cursor.afterBalanced]
      split at found
      · next kind_eq => simpa [kind_eq] using induction found
      · next kind_eq =>
        cases depth with
        | zero => simpa [kind_eq, Cursor.afterBalanced, Cursor.isAt] using found
        | succ depth => simpa [kind_eq] using induction (by simpa using found)
      · cases found
      · cases found
      · cases found
      · next not_opening not_closing _ _ _ =>
        rw [if_neg not_opening, if_neg not_closing]
        exact induction found

/-- The parameters of a lambda end in front of its arrow. -/
theorem isAt_arrow_of_isAtLambda (lambda : cursor.isAtLambda = true) :
    ((if cursor.isAt .openParen then skipParens else advance 1 : Parser Unit) cursor).2.isAt
      .arrow = true := by
  obtain ⟨rest, behind⟩ := cursor
  cases rest with
  | nil => cases lambda
  | cons token rest =>
      by_cases opened : token.kind = .openParen
      · have found : Cursor.arrowAfterParens 0 (token :: rest) = true := by
          simpa [Cursor.isAtLambda, opened] using lambda
        simp only [Cursor.arrowAfterParens, opened] at found
        simpa [opened, skipParens, skipBalanced] using isAt_arrow_afterBalanced found
      · have found : Cursor.isAhead ⟨rest, behind⟩ 0 [.arrow] = true := by
          simp only [Cursor.isAtLambda, Cursor.isAt_cons, opened, decide_false, Bool.false_and,
            Bool.or_false, Bool.and_eq_true, Cursor.isAhead_one_cons] at lambda
          exact lambda.2
        rw [Cursor.isAhead_zero_singleton] at found
        simp only [Cursor.isAt_cons, opened, decide_false, Bool.false_eq_true, if_false]
        exact found

end Tokens

end LabelEnds

end JavaOutline
