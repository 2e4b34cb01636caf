import Mathlib
import JavaOutline.Proofs.Reading.Placed
import JavaOutline.Proofs.Reading.TypesTaken

/-!
# Expressions that are read as their readings say

An expression that was read between two places accounts for their tokens if these have the fates of
one of its readings, with type arguments in front of it and loose dots and bracket pairs behind it.
What was read before may go on, as the operand of a selection, an operator or an assignment. Each
kind of expression accounts for its tokens if its parts account for theirs. In front of the colons
of a method reference, an operand need not account for the type arguments and the bracket pairs
behind it, as the reference is copied with all of its tokens.
-/

open Std.Do
open scoped Computability

namespace JavaOutline

open Fate (shows showsKinds supplies passes upTo lacks copies parens ofKinds
  ofWord IsGroup parameters typeArguments stray passedGroup loosePairs looseDot)

namespace Cursor

variable {before middle after : Cursor}

theorem spanFrom_of_lt {start : Nat} (start_lt : start < after.behind) :
    after.spanFrom start = ⟨start, after.behind⟩ := by
  rw [spanFrom, Nat.max_eq_left (Nat.le_of_lt start_lt)]

theorem ReachesOn.ne (reachesOn : before.ReachesOn after) : after ≠ before :=
  fun same => Nat.ne_of_lt reachesOn.length_lt (congrArg (·.rest.length) same)

theorem span_of_head {token : Token} {rest : List Token} (head : before.rest = token :: rest) :
    token.span = ⟨before.here, before.tail.behind⟩ := by
  rw [here, tail, head]

namespace IsScanned

theorem behind_le (scanned : before.IsScanned) (reaches : before.Reaches after) :
    before.behind ≤ after.behind := by
  obtain ⟨source, order⟩ := scanned.exists_inOrder
  exact order.behind_le reaches

theorem here_lt_behind (scanned : before.IsScanned) (reachesOn : before.ReachesOn after) :
    before.here < after.behind := by
  obtain ⟨source, order⟩ := scanned.exists_inOrder
  exact reachesOn.here_lt_behind order

/-- The tokens from one place to another can be copied. -/
theorem takes_copies {P : List Token → List Token → Prop} (scanned : before.IsScanned)
    (crosses : before.Crosses P after) (start_lt : before.here < after.behind) :
    before.Takes (upTo (copies ⟨before.here, after.behind⟩) P) after := by
  have reaches := crosses.reaches
  refine Takes.crosses ?_ crosses
  obtain ⟨tokens, rest_eq, stays, ends⟩ := reaches.exists_append
  refine ⟨reaches, tokens.map .shown, ?_, by rw [Fate.tokens_map_shown, rest_eq],
    Fate.before_map_shown _ _⟩
  have some_tokens : tokens ≠ [] := by
    intro none
    obtain rfl := stays none
    obtain ⟨source, order⟩ := scanned.exists_inOrder
    exact absurd order.behind_le_here (Nat.not_le_of_lt start_lt)
  obtain ⟨first, more, rfl⟩ := List.exists_cons_of_ne_nil some_tokens
  have last_eq := List.getLast?_eq_some_getLast some_tokens
  refine ⟨_, first, _, rfl, last_eq, ?_, rfl⟩
  rw [ends _ last_eq, here, rest_eq]
  rfl

end IsScanned

/-- A name that a type test binds. -/
@[grind →]
theorem takes_identifier (found : before.isAtIdentifier) :
    before.Takes (((before.rest.head?.map (·.text)).map (shows .word)).getD (lacks (·.isName)))
      before.tail := by
  obtain ⟨_ | ⟨token, rest⟩, behind⟩ := before
  · cases found
  · have kind_eq : token.kind = .word := by grind -ring -linarith [isAtIdentifier]
    have head : Cursor.rest ⟨token :: rest, behind⟩ = token :: rest := rfl
    exact kind_eq ▸ takes_shows head

@[grind .]
theorem takes_no_identifier (missing : before.isAtIdentifier = false) :
    before.Takes (lacks (·.isName)) before :=
  .lacks fun next found named => by
    rw [isAtIdentifier, found] at missing
    exact Bool.false_ne_true (missing.symm.trans named)

theorem takes_no_kind {kind : TokenKind} (missing : before.isAt kind = false) :
    before.Takes (lacks (·.kind = kind)) before :=
  .lacks fun next found kind_eq => by
    rw [isAt, found] at missing
    exact Bool.false_ne_true (missing.symm.trans (decide_eq_true kind_eq))

/-- A token may be missing. -/
theorem takes_or_lacks {kind : TokenKind} {accepted : Bool}
    (accepts : accepted = before.isAt kind ∧ after = if accepted then before.tail else before) :
    before.Takes (lacks (·.kind = kind) + showsKinds [kind]) after := by
  obtain ⟨rfl, rfl⟩ := accepts
  cases found : before.isAt kind with
  | false => exact .inl (takes_no_kind found)
  | true => exact .inr (Cursor.takes_showsKinds found)

/-- A token that is missing is shown all the same. -/
theorem takes_or_supplies {kind : TokenKind} {accepted : Bool}
    (accepts : accepted = before.isAt kind ∧ after = if accepted then before.tail else before)
    (text : String) : before.Takes (showsKinds [kind] + supplies kind text) after := by
  obtain ⟨rfl, rfl⟩ := accepts
  cases found : before.isAt kind with
  | false => exact .inr ⟨.refl, [.supplied text before.rest], ⟨_, rfl, found⟩, rfl, rfl, trivial⟩
  | true => exact .inl (Cursor.takes_showsKinds found)

@[grind .]
theorem takes_dot (found : before.isAt .dot)
    (skips : before.tail.Takes (1 + passes typeArguments) after) :
    before.Takes (showsKinds [.dot] * (1 + passes typeArguments)) after := by
  have dot : before.Takes (showsKinds [.dot]) before.tail := Cursor.takes_showsKinds found
  exact dot.mul skips

theorem Reaches.takes_top (reaches : before.Reaches after) : before.Takes ⊤ after := by
  obtain ⟨tokens, rest_eq, -⟩ := reaches.exists_append
  exact ⟨reaches, tokens.map .shown, Set.mem_univ _, by rw [Fate.tokens_map_shown, rest_eq],
    Fate.before_map_shown _ _⟩

section Ahead

variable {cursor : Cursor} {kind : TokenKind}

@[grind →]
theorem isAt_of_kindAhead? (found : cursor.kindAhead? 0 = some kind) : cursor.isAt kind := by
  obtain ⟨rest, behind⟩ := cursor
  cases rest with
  | nil => cases found
  | cons token rest => simpa [kindAhead?, ahead?, isAt] using found

theorem isAhead_singleton (n : Nat) :
    cursor.isAhead n [kind] ↔ cursor.kindAhead? n = some kind := by
  cases ahead : cursor.kindAhead? n <;> simp [isAhead, ahead]

/-- Tokens of known kinds are read. -/
theorem takes_advance {kinds : List TokenKind}
    (ahead : ∀ i kind, kinds[i]? = some kind → cursor.kindAhead? i = some kind) :
    cursor.Takes (showsKinds kinds) (Parser.advance kinds.length cursor).2 := by
  induction kinds generalizing cursor with
  | nil => exact .refl ⟨[], rfl, rfl⟩
  | cons kind kinds induction =>
      obtain ⟨rest, behind⟩ := cursor
      cases rest with
      | nil => cases ahead 0 kind rfl
      | cons token rest =>
          have found : Takes ⟨token :: rest, behind⟩ (showsKinds [kind]) ⟨rest, token.span.stop⟩ :=
            takes_showsKinds (isAt_of_kindAhead? (ahead 0 kind rfl))
          have later := @induction ⟨rest, token.span.stop⟩
            fun i other other_eq => ahead (i + 1) other other_eq
          refine (found.mul later).mono ?_
          rintro _ ⟨_, ⟨tokens, kinds_eq, rfl⟩, _, ⟨tokens', kinds_eq', rfl⟩, rfl⟩
          refine ⟨tokens ++ tokens', ?_, List.map_append.symm⟩
          exact Fate.mem_ofKinds.mpr (by rw [List.map_append, kinds_eq, kinds_eq']; rfl)

@[grind →]
theorem takes_binaryOp? {op : BinaryOp} {width : Nat}
    (found : cursor.binaryOp? = some (op, width)) :
    cursor.Takes (showsKinds (op.lexemes.map (·.1))) (Parser.advance width cursor).2 := by
  have known : width = (op.lexemes.map (·.1)).length ∧
      ∀ i kind, (op.lexemes.map (·.1))[i]? = some kind → cursor.kindAhead? i = some kind := by
    unfold binaryOp? at found
    split at found
    -- `>` may begin a shift, which its touching tokens make
    case h_17 =>
      extract_lets second third at found
      have second_eq : second = none ∨ second = cursor.kindAhead? 1 := ite_eq_or_eq .. |>.symm
      have third_eq : third = none ∨ third = cursor.kindAhead? 2 := ite_eq_or_eq .. |>.symm
      clear_value second third
      split at found <;> cases found
      all_goals
        refine ⟨rfl, fun i kind kind_eq => ?_⟩
        rcases i with _ | _ | _ | i <;> simp [BinaryOp.lexemes] at kind_eq <;>
          grind -ring -linarith only
    all_goals grind -ring -linarith [BinaryOp.lexemes, cases List]
  rw [known.1]
  exact takes_advance known.2

@[grind →]
theorem takes_assignOp? {op : AssignOp} {width : Nat}
    (found : cursor.assignOp? = some (op, width)) :
    cursor.Takes (showsKinds (op.lexemes.map (·.1))) (Parser.advance width cursor).2 := by
  have known : width = (op.lexemes.map (·.1)).length ∧
      ∀ i kind, (op.lexemes.map (·.1))[i]? = some kind → cursor.kindAhead? i = some kind := by
    unfold assignOp? at found
    split at found
    all_goals grind -ring -linarith [AssignOp.lexemes, cases List, isAhead_singleton]
  rw [known.1]
  exact takes_advance known.2

@[grind →]
theorem takes_unaryOp? {op : UnaryOp} (found : cursor.unaryOp? = some op) :
    cursor.Takes (showsKinds (op.lexemes.map (·.1))) cursor.tail := by
  unfold unaryOp? at found
  split at found <;> cases found <;> exact takes_showsKinds (isAt_of_kindAhead? ‹_›)

@[grind →]
theorem takes_updateOp? {op : UpdateOp} (found : cursor.updateOp? = some op) :
    cursor.Takes (showsKinds (op.lexemes.map (·.1))) cursor.tail := by
  unfold updateOp? at found
  split at found <;> cases found <;> exact takes_showsKinds (isAt_of_kindAhead? ‹_›)

end Ahead

/-! ## Casts and lambdas -/

/-- Whether no cast begins at a place. -/
def NoCast (before : Cursor) : Prop :=
  ∀ read behind, before.rest = read ++ behind → IsCastTarget read →
    ∀ next ∈ behind.head?, next.beginsCastOperand = false

@[grind .]
theorem noCast_of_not_isAt (missing : before.isAt .openParen = false) : before.NoCast := by
  rintro _ behind rest_eq ⟨opening, type, more, closing⟩
  rw [isAt, rest_eq] at missing
  simp [opening.kind_eq] at missing

/-- An arrow follows the parameters of a lambda in parentheses. -/
theorem arrowAfterParens_append {depth : Nat} {tokens behind : List Token} {next : Token}
    (plain : ∀ token ∈ tokens, token.kind ∉ [.semicolon, .openBrace, .closeBrace])
    (closes : Fate.count [.closeParen] tokens = depth + 1 + Fate.count [.openParen] tokens)
    (inside : ∀ front back, tokens = front ++ back → back ≠ [] →
      Fate.count [.closeParen] front < depth + 1 + Fate.count [.openParen] front)
    (found : behind.head? = some next) (is_arrow : next.kind = .arrow) :
    arrowAfterParens (depth + 1) (tokens ++ behind) = true := by
  induction tokens generalizing depth with
  | nil => simp [Fate.count] at closes
  | cons token tokens induction =>
      obtain ⟨other, plain⟩ := List.forall_mem_cons.mp plain
      have later {depth' : Nat} (depth_eq : depth' + 1 + Fate.count [.closeParen] [token] =
          depth + 1 + Fate.count [.openParen] [token]) :
          arrowAfterParens (depth' + 1) (tokens ++ behind) = true := by
        refine induction plain ?_ fun front back append_eq more => ?_
        · rw [Fate.count_cons, Fate.count_cons _ token tokens] at closes
          omega
        · have inside := inside (token :: front) back (congrArg (token :: ·) append_eq) more
          rw [Fate.count_cons, Fate.count_cons _ token front] at inside
          omega
      rw [List.cons_append, arrowAfterParens]
      split
      case h_1 opens => exact later (by simp [Fate.count, opens])
      case h_2 closing =>
        cases depth with
        | zero =>
            obtain rfl : tokens = [] := by
              by_contra more
              simpa [Fate.count, closing] using inside [token] tokens rfl more
            simp [found, is_arrow]
        | succ depth =>
            rw [if_neg (by omega)]
            exact later (by simp [Fate.count, closing])
      case h_3 stop | h_4 stop | h_5 stop => simp [stop] at other
      case h_6 no_open no_close _ _ _ =>
        have other : token.kind ≠ .openParen ∧ token.kind ≠ .closeParen := ⟨no_open, no_close⟩
        exact later (by simp [Fate.count, other])

/-- A lambda begins with its parameters and the arrow. -/
theorem isAtLambda_of_parameters {read behind : List Token} {next : Token}
    (rest_eq : before.rest = read ++ behind) (head : read ∈ parameters)
    (found : behind.head? = some next) (is_arrow : next.kind = .arrow) :
    before.isAtLambda = true := by
  obtain ⟨rest, place⟩ := before
  obtain rfl : rest = read ++ behind := rest_eq
  obtain ⟨later, rfl⟩ := List.head?_eq_some_iff.mp found
  rcases head with ⟨name, rfl, named⟩ | ⟨⟨⟨opens, inside⟩, closes⟩, plain⟩
  · have named : name.kind = .word ∧ isReserved name.text = false := by
      simpa [Token.isName] using named
    simp [isAtLambda, isAtIdentifier, isAhead, kindAhead?, ahead?, named, is_arrow]
  · obtain ⟨opening, tokens, rfl⟩ : ∃ opening tokens, read = opening :: tokens :=
      List.exists_cons_of_ne_nil (by rintro rfl; cases opens)
    have opens : opening.kind = .openParen := by simpa using opens
    have arrow : arrowAfterParens 1 (tokens ++ next :: later) = true := by
      refine arrowAfterParens_append (List.forall_mem_cons.mp plain).2 ?_ ?_ rfl is_arrow
      · simp only [Fate.count, List.countP_cons, opens] at closes ⊢
        grind -ring -linarith
      · intro front back append_eq more
        have inside := inside (opening :: front) back (congrArg (opening :: ·) append_eq)
          (List.cons_ne_nil _ _) more
        simp only [Fate.count, List.countP_cons, opens] at inside ⊢
        grind -ring -linarith
    simp [isAtLambda, isAt, opens, arrowAfterParens, arrow]

end Cursor

namespace ExcerptKind

/-- Whether an expression of a kind is copied from the operand on that its tokens follow. -/
def follows : ExcerptKind → Bool
  | .arrayCreation | .classLiteral | .methodReference => true
  | _ => false

theorem IsWhole.append {kind : ExcerptKind} {read behind : List Token} (follows : kind.follows)
    (front : List Token) (whole : kind.IsWhole read behind) :
    kind.IsWhole (front ++ read) behind := by
  cases kind with
  | arrayCreation =>
      obtain ⟨inner, elements, rfl, group, no_bracket⟩ := whole
      exact ⟨front ++ inner, elements, List.append_assoc .. |>.symm, group, no_bracket⟩
  | classLiteral =>
      obtain ⟨inner, word, rfl, is_class⟩ := whole
      exact ⟨front ++ inner, word, List.append_assoc .. |>.symm, is_class⟩
  | methodReference =>
      obtain ⟨inner, colons, arguments, named, rfl, later⟩ := whole
      exact ⟨front ++ inner, colons, arguments, named, List.append_assoc .. |>.symm, later⟩
  | _ => cases follows

end ExcerptKind

theorem EndsInBody.append {read behind : List Token} (front : List Token)
    (ends : EndsInBody read behind) : EndsInBody (front ++ read) behind := by
  obtain ⟨inner, body, rfl, later⟩ := ends
  exact ⟨front ++ inner, body, List.append_assoc .. |>.symm, later⟩

namespace Cursor

variable {before middle after : Cursor}

/-! ## What is copied -/

/-- A group that begins is not empty. -/
theorem exists_of_isAt_of_crosses {opening closing : TokenKind} (opens : before.isAt opening)
    (crosses : before.Crosses (IsGroup opening closing) after) :
    ∃ read, before.rest = read ++ after.rest ∧ read ≠ [] ∧
      IsGroup opening closing read after.rest := by
  obtain ⟨-, read, rest_eq, group⟩ := crosses
  refine ⟨read, rest_eq, ?_, group⟩
  rintro rfl
  obtain ⟨_ | ⟨token, rest⟩, behind⟩ := before
  · cases opens
  obtain ⟨-, no_open⟩ | ⟨⟨begins, -⟩, -⟩ := group
  · have kind_eq : token.kind = opening := by simpa [isAt] using opens
    refine no_open token ?_ kind_eq
    rw [← show token :: rest = after.rest from rest_eq]
    rfl
  · cases begins

@[grind →]
theorem reachesOn_of_crosses {opening closing : TokenKind} (opens : before.isAt opening)
    (crosses : before.Crosses (IsGroup opening closing) after) : before.ReachesOn after := by
  rcases crosses.reaches.eq_or_tail with rfl | later
  · obtain ⟨read, rest_eq, some_read, -⟩ := exists_of_isAt_of_crosses opens crosses
    exact absurd (List.self_eq_append_left.mp rest_eq) some_read
  · exact (reachesOn_tail_of_isAt opens).trans later

@[grind →]
theorem crosses_arrayInitializer (opens : before.isAt .openBrace)
    (crosses : before.Crosses (IsGroup .openBrace .closeBrace) after) :
    before.Crosses ExcerptKind.arrayInitializer.IsWhole after := by
  obtain ⟨read, rest_eq, some_read, group⟩ := exists_of_isAt_of_crosses opens crosses
  exact ⟨crosses.reaches, read, rest_eq, some_read, group⟩

theorem crosses_body (reaches : before.Reaches middle) (opens : middle.isAt .openBrace)
    (crosses : middle.Crosses (IsGroup .openBrace .closeBrace) after) :
    before.Crosses EndsInBody after := by
  obtain ⟨read, rest_eq, some_read, group⟩ := exists_of_isAt_of_crosses opens crosses
  have body : middle.Crosses EndsInBody after :=
    ⟨crosses.reaches, read, rest_eq, [], read, rfl, some_read, group⟩
  exact .behind reaches body fun front _ => .append front

theorem crosses_arrayCreation (ends : before.isAt .openBracket = false)
    (crosses : before.Crosses (IsGroup .openBrace .closeBrace) after) :
    before.Crosses ExcerptKind.arrayCreation.IsWhole after := by
  obtain ⟨reaches, read, rest_eq, group⟩ := crosses
  refine ⟨reaches, read, rest_eq, [], read, rfl, group, fun next found kind_eq => ?_⟩
  rw [isAt, rest_eq, found] at ends
  exact Bool.false_ne_true (ends.symm.trans (decide_eq_true kind_eq))

theorem crosses_switch {token : Token} {rest : List Token} (head : before.rest = token :: rest)
    (is_switch : token.isWord "switch")
    (selector : before.tail.Crosses (IsGroup .openParen .closeParen) middle)
    (body : middle.Crosses (IsGroup .openBrace .closeBrace) after) :
    before.Crosses ExcerptKind.switch.IsWhole after := by
  obtain ⟨reaches, read, rest_eq, group⟩ := selector
  obtain ⟨reaches', read', rest_eq', group'⟩ := body
  rw [rest_tail head] at rest_eq
  refine ⟨(Reaches.tail .refl).trans (reaches.trans reaches'), token :: (read ++ read'), ?_,
    token, read, read', rfl, is_switch, rest_eq' ▸ group, group'⟩
  rw [head, rest_eq, rest_eq', List.cons_append, List.append_assoc]

section Lambda

variable (reaches : before.Reaches middle) (arrow : middle.isAt .arrow)

include reaches arrow

/-- The tokens behind an arrow are the body of a lambda. -/
theorem crosses_lambda {body : List Token} (onward : middle.tail.Reaches after)
    (rest_eq : middle.tail.rest = body ++ after.rest) (some_body : body ≠ [])
    (whole : body.head?.any (·.kind = .openBrace) →
      IsGroup .openBrace .closeBrace body after.rest) :
    before.Crosses ExcerptKind.lambda.IsWhole after := by
  obtain ⟨front, front_eq, -⟩ := reaches.exists_append
  obtain ⟨_ | ⟨token, rest⟩, behind⟩ := middle
  · cases arrow
  have kind_eq : token.kind = .arrow := by simpa [isAt] using arrow
  have rest_eq : rest = body ++ after.rest := rest_eq
  refine ⟨reaches.trans ((Reaches.tail .refl).trans onward), front ++ token :: body, ?_,
    front, token, body, rfl, kind_eq, some_body, whole⟩
  rw [front_eq, rest_eq, List.append_assoc, List.cons_append]

theorem crosses_lambda_braces (opens : middle.tail.isAt .openBrace)
    (crosses : middle.tail.Crosses (IsGroup .openBrace .closeBrace) after) :
    before.Crosses ExcerptKind.lambda.IsWhole after := by
  obtain ⟨read, rest_eq, some_read, group⟩ := exists_of_isAt_of_crosses opens crosses
  exact crosses_lambda reaches arrow crosses.reaches rest_eq some_read fun _ => group

theorem crosses_lambda_expr (no_brace : middle.tail.isAt .openBrace = false)
    (reachesOn : middle.tail.ReachesOn after) :
    before.Crosses ExcerptKind.lambda.IsWhole after := by
  obtain ⟨body, rest_eq, none_read, -⟩ := reachesOn.reaches.exists_append
  have some_body : body ≠ [] := fun empty => reachesOn.ne (none_read empty)
  obtain ⟨first, body, rfl⟩ := List.exists_cons_of_ne_nil some_body
  refine crosses_lambda reaches arrow reachesOn.reaches rest_eq some_body fun opens => ?_
  rw [isAt, rest_eq] at no_brace
  exact absurd (no_brace.symm.trans opens) Bool.false_ne_true

end Lambda

/-- A class literal ends with its word. -/
theorem crosses_classLiteral {token : Token} {rest : List Token} (reaches : before.Reaches middle)
    (head : middle.rest = token :: rest) (kind_eq : token.kind = .word)
    (text_eq : token.text = "class") :
    before.Crosses ExcerptKind.classLiteral.IsWhole middle.tail := by
  obtain ⟨front, front_eq, -⟩ := reaches.exists_append
  have is_class : token.isWord "class" := by simp [Token.isWord, kind_eq, text_eq]
  refine ⟨reaches.trans (.tail .refl), front ++ [token], ?_, front, token, rfl, is_class⟩
  rw [front_eq, rest_eq_append_tail head, List.append_assoc]

theorem crosses_dotted_class (reaches : before.Reaches middle)
    (dotted : middle.isAt .dot) (is_class : middle.isWordAhead 1 "class") :
    before.Crosses ExcerptKind.classLiteral.IsWhole (Parser.advance 2 middle).2 := by
  obtain ⟨_ | ⟨dot, _ | ⟨word, rest⟩⟩, behind⟩ := middle
  · cases dotted
  · cases is_class
  · obtain ⟨kind_eq, text_eq⟩ : word.kind = .word ∧ word.text = "class" := by
      simpa [isWordAhead, ahead?, Token.isWord] using is_class
    exact @crosses_classLiteral _ ⟨word :: rest, dot.span.stop⟩ _ _ (reaches.trans (.tail .refl))
      rfl kind_eq text_eq

/-- A method reference ends with its word, unless none follows. -/
theorem crosses_methodReference (found : before.isAt .doubleColon)
    (skips : before.tail.PassesTypeArguments middle)
    (ends : after = if middle.isAt .word then middle.tail else middle) :
    before.Crosses ExcerptKind.methodReference.IsWhole after := by
  obtain ⟨_ | ⟨colons, rest⟩, behind⟩ := before
  · cases found
  have kind_eq : colons.kind = .doubleColon := by simpa [isAt] using found
  obtain ⟨reaches, arguments, member, rest_eq, unnamed⟩ := skips
  have rest_eq : rest = arguments ++ middle.rest := rest_eq
  have onward : Reaches ⟨colons :: rest, behind⟩ middle := (Reaches.tail .refl).trans reaches
  subst ends
  cases at_word : middle.isAt .word with
  | false =>
      have unnamed := unnamed at_word
      rw [show Cursor.rest (tail ⟨colons :: rest, behind⟩) = rest from rfl, rest_eq] at unnamed
      refine ⟨onward, colons :: (arguments ++ []), ?_, [], colons, arguments, [], rfl, kind_eq,
        member, .inr ⟨rfl, unnamed⟩⟩
      simp [rest_eq]
  | true =>
      obtain ⟨_ | ⟨word, later⟩, place⟩ := middle
      · cases at_word
      have word_eq : word.kind = .word := by simpa [isAt] using at_word
      refine ⟨onward.trans (.tail .refl), colons :: (arguments ++ [word]), ?_, [], colons,
        arguments, [word], rfl, kind_eq, member, .inl ⟨word, rfl, word_eq⟩⟩
      simp [rest_eq, tail]

end Cursor

namespace Expr

/-- Whether an expression is in parentheses. -/
def isParenthesized : Expr → Bool
  | parenthesized .. => true
  | _ => false

theorem ne_missing_of_isPrimary {expr : Expr} (primary : expr.isPrimary) :
    expr ≠ .missing expr.span := by
  intro missing
  rw [missing] at primary
  cases primary

/-- What is copied with all that was read before it is a primary expression. -/
theorem isPrimary_of_follows {kind : ExcerptKind} {span : Span} (follows : kind.follows) :
    (excerpt span kind).isPrimary := by
  cases kind <;> first | rfl | cases follows

attribute [grind =] isPrimary

/-- Whether an expression may be what the arrow of a lambda follows. -/
def isHead : Expr → Bool
  | name .. | parenthesized .. => true
  | _ => false

/-- Whether an expression was read between two places as one of its readings says, with what may
stand in front of it and behind it. -/
def Accounts (expr : Expr) (before after : Cursor) : Prop :=
  ∃ first last : Cursor, before.Takes expr.lead first ∧ first.Takes expr.reading last ∧
    last.Takes expr.trail after ∧
    (expr = .missing expr.span ∨
      expr.span = ⟨first.here, last.behind⟩ ∧ first.here < last.behind)

attribute [grind →] Cursor.Takes.reaches Cursor.Crosses.reaches

namespace Accounts

variable {expr operand : Expr} {origin before middle after : Cursor}

@[grind →]
theorem reaches (accounts : expr.Accounts before after) : before.Reaches after := by
  obtain ⟨first, last, leads, reads, trails, -⟩ := accounts
  exact leads.reaches.trans (reads.reaches.trans trails.reaches)

theorem takes_around (accounts : expr.Accounts before after) :
    before.Takes (expr.around expr.reading) after := by
  obtain ⟨first, last, leads, reads, trails, -⟩ := accounts
  exact (leads.mul reads).mul trails

theorem missing {span : Span} (reaches : before.Reaches after) :
    (Expr.missing span).Accounts before after :=
  ⟨before, after, .refl (nil_mem_lead _), reaches.takes_top, .refl (nil_mem_trail _), .inl rfl⟩

theorem of_takes (takes : before.Takes expr.reading after)
    (start_lt : before.here < after.behind) (span_eq : expr.span = after.spanFrom before.here) :
    expr.Accounts before after :=
  ⟨before, after, .refl (nil_mem_lead expr), takes, .refl (nil_mem_trail expr),
    .inr ⟨span_eq.trans (Cursor.spanFrom_of_lt start_lt), start_lt⟩⟩

end Accounts

/-- Whether an expression was read as an operand between two places. One in parentheses is not the
target of a cast. -/
structure OperandAccounts (expr : Expr) (before after : Cursor) : Prop where
  accounts : expr.Accounts before after
  uncast : expr.isParenthesized → before.NoCast

/-- Whether an expression was read as a whole one between two places. A name, or an expression in
parentheses, is not what the arrow of a lambda follows. -/
structure WholeAccounts (expr : Expr) (before after : Cursor) : Prop extends
    expr.OperandAccounts before after where
  unheaded : expr.isHead → before.isAtLambda = false

attribute [grind →] OperandAccounts.accounts OperandAccounts.uncast
  WholeAccounts.toOperandAccounts WholeAccounts.unheaded

@[grind →]
theorem OperandAccounts.reaches {expr : Expr} {before after : Cursor}
    (accounts : expr.OperandAccounts before after) : before.Reaches after :=
  accounts.1.reaches

@[grind →]
theorem WholeAccounts.reaches {expr : Expr} {before after : Cursor}
    (accounts : expr.WholeAccounts before after) : before.Reaches after :=
  accounts.1.reaches

theorem OperandAccounts.untargeted {expr : Expr} {before after : Cursor} {read : List Token}
    (accounts : expr.OperandAccounts before after) (rest_eq : before.rest = read ++ after.rest) :
    ¬expr.TargetsCast read after.rest := by
  intro targets
  cases expr with
  | parenthesized =>
      obtain ⟨target, next, found, begins⟩ := targets
      have none_begins := accounts.uncast rfl read _ rest_eq target next found
      exact Bool.false_ne_true (none_begins.symm.trans begins)
  | _ => exact targets

theorem OperandAccounts.takes_operand {expr : Expr} {before after : Cursor}
    (accounts : expr.OperandAccounts before after) :
    before.Takes (expr.operand expr.reading) after :=
  accounts.1.takes_around.upTo fun _ => accounts.untargeted

theorem WholeAccounts.takes_whole {expr : Expr} {before after : Cursor}
    (accounts : expr.WholeAccounts before after) :
    before.Takes (expr.whole expr.reading) after := by
  refine accounts.accounts.takes_around.upTo fun read rest_eq => ⟨?_, fun heads => ?_⟩
  · exact accounts.untargeted rest_eq
  · cases expr with
    | name | parenthesized =>
        obtain ⟨head, next, found, is_arrow⟩ := heads
        have lambda := Cursor.isAtLambda_of_parameters rest_eq head found is_arrow
        exact Bool.false_ne_true ((accounts.unheaded rfl).symm.trans lambda)
    | _ => exact heads

namespace Accounts

variable {expr operand : Expr} {before middle after : Cursor}

/-- An expression that is copied is read whatever its tokens are, if they are all of it. -/
theorem copy {P : List Token → List Token → Prop} (scanned : before.IsScanned)
    (reachesOn : before.ReachesOn after) (crosses : before.Crosses P after)
    (span_eq : expr.span = after.spanFrom before.here)
    (reading_eq : expr.reading = upTo (copies expr.span) P) : expr.Accounts before after := by
  have start_lt := scanned.here_lt_behind reachesOn
  refine of_takes ?_ start_lt span_eq
  rw [reading_eq, span_eq, Cursor.spanFrom_of_lt start_lt]
  exact scanned.takes_copies crosses start_lt

@[grind .]
theorem excerpt {kind : ExcerptKind} (scanned : before.IsScanned)
    (reachesOn : before.ReachesOn after) (crosses : before.Crosses kind.IsWhole after) :
    (Expr.excerpt (after.spanFrom before.here) kind).Accounts before after :=
  copy scanned reachesOn crosses rfl rfl

section Token

variable {token : Token} {rest : List Token}

/-- An expression that consists of one token. -/
theorem of_token (scanned : before.IsScanned) (head : before.rest = token :: rest)
    (reads : shows token.kind token.text ≤ expr.reading) (span_eq : expr.span = token.span) :
    expr.Accounts before before.tail := by
  have start_lt := scanned.here_lt_behind (Cursor.reachesOn_tail head)
  refine of_takes ((Cursor.takes_shows head).mono reads) start_lt ?_
  rw [span_eq, Cursor.spanFrom_of_lt start_lt, Cursor.span_of_head head]

/-- An expression that consists of one word, which is not called. -/
theorem of_word {language : Language Fate} (scanned : before.IsScanned)
    (head : before.rest = token :: rest) (kind_eq : token.kind = .word)
    (reads : shows .word token.text * language ≤ expr.reading)
    (ends : before.tail.Takes language before.tail) (span_eq : expr.span = token.span) :
    expr.Accounts before before.tail := by
  have shown := kind_eq ▸ Cursor.takes_shows head
  have start_lt := scanned.here_lt_behind (Cursor.reachesOn_tail head)
  refine of_takes ((shown.mul ends).mono reads) start_lt ?_
  rw [span_eq, Cursor.spanFrom_of_lt start_lt, Cursor.span_of_head head]

@[grind .]
theorem literal {kind : LiteralKind} (scanned : before.IsScanned)
    (head : before.rest = token :: rest) (kind_eq : token.kind = kind.tokenKind) :
    (Expr.literal token.span kind token.text).Accounts before before.tail :=
  .of_token scanned head (by rw [reading, kind_eq]) rfl

@[grind .]
theorem this (scanned : before.IsScanned) (head : before.rest = token :: rest)
    (kind_eq : token.kind = .word) (text_eq : token.text = "this")
    (uncalled : before.tail.isAt .openParen = false) :
    (Expr.this token.span).Accounts before before.tail :=
  .of_word scanned head kind_eq (text_eq ▸ le_rfl) (Cursor.takes_no_kind uncalled) rfl

@[grind .]
theorem super (scanned : before.IsScanned) (head : before.rest = token :: rest)
    (kind_eq : token.kind = .word) (text_eq : token.text = "super")
    (uncalled : before.tail.isAt .openParen = false) :
    (Expr.super token.span).Accounts before before.tail :=
  .of_word scanned head kind_eq (text_eq ▸ le_rfl) (Cursor.takes_no_kind uncalled) rfl

/-- The name of a primitive type and the bracket pairs behind it. -/
theorem name_pairs (scanned : before.IsScanned) (head : before.rest = token :: rest)
    (kind_eq : token.kind = .word) (primitive : isPrimitive token.text)
    (takes : before.tail.Takes loosePairs after) :
    (Expr.name (after.spanFrom token.span.start) token.text).Accounts before after := by
  have reachesOn := (Cursor.reachesOn_tail head).trans takes.reaches
  have shown := kind_eq ▸ Cursor.takes_shows head
  refine .of_takes ?_ (scanned.here_lt_behind reachesOn)
    (by rw [span, Cursor.here_eq_start head])
  rw [reading, if_pos primitive]
  exact shown.mul takes

@[grind .]
theorem name (scanned : before.IsScanned) (head : before.rest = token :: rest)
    (kind_eq : token.kind = .word) (free : isPrimitive token.text = false)
    (uncalled : before.tail.isAt .openParen = false) :
    (Expr.name token.span token.text).Accounts before before.tail := by
  refine .of_word scanned head kind_eq ?_ (Cursor.takes_no_kind uncalled) rfl
  rw [reading, if_neg (Bool.eq_false_iff.mp free)]

@[grind .]
theorem call {arguments : List Expr} (scanned : before.IsScanned)
    (head : before.rest = token :: rest) (kind_eq : token.kind = .word)
    (takes : before.tail.Takes (parens (readings arguments)) after) :
    (Expr.call (after.spanFrom token.span.start) ⟨token.text, token.span⟩ arguments).Accounts
      before after := by
  have reachesOn := (Cursor.reachesOn_tail head).trans takes.reaches
  have shown := kind_eq ▸ Cursor.takes_shows head
  exact .of_takes (shown.mul takes) (scanned.here_lt_behind reachesOn)
    (by rw [span, Cursor.here_eq_start head])

end Token

@[grind .]
theorem parenthesized {inner : Expr} (scanned : before.IsScanned) (found : before.isAt .openParen)
    (accounts : inner.WholeAccounts before.tail middle)
    (closes : middle.Takes (lacks (·.kind = .closeParen) + showsKinds [.closeParen]) after) :
    (Expr.parenthesized (after.spanFrom before.here) inner).Accounts before after := by
  have reachesOn := (Cursor.reachesOn_tail_of_isAt found).trans
    (accounts.reaches.trans closes.reaches)
  have opens : before.Takes (showsKinds [.openParen]) before.tail := Cursor.takes_showsKinds found
  exact .of_takes ((opens.mul accounts.takes_whole).mul closes)
    (scanned.here_lt_behind reachesOn) rfl

@[grind .]
theorem unary {op : UnaryOp} (scanned : before.IsScanned) (reachesOn : before.ReachesOn before.tail)
    (takes : before.Takes (showsKinds (op.lexemes.map (·.1))) before.tail)
    (accounts : operand.OperandAccounts before.tail after) :
    (Expr.unary (after.spanFrom before.here) op operand).Accounts before after :=
  .of_takes (takes.mul accounts.takes_operand)
    (scanned.here_lt_behind (reachesOn.trans accounts.reaches)) rfl

@[grind .]
theorem cast {type : TypeRef} (scanned : before.IsScanned) (opens : before.isAt .openParen)
    (takes : before.tail.Takes type.reading middle) (closes : middle.isAt .closeParen)
    (accounts : operand.WholeAccounts middle.tail after) :
    (Expr.cast (after.spanFrom before.here) type operand).Accounts before after := by
  have opening : before.Takes (showsKinds [.openParen]) before.tail := Cursor.takes_showsKinds opens
  have closing : middle.Takes (showsKinds [.closeParen]) middle.tail :=
    Cursor.takes_showsKinds closes
  have reachesOn := (Cursor.reachesOn_tail_of_isAt opens).trans
    (takes.reaches.trans (closing.reaches.trans accounts.reaches))
  exact .of_takes (((opening.mul takes).mul closing).mul accounts.takes_whole)
    (scanned.here_lt_behind reachesOn) rfl

/-- Type arguments in front of an operand are passed over. -/
theorem behind_typeArguments (takes : before.Takes (passes typeArguments) middle)
    (accounts : expr.Accounts middle after) (primary : expr.isPrimary) :
    expr.Accounts before after := by
  obtain ⟨first, last, leads, later⟩ := accounts
  rw [lead_of_isPrimary primary] at leads
  exact ⟨first, last, lead_of_isPrimary primary ▸ takes.mul_kstar leads, later⟩

end Accounts

namespace OperandAccounts

variable {expr : Expr} {before after : Cursor}

/-- An expression that is not in parentheses is no target of a cast. -/
theorem of_accounts (accounts : expr.Accounts before after) (bare : expr.isParenthesized = false) :
    expr.OperandAccounts before after :=
  ⟨accounts, fun found => absurd (bare.symm.trans found) Bool.false_ne_true⟩

@[grind .]
theorem missing {span : Span} (reaches : before.Reaches after) :
    (Expr.missing span).OperandAccounts before after :=
  .of_accounts (.missing reaches) rfl

@[grind .]
theorem unary {span : Span} {op : UnaryOp} {inner : Expr}
    (accounts : (Expr.unary span op inner).Accounts before after) :
    (Expr.unary span op inner).OperandAccounts before after :=
  .of_accounts accounts rfl

@[grind .]
theorem cast {span : Span} {type : TypeRef} {inner : Expr}
    (accounts : (Expr.cast span type inner).Accounts before after) :
    (Expr.cast span type inner).OperandAccounts before after :=
  .of_accounts accounts rfl

end OperandAccounts

namespace WholeAccounts

variable {expr : Expr} {before after : Cursor}

@[grind .]
theorem missing {span : Span} (reaches : before.Reaches after) :
    (Expr.missing span).WholeAccounts before after :=
  ⟨.missing reaches, nofun⟩

@[grind .]
theorem excerpt {span : Span} {kind : ExcerptKind}
    (accounts : (Expr.excerpt span kind).Accounts before after) :
    (Expr.excerpt span kind).WholeAccounts before after :=
  ⟨.of_accounts accounts rfl, nofun⟩

@[grind .]
theorem of_operand (accounts : expr.OperandAccounts before after)
    (no_lambda : before.isAtLambda = false) : expr.WholeAccounts before after :=
  ⟨accounts, fun _ => no_lambda⟩

end WholeAccounts

/-- Whether an expression that begins with an operand was read between two places, the operand
having been read before the first. -/
structure Continues (operand : Expr) (before : Cursor) (result : Expr) (after : Cursor) :
    Prop where
  reaches : before.Reaches after
  accounts : ∀ {origin : Cursor}, origin.IsScanned → operand.Accounts origin before →
    operand ≠ .missing operand.span → result.Accounts origin after
  found : operand ≠ .missing operand.span → result ≠ .missing result.span
  same : result.isParenthesized → result = operand

attribute [grind →] Continues.reaches Continues.accounts Continues.found

namespace Continues

variable {operand result : Expr} {before middle after : Cursor}

@[grind .]
theorem refl : operand.Continues before operand before :=
  ⟨.refl, fun _ accounts _ => accounts, id, fun _ => rfl⟩

theorem trans {further : Expr} (first : operand.Continues before result middle)
    (second : result.Continues middle further after) : operand.Continues before further after := by
  refine ⟨first.reaches.trans second.reaches, fun scanned accounts found =>
    second.accounts scanned (first.accounts scanned accounts found) (first.found found),
    fun found => second.found (first.found found), fun parens => ?_⟩
  have same := second.same parens
  exact same.trans (first.same (same ▸ parens))

/-- An operand that is gone on with is an operand. -/
@[grind →]
theorem operandAccounts {origin : Cursor} (continues : operand.Continues before result after)
    (scanned : origin.IsScanned) (accounts : operand.OperandAccounts origin before)
    (found : operand ≠ .missing operand.span) : result.OperandAccounts origin after :=
  ⟨continues.accounts scanned accounts.1 found, fun parens =>
    accounts.uncast (continues.same parens ▸ parens)⟩

/-- What follows a primary expression is passed over. -/
theorem skip (takes : before.Takes Fate.trail after) (primary : operand.isPrimary) :
    operand.Continues before operand after := by
  refine ⟨takes.reaches, ?_, id, fun _ => rfl⟩
  rintro origin - ⟨first, last, leads, reads, trails, found⟩ -
  rw [trail_of_isPrimary primary] at trails
  refine ⟨first, last, leads, reads, ?_, found⟩
  rw [trail_of_isPrimary primary, Fate.trail, ← kstar_mul_kstar]
  exact trails.mul takes

/-- What follows an operand makes it part of another expression. -/
theorem extend {language : Language Fate} (takes : before.Takes language after)
    (reading_eq : result.reading = operand.reading * operand.trail * language)
    (lead_le : operand.lead ≤ result.lead)
    (span_eq : result.span = after.spanFrom operand.span.start)
    (found : result ≠ .missing result.span)
    (bare : result.isParenthesized = false) : operand.Continues before result after := by
  refine ⟨takes.reaches, ?_, fun _ => found, fun parens =>
    absurd (bare.symm.trans parens) Bool.false_ne_true⟩
  rintro origin scanned ⟨first, last, leads, reads, trails, spanned⟩ some
  obtain ⟨operand_span, start_lt⟩ := spanned.resolve_left some
  have onward := leads.reaches.trans reads.reaches
  have behind_le := (scanned.reaches onward).behind_le (trails.reaches.trans takes.reaches)
  have start_lt := Nat.lt_of_lt_of_le start_lt behind_le
  refine ⟨first, after, leads.mono lead_le, ?_, .refl (nil_mem_trail _), .inr ⟨?_, start_lt⟩⟩
  · rw [reading_eq]
    exact (reads.mul trails).mul takes
  · rw [span_eq, operand_span, Cursor.spanFrom_of_lt start_lt]

/-- A selection that no word follows is lost. -/
theorem skip_dot (takes : before.Takes looseDot after) (primary : operand.isPrimary) :
    operand.Continues before operand after :=
  skip (takes.inl.mul_kstar (.refl (Language.nil_mem_kstar _))) primary

theorem skip_pairs (takes : before.Takes loosePairs after) (primary : operand.isPrimary) :
    operand.Continues before operand after :=
  skip (takes.inr.mul_kstar (.refl (Language.nil_mem_kstar _))) primary

section Selection

variable {token : Token} {rest : List Token}

@[grind .]
theorem fieldAccess (found : before.isAt .dot)
    (skips : before.tail.Takes (1 + passes typeArguments) middle)
    (head : middle.rest = token :: rest) (kind_eq : token.kind = .word)
    (uncalled : middle.tail.isAt .openParen = false) :
    operand.Continues before (.fieldAccess (middle.tail.spanFrom operand.span.start) operand
      ⟨token.text, token.span⟩) middle.tail := by
  have shown := kind_eq ▸ Cursor.takes_shows head
  have ends := Cursor.takes_no_kind uncalled
  refine extend (((Cursor.takes_dot found skips).mul shown).mul ends) ?_ operand.lead_le rfl nofun
    rfl
  simp only [reading, mul_assoc]

@[grind .]
theorem memberCall {arguments : List Expr} (found : before.isAt .dot)
    (skips : before.tail.Takes (1 + passes typeArguments) middle)
    (head : middle.rest = token :: rest) (kind_eq : token.kind = .word)
    (takes : middle.tail.Takes (parens (readings arguments)) after) :
    operand.Continues before (.memberCall (after.spanFrom operand.span.start) operand
      ⟨token.text, token.span⟩ arguments) after := by
  have shown := kind_eq ▸ Cursor.takes_shows head
  refine extend (((Cursor.takes_dot found skips).mul shown).mul takes) ?_ operand.lead_le rfl nofun
    rfl
  simp only [reading, mul_assoc]

end Selection

/-- A closing bracket that is missing is shown all the same. -/
@[grind .]
theorem arrayAccess {index : Expr} (found : before.isAt .openBracket)
    (accounts : index.WholeAccounts before.tail middle)
    (closes : middle.Takes (showsKinds [.closeBracket] + supplies .closeBracket "]") after) :
    operand.Continues before (.arrayAccess (after.spanFrom operand.span.start) operand index)
      after := by
  have opens : before.Takes (showsKinds [.openBracket]) before.tail := Cursor.takes_showsKinds found
  refine extend ((opens.mul accounts.takes_whole).mul closes) ?_ operand.lead_le rfl nofun rfl
  simp only [reading, mul_assoc]

@[grind .]
theorem update {op : UpdateOp} (takes : before.Takes (showsKinds (op.lexemes.map (·.1))) after) :
    operand.Continues before (.update (after.spanFrom operand.span.start) op operand) after :=
  extend takes rfl operand.lead_le rfl nofun rfl

@[grind .]
theorem binary {op : BinaryOp} {right : Expr}
    (takes : before.Takes (showsKinds (op.lexemes.map (·.1))) middle)
    (accounts : right.OperandAccounts middle after) :
    operand.Continues before (.binary (after.spanFrom operand.span.start) op operand right)
      after := by
  refine extend (takes.mul accounts.takes_operand) ?_ le_rfl rfl nofun rfl
  simp only [reading, mul_assoc]

@[grind .]
theorem assignment {op : AssignOp} {value : Expr}
    (takes : before.Takes (showsKinds (op.lexemes.map (·.1))) middle)
    (accounts : value.WholeAccounts middle after) :
    operand.Continues before (.assignment (after.spanFrom operand.span.start) op operand value)
      after := by
  refine extend (takes.mul accounts.takes_whole) ?_ le_rfl rfl nofun rfl
  simp only [reading, mul_assoc]

/-- A colon that is missing is shown all the same. -/
@[grind .]
theorem conditional {whenTrue whenFalse : Expr} {later : Cursor} (found : before.isAt .question)
    (accounts : whenTrue.WholeAccounts before.tail middle)
    (colon : middle.Takes (showsKinds [.colon] + supplies .colon ":") later)
    (accounts' : whenFalse.WholeAccounts later after) :
    operand.Continues before
      (.conditional (after.spanFrom operand.span.start) operand whenTrue whenFalse) after := by
  have question : before.Takes (showsKinds [.question]) before.tail := Cursor.takes_showsKinds found
  refine extend (((question.mul accounts.takes_whole).mul colon).mul accounts'.takes_whole) ?_
    le_rfl rfl nofun rfl
  simp only [reading, mul_assoc]

/-- A type test, with the parts of a record pattern passed over. -/
@[grind .]
theorem instanceOf {type : TypeRef} {binding : Option String} {first last later : Cursor}
    (found : before.isAtWord "instanceof")
    (marked : before.tail.Takes (1 + passes (ofWord "final")) first)
    (read : first.Takes type.whole last) (parts : last.Takes passedGroup later)
    (bound : later.Takes ((binding.map (shows .word)).getD (lacks (·.isName))) after) :
    operand.Continues before (.instanceOf (after.spanFrom operand.span.start) operand type binding)
      after := by
  refine extend (((((Cursor.takes_word found).mul marked).mul read).mul parts).mul bound) ?_ le_rfl
    rfl nofun rfl
  simp only [reading, mul_assoc]

end Continues

/-- Whether an expression begins behind type arguments at one place and a token of it was read in
front of another. -/
def BeginsAt (expr : Expr) (origin place : Cursor) : Prop :=
  ∃ first, origin.Takes Fate.lead first ∧ first.Reaches place ∧ expr.span.start = first.here ∧
    first.here < place.behind

/-- Whether an operand accounts for the tokens between two places, or a method reference goes on
with it. -/
def Held (operand : Expr) (origin place : Cursor) : Prop :=
  operand.Accounts origin place ∨ place.isAt .doubleColon ∧ operand.BeginsAt origin place

section Held

variable {operand result : Expr} {origin before after : Cursor}

@[grind .]
theorem Accounts.held (accounts : operand.Accounts origin after) : operand.Held origin after :=
  .inl accounts

theorem BeginsAt.onward (begins : operand.BeginsAt origin before) (scanned : origin.IsScanned)
    (reaches : before.Reaches after) : operand.BeginsAt origin after := by
  obtain ⟨first, leads, onward, start_eq, start_lt⟩ := begins
  have scanned' := scanned.reaches (leads.reaches.trans onward)
  exact ⟨first, leads, onward.trans reaches, start_eq,
    Nat.lt_of_lt_of_le start_lt (scanned'.behind_le reaches)⟩

/-- An operand with what follows it is copied. -/
theorem BeginsAt.copy {P : List Token → List Token → Prop} (begins : operand.BeginsAt origin before)
    (scanned : origin.IsScanned) (crosses : before.Crosses P after)
    (append : ∀ front read, P read after.rest → P (front ++ read) after.rest)
    (span_eq : result.span = after.spanFrom operand.span.start)
    (reading_eq : result.reading = upTo (copies result.span) P) (primary : result.isPrimary) :
    result.Accounts origin after := by
  obtain ⟨first, leads, onward, start_eq, start_lt⟩ := begins
  have scanned' := scanned.reaches leads.reaches
  have start_lt := Nat.lt_of_lt_of_le start_lt
    ((scanned'.reaches onward).behind_le crosses.reaches)
  have span_eq : result.span = ⟨first.here, after.behind⟩ := by
    rw [span_eq, start_eq, Cursor.spanFrom_of_lt start_lt]
  refine ⟨first, after, (lead_of_isPrimary primary).symm ▸ leads, ?_, .refl (nil_mem_trail _),
    .inr ⟨span_eq, start_lt⟩⟩
  rw [reading_eq, span_eq]
  exact scanned'.takes_copies (.behind onward crosses append) start_lt

theorem Accounts.beginsAt (accounts : operand.Accounts origin before) (scanned : origin.IsScanned)
    (found : operand ≠ .missing operand.span) : operand.BeginsAt origin before := by
  obtain ⟨first, last, leads, reads, trails, missing | ⟨span_eq, start_lt⟩⟩ := accounts
  · exact absurd missing found
  have begins : operand.BeginsAt origin last :=
    ⟨first, leads.mono operand.lead_le, reads.reaches, by rw [span_eq], start_lt⟩
  exact begins.onward scanned trails.reaches

namespace Continues

theorem copy {P : List Token → List Token → Prop} (crosses : before.Crosses P after)
    (append : ∀ front read, P read after.rest → P (front ++ read) after.rest)
    (span_eq : result.span = after.spanFrom operand.span.start)
    (reading_eq : result.reading = upTo (copies result.span) P) (primary : result.isPrimary)
    (bare : result.isParenthesized = false) : operand.Continues before result after :=
  ⟨crosses.reaches, fun scanned accounts some =>
    (accounts.beginsAt scanned some).copy scanned crosses append span_eq reading_eq primary,
    fun _ => ne_missing_of_isPrimary primary,
    fun parens => absurd (bare.symm.trans parens) Bool.false_ne_true⟩

@[grind .]
theorem excerpt {kind : ExcerptKind} (crosses : before.Crosses kind.IsWhole after)
    (follows : kind.follows) :
    operand.Continues before (.excerpt (after.spanFrom operand.span.start) kind) after :=
  copy crosses (fun front _ => ExcerptKind.IsWhole.append follows front) rfl rfl
    (isPrimary_of_follows follows) rfl

end Continues

@[grind →]
theorem Held.reaches (held : operand.Held origin after) : origin.Reaches after := by
  rcases held with accounts | ⟨-, first, leads, onward, -⟩
  · exact accounts.reaches
  · exact leads.reaches.trans onward

theorem Held.beginsAt (held : operand.Held origin before) (scanned : origin.IsScanned)
    (found : operand ≠ .missing operand.span) : operand.BeginsAt origin before :=
  held.elim (fun accounts => accounts.beginsAt scanned found) And.right

theorem Held.accounts (held : operand.Held origin before)
    (away : before.isAt .doubleColon = false) : operand.Accounts origin before :=
  held.resolve_right fun waits => Bool.false_ne_true (away.symm.trans waits.1)

/-- Type arguments in front of an operand are passed over. -/
theorem Held.behind_typeArguments (takes : origin.Takes (passes typeArguments) before)
    (held : operand.Held before after) (primary : operand.isPrimary) :
    operand.Held origin after := by
  rcases held with accounts | ⟨waits, first, leads, later⟩
  · exact .inl (accounts.behind_typeArguments takes primary)
  · exact .inr ⟨waits, first, takes.mul_kstar leads, later⟩

/-- A name and the bracket pairs behind it, which may begin a method reference. -/
theorem Held.name_pairs {token : Token} {rest : List Token} (scanned : before.IsScanned)
    (head : before.rest = token :: rest) (kind_eq : token.kind = .word)
    (primitive : isPrimitive token.text) (pairs : before.tail.PassesPairs after)
    (no_literal : ¬(after.isAt .dot && after.isWordAhead 1 "class") = true) :
    (Expr.name (after.spanFrom token.span.start) token.text).Held before after := by
  cases waits : after.isAt .doubleColon with
  | false =>
      have lost := pairs.takes_loosePairs no_literal waits
      exact .inl (.name_pairs scanned head kind_eq primitive lost)
  | true =>
      have reachesOn := (Cursor.reachesOn_tail head).trans pairs.1
      exact .inr ⟨waits, before, .refl (Language.nil_mem_kstar _), reachesOn.reaches,
        (Cursor.here_eq_start head).symm, scanned.here_lt_behind reachesOn⟩

end Held

/-- Whether reading what follows a primary expression goes on with it to another. -/
def ContinuesPrimary (operand : Expr) (before : Cursor) (result : Expr) (after : Cursor) : Prop :=
  operand.Continues before result after ∧ result.isPrimary

attribute [grind =] ContinuesPrimary

/-- Whether reading what follows a primary expression goes on with it or ends in front of the colons
of a method reference. -/
def Awaits (operand : Expr) (before : Cursor) (result : Expr) (after : Cursor) : Prop :=
  operand.ContinuesPrimary before result after ∨
    result = operand ∧ before.Reaches after ∧ after.isAt .doubleColon

/-- Bracket pairs are lost, unless a method reference follows. -/
theorem Awaits.pairs {operand : Expr} {before after : Cursor} (primary : operand.isPrimary)
    (pairs : before.PassesPairs after)
    (no_literal : ¬(after.isAt .dot && after.isWordAhead 1 "class") = true) :
    operand.Awaits before operand after := by
  cases waits : after.isAt .doubleColon with
  | false =>
      have lost := pairs.takes_loosePairs no_literal waits
      exact .inl ⟨.skip_pairs lost primary, primary⟩
  | true => exact .inr ⟨rfl, pairs.1, waits⟩

/-- Whether reading a selector behind an operand, if there is one, leads from one place to another:
a method reference is copied, and another selector goes on with the operand. -/
def Selects (operand : Expr) (before : Cursor) (result : Option Expr) (after : Cursor) : Prop :=
  before.isAt .doubleColon ∧ before.Crosses ExcerptKind.methodReference.IsWhole after ∧
      result = some (.excerpt (after.spanFrom operand.span.start) .methodReference) ∨
    before.isAt .doubleColon = false ∧ operand.ContinuesPrimary before (result.getD operand) after ∨
    result = some operand ∧ before.Reaches after ∧ after.isAt .doubleColon

theorem Selects.held {operand : Expr} {result : Option Expr} {origin before after : Cursor}
    (selects : operand.Selects before result after) (scanned : origin.IsScanned)
    (held : operand.Held origin before) (primary : operand.isPrimary) :
    (result = none → operand.Accounts origin after) ∧
      ∀ selected, result = some selected → selected.Held origin after ∧ selected.isPrimary := by
  have found := ne_missing_of_isPrimary primary
  have begins := held.beginsAt scanned found
  obtain ⟨-, crosses, rfl⟩ | ⟨away, continues, primary'⟩ | ⟨rfl, reaches, waits⟩ := selects
  · refine ⟨nofun, ?_⟩
    rintro _ ⟨rfl⟩
    have copied : (excerpt (after.spanFrom operand.span.start) .methodReference).Accounts origin
        after := begins.copy scanned crosses
      (fun front _ => ExcerptKind.IsWhole.append rfl front) rfl rfl rfl
    exact ⟨.inl copied, rfl⟩
  · have accounts := continues.accounts scanned (held.accounts away) found
    cases result with
    | none => exact ⟨fun _ => accounts, nofun⟩
    | some result => exact ⟨nofun, fun _ same => Option.some.inj same ▸ ⟨.inl accounts, primary'⟩⟩
  · refine ⟨nofun, ?_⟩
    rintro _ ⟨rfl⟩
    exact ⟨.inr ⟨waits, begins.onward scanned reaches⟩, primary⟩

end Expr

/-- An allocation, inside an instance if one is given. -/
def Expr.allocated (outer : Option Expr) (span : Span) (type : TypeRef) (arguments : List Expr)
    (body : Option Span) : Expr :=
  match outer with
  | none => .creation span type arguments body
  | some outer => .innerCreation span outer type arguments body

/-- Whether what was read between two places, if anything was, is read as its readings say. -/
def Accounted? : Option Expr → Cursor → Cursor → Prop
  | none, before, after => before.Reaches after
  | some expr, before, after => expr.WholeAccounts before after

attribute [grind =] Accounted?

/-- Whether what was read between two places, if anything was, is an operand that is read as its
readings say. -/
def OperandAccounted? : Option Expr → Cursor → Cursor → Prop
  | none, before, after => before.Reaches after
  | some operand, before, after =>
    operand.OperandAccounts before after ∧ operand ≠ .missing operand.span

attribute [grind =] OperandAccounted?

/-- Whether what was read between two places, if anything was, is an operand that selectors may
follow. -/
def OperandHeld? : Option Expr → Cursor → Cursor → Prop
  | none, before, after => before.Reaches after
  | some operand, before, after => operand.Held before after ∧ operand.isPrimary

attribute [grind =] OperandHeld?
attribute [grind .] Expr.Held.name_pairs Expr.Awaits.pairs

namespace Cursor

/-- Whether no argument begins at a place, because it is at the end of the tokens or at a closing
parenthesis. -/
def endsArguments (cursor : Cursor) : Bool :=
  cursor.atEnd || cursor.isAt .closeParen

/-- No arguments are left where they end. -/
theorem Takes.endsArguments {cursor : Cursor} (ends : cursor.endsArguments) :
    cursor.Takes (Expr.readings []) cursor :=
  .lacks fun next found other => by
    obtain ⟨later, rest_eq⟩ := List.head?_eq_some_iff.mp found
    simp [Cursor.endsArguments, atEnd, isAt, rest_eq, other] at ends

/-- Whether a closing brace or bracket comes next. -/
def isAtClosing (cursor : Cursor) : Bool :=
  cursor.isAt .closeBrace || cursor.isAt .closeBracket

/-- Whether going on from the end of an argument leads from one place to another: a comma is read,
or there is none where arguments end or a bracket without partner is closed. -/
def Separates (before after : Cursor) : Prop :=
  before.isAt .comma ∧ after = before.tail ∨
    after = before ∧ (before.endsArguments ∨ before.isAtClosing)

theorem Separates.reaches {before after : Cursor} (separates : before.Separates after) :
    before.Reaches after := by
  rcases separates with ⟨-, rfl⟩ | ⟨rfl, -⟩
  · exact .tail .refl
  · exact .refl

theorem separates_of_accepted {before after : Cursor} {accepted : Bool}
    (stops : ∀ token ∈ before.rest.head?,
      token.kind ∈ [.comma, .closeParen, .closeBrace, .closeBracket])
    (accepts : accepted = before.isAt .comma ∧ after = if accepted then before.tail else before) :
    before.Separates after := by
  obtain ⟨rfl, rfl⟩ := accepts
  obtain ⟨rest, behind⟩ := before
  cases rest with
  | nil => exact .inr ⟨rfl, .inl rfl⟩
  | cons token rest =>
      have stops := stops token rfl
      simp only [Separates, endsArguments, isAtClosing, isAt, List.head?_cons, Option.any_some]
      grind -ring -linarith

end Cursor

/-- Whether skipping what belongs to no argument leads from one place to another. -/
def Cursor.Strays (before after : Cursor) : Prop :=
  before.Reaches after ∧ ∃ run ∈ stray, before.rest = run ++ after.rest

theorem Cursor.Strays.refl (cursor : Cursor) : cursor.Strays cursor :=
  ⟨.refl, [], fun _ _ _ append_eq => by simp at append_eq, rfl⟩

/-- Whether some arguments may have been read from a place on: none exactly where arguments end, and
a missing one first at a bracket without partner. -/
def StartsAt (before : Cursor) (arguments : List Expr) : Prop :=
  (before.endsArguments ↔ arguments = []) ∧
    (before.isAtClosing → ∀ first ∈ arguments.head?, ∃ span, first = .missing span)

/-- No arguments are read where they end. -/
theorem StartsAt.nil {before : Cursor} (ends : before.endsArguments) : StartsAt before [] :=
  ⟨iff_of_true ends rfl, fun _ => nofun⟩

theorem Cursor.Separates.takes_comma {before after : Cursor} {arguments : List Expr}
    (separates : before.Separates after) (starts : StartsAt after arguments) :
    before.Takes (Expr.comma arguments) after := by
  rcases separates with ⟨found, rfl⟩ | ⟨rfl, ends⟩
  · have shown : before.Takes (showsKinds [.comma]) before.tail := Cursor.takes_showsKinds found
    cases arguments with
    | nil =>
        obtain ⟨_ | ⟨comma, rest⟩, behind⟩ := before
        · cases found
        have kind_eq : comma.kind = .comma := by simpa [Cursor.isAt] using found
        have member : [comma] ∈ ofKinds [.comma] := congrArg (fun kind => [kind]) kind_eq
        have ends := starts.1.mpr rfl
        refine .inr (.lost (.tail .refl) member rfl ?_)
        rintro token token_eq
        have token_eq : rest.head? = some token := token_eq
        obtain ⟨later, rfl⟩ := List.head?_eq_some_iff.mp token_eq
        simpa [Cursor.endsArguments, Cursor.atEnd, Cursor.isAt, Cursor.tail] using ends
    | cons first _ =>
        cases first with
        | missing => exact shown.inr
        | _ => exact shown
  · cases arguments with
    | nil => exact .nothing
    | cons first _ =>
        rcases ends with ends | closing
        · cases starts.1.mp ends
        · obtain ⟨span, rfl⟩ := starts.2 closing first rfl
          exact .nothing

/-- Whether what was read between two places, if anything was, is an argument with what separates
it from the next one. -/
def ArgumentRead? : Option Expr → Cursor → Cursor → Prop
  | none, before, after => after = before ∧ before.endsArguments
  | some argument, before, after => StartsAt before [argument] ∧
    ∃ middle, before.Takes (argument.argument argument.reading) middle ∧ middle.Separates after

/-- Whether the grammar reads an expression from one place to another and its tokens end there. -/
def Expr.Ends (expr : Expr) (before after : Cursor) : Prop :=
  Parser.expr before = (some expr, after) ∧
    ∀ read, before.rest = read ++ after.rest → ¬expr.GoesOn read after.rest

theorem argumentRead?_of_accounts {argument : Expr} {before last middle after : Cursor}
    (more : ¬before.endsArguments = true)
    (at_closing : before.isAtClosing → ∃ span, argument = .missing span)
    (accounts : argument.WholeAccounts before last)
    (ends : argument = .missing argument.span ∨ argument.Ends before last)
    (strays : last.Strays middle) (separates : middle.Separates after) :
    ArgumentRead? (some argument) before after := by
  refine ⟨⟨iff_of_false more (List.cons_ne_nil _ _), ?_⟩, middle, ?_, separates⟩
  · rintro closing _ ⟨rfl⟩
    exact at_closing closing
  obtain ⟨reaches, read, read_mem, rest_eq, before_last⟩ := accounts.takes_whole
  obtain ⟨reaches', run, run_mem, rest_eq'⟩ := strays
  have later : Fate.tokens (Fate.lostBefore run middle.rest) ++ middle.rest = last.rest := by
    rw [Fate.tokens_lostBefore, rest_eq']
  refine ⟨reaches.trans reaches', read ++ Fate.lostBefore run middle.rest,
    ⟨read, read_mem, _, ⟨run, run_mem, middle.rest, .inr (ends.imp_right ?_), rfl⟩, rfl⟩, ?_,
    Fate.before_append.mpr ⟨later ▸ before_last, Fate.before_lostBefore _ _⟩⟩
  · rintro ⟨parsed, stops⟩
    rw [← rest_eq']
    exact ⟨⟨before, last, parsed, rest_eq, rfl⟩, stops _ rest_eq⟩
  · rw [rest_eq, Fate.tokens_append, List.append_assoc, later]

end JavaOutline
