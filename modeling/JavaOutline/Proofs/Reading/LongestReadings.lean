import Mathlib
import JavaOutline.Proofs.Reading.Endings

/-!
# The grammar reads expressions as far as they go

Each rule of the grammar of expressions ends where nothing goes on with what it has read. The rules
take the rules below them as given, and the claim for all of them follows by induction on how deep
expressions may nest.
-/

set_option mvcgen.warning false

open Std.Do
open scoped Computability

namespace JavaOutline

open Fate (showsKinds)
open LabelEnds (isAt_arrow_of_isAtLambda)

namespace Cursor

variable {origin before after : Cursor}

/-! ## What skipping ends with -/

theorem lastRead_afterBalanced (opening closing : TokenKind) {depth behind : Nat}
    {rest : List Token} (reaches : origin.Reaches ⟨rest, behind⟩) :
    LastRead (fun last rest => last.kind = closing ∨ rest = []) origin
      (afterBalanced opening closing (depth + 1) behind rest) := by
  induction rest generalizing depth behind with
  | nil => exact .of_nil reaches rfl fun _ => .inr rfl
  | cons token rest induction =>
      have onward : origin.Reaches ⟨rest, token.span.stop⟩ := reaches.tail
      rw [afterBalanced]
      split
      · exact induction onward
      · split
        · next closes =>
          cases depth with
          | zero =>
              rw [afterBalanced]
              exact .tail reaches rfl (.inl closes)
          | succ depth => exact induction onward
        · exact induction onward

theorem lastRead_afterTypeArguments? {depth behind : Nat} {rest : List Token}
    (reaches : origin.Reaches ⟨rest, behind⟩)
    (found : afterTypeArguments? (depth + 1) behind rest = some after) :
    LastRead (fun last _ => last.kind = .greater) origin after := by
  induction rest generalizing depth behind with
  | nil => cases found
  | cons token rest induction =>
      have onward : origin.Reaches ⟨rest, token.span.stop⟩ := reaches.tail
      rw [afterTypeArguments?] at found
      split at found
      · exact induction onward found
      · next closes =>
        cases depth with
        | zero =>
            rw [afterTypeArguments?] at found
            obtain rfl := Option.some.inj found
            exact .tail reaches rfl closes
        | succ depth => exact induction onward found
      · split at found
        · exact induction onward found
        · cases found

theorem lastRead_afterBrackets (behind : Nat) (rest : List Token) :
    LastRead (fun last _ => last.kind = .closeBracket) ⟨rest, behind⟩
      (afterBrackets behind rest).2 := by
  fun_induction afterBrackets behind rest with
  | case1 behind token closing rest found pairs cursor after_eq induction =>
      rw [after_eq] at induction
      have closes : closing.kind = .closeBracket := by simp_all
      have pair : LastRead (fun last _ => last.kind = .closeBracket)
          ⟨token :: closing :: rest, behind⟩ ⟨rest, closing.span.stop⟩ :=
        @LastRead.tail _ ⟨closing :: rest, token.span.stop⟩ _ _ _ (.tail .refl) rfl closes
      exact pair.trans induction
  | case2 | case3 => exact .refl

theorem loosely_of_takes {kinds : List TokenKind} (some_kinds : kinds ≠ [])
    (others : ∀ kind ∈ kinds, kind.endsOperand = false ∧ kind ≠ .closeBrace)
    (takes : before.Takes (showsKinds kinds) after) :
    before.ReachesOn after ∧ before.Loosely after := by
  obtain ⟨reaches, _, ⟨tokens, kinds_eq, rfl⟩, rest_eq, -⟩ := takes
  rw [Fate.tokens_map_shown] at rest_eq
  have kinds_eq := Fate.mem_ofKinds.mp kinds_eq
  obtain ⟨first, more, rfl⟩ : ∃ first more, tokens = first :: more := by
    refine List.exists_cons_of_ne_nil ?_
    rintro rfl
    exact some_kinds kinds_eq.symm
  refine ⟨?_, reaches, fun read rest_eq' last found => ?_⟩
  · rcases reaches.eq_or_tail with rfl | later
    · exact absurd (List.self_eq_append_left.mp rest_eq) (List.cons_ne_nil _ _)
    · exact (reachesOn_tail rest_eq).trans later
  · obtain rfl := List.append_cancel_right (rest_eq.symm.trans rest_eq')
    exact others _ (kinds_eq ▸ List.mem_map_of_mem (List.mem_of_getLast? found))

theorem loosely_tail {kind : TokenKind} (found : before.isAt kind)
    (other : kind.endsOperand = false ∧ kind ≠ .closeBrace) : before.Loosely before.tail :=
  .of_isAt .refl found fun _ _ kind_eq => kind_eq ▸ other

@[grind →]
theorem loosely_binaryOp? {op : BinaryOp} {width : Nat}
    (found : before.binaryOp? = some (op, width)) :
    before.ReachesOn (Parser.advance width before).2 ∧
      before.Loosely (Parser.advance width before).2 :=
  loosely_of_takes (by cases op <;> decide) (by cases op <;> decide) (takes_binaryOp? found)

@[grind →]
theorem loosely_assignOp? {op : AssignOp} {width : Nat}
    (found : before.assignOp? = some (op, width)) :
    before.ReachesOn (Parser.advance width before).2 ∧
      before.Loosely (Parser.advance width before).2 :=
  loosely_of_takes (by cases op <;> decide) (by cases op <;> decide) (takes_assignOp? found)

@[grind →]
theorem loosely_unaryOp? {op : UnaryOp} (found : before.unaryOp? = some op) :
    before.Loosely before.tail :=
  (loosely_of_takes (by cases op <;> decide) (by cases op <;> decide) (takes_unaryOp? found)).2

@[grind →]
theorem loosely_updateOp? {op : UpdateOp} (found : before.updateOp? = some op) :
    before.Loosely before.tail :=
  (loosely_of_takes (by cases op <;> decide) (by cases op <;> decide) (takes_updateOp? found)).2

@[grind →]
theorem shut_of_reserved {token : Token} {rest : List Token} (head : before.rest = token :: rest)
    (reserved : isReserved token.text) : before.Shut before.tail :=
  .tail .refl head (.inl (Token.isName_of_reserved reserved))

/-- The word at the end of a class literal is reserved. -/
theorem shut_classLiteral (found : (before.isAt .dot && before.isWordAhead 1 "class") = true) :
    before.Shut (Parser.advance 2 before).2 ∧ before.ReachesOn (Parser.advance 2 before).2 := by
  obtain ⟨dotted, is_class⟩ := Bool.and_eq_true_iff.mp found
  obtain ⟨_ | ⟨dot, _ | ⟨word, rest⟩⟩, behind⟩ := before
  · cases dotted
  · cases is_class
  obtain ⟨-, text_eq⟩ : word.kind = .word ∧ word.text = "class" := by
    simpa [isWordAhead, ahead?, Token.isWord] using is_class
  refine ⟨@LastRead.tail _ ⟨word :: rest, dot.span.stop⟩ _ _ _ (.tail .refl) rfl (.inl ?_), ?_⟩
  · exact Token.isName_of_reserved (by rw [text_eq]; decide)
  · exact (reachesOn_tail_of_isAt dotted).trans (.tail .refl)

/-! ## What may go on with an expression -/

/-- Whether a binary operator or a type test comes next. -/
def AtBinary (cursor : Cursor) : Prop :=
  cursor.binaryOp?.isSome ∨ cursor.isAtWord "instanceof"

/-- Whether an operator of a conditional expression or one that binds tighter comes next. -/
def AtConditional (cursor : Cursor) : Prop :=
  cursor.AtBinary ∨ cursor.isAt .question

/-- Whether an operator between two operands comes next. -/
def AtAssignment (cursor : Cursor) : Prop :=
  cursor.AtConditional ∨ cursor.assignOp?.isSome

theorem not_atAssignment_of_nil (none : before.rest = []) : ¬before.AtAssignment := by
  simp [AtAssignment, AtConditional, AtBinary, binaryOp?, assignOp?, isAtWord, isAt, kindAhead?,
    ahead?, none]

/-- Behind an angle bracket, what would make an operator of comparison of it makes an assignment. -/
theorem binaryOp?_or_assignOp? (found : before.kindAhead? 0 = some .greater) :
    before.binaryOp?.isSome ∨ before.assignOp?.isSome := by
  simp only [binaryOp?, assignOp?, found]
  grind -ring -linarith [isAhead_singleton]

theorem atAssignment_of_beginsOperator {kind : TokenKind} (found : before.kindAhead? 0 = some kind)
    (begins : kind.beginsOperator) : before.AtAssignment := by
  by_cases greater : kind = .greater
  · subst greater
    exact (binaryOp?_or_assignOp? found).elim (fun found => .inl (.inl (.inl found))) .inr
  · cases kind <;> first | exact absurd rfl greater | cases begins <;> done | skip
    all_goals simp [AtAssignment, AtConditional, AtBinary, binaryOp?, assignOp?, isAt_iff, found]

theorem atAssignment_of_isOperator {next : Token} (found : before.rest.head? = some next)
    (operator : next.isOperator) : before.AtAssignment := by
  obtain ⟨_ | ⟨token, rest⟩, behind⟩ := before
  · cases found
  obtain rfl : token = next := Option.some.inj found
  rcases Bool.or_eq_true_iff.mp operator with begins | is_word
  · exact atAssignment_of_beginsOperator rfl begins
  · exact .inl (.inl (.inr is_word))

end Cursor

/-- Where no operator goes on with an expression, no token does. -/
theorem Expr.Stops.not_goesOn {expr : Expr} {before after : Cursor}
    (stops : expr.Stops Cursor.AtAssignment before after) {read : List Token}
    (rest_eq : before.rest = read ++ after.rest) : ¬expr.GoesOn read after.rest := by
  rintro ⟨last, last_eq, next, next_eq, goes_on⟩
  have behind := stops.2 read rest_eq last last_eq
  rcases goes_on with ⟨ends, operator⟩ | ⟨ends, selector, untested⟩ |
    ⟨ends, update, untested, no_lambda⟩ | ⟨identifier, opens, called⟩
  · exact behind.operator ends (Cursor.atAssignment_of_isOperator next_eq operator)
  · exact untested (behind.selector ends (by rw [next_eq]; exact selector))
  · have found : after.updateOp?.isSome := by
      obtain ⟨rest, rest_eq⟩ := List.head?_eq_some_iff.mp next_eq
      have kind_eq : after.kindAhead? 0 = some next.kind := by
        simp [Cursor.kindAhead?, Cursor.ahead?, rest_eq]
      cases kind : next.kind <;> rw [kind] at update <;> cases update <;>
        simp [Cursor.updateOp?, kind_eq, kind]
    exact (behind.update ends found).elim untested no_lambda
  · have found : after.isAt .openParen := by
      rw [Cursor.isAt, next_eq]
      exact decide_eq_true opens
    obtain ⟨unnamed, hides⟩ := behind.call identifier found
    rcases called with named | ⟨-, plain⟩
    · exact absurd (unnamed.symm.trans named) Bool.false_ne_true
    · exact plain hides

namespace Expr.Stops

variable {origin before middle later after : Cursor}

/-- A body in braces ends a lambda or is an array initializer. -/
@[grind .]
theorem braced {span : Span} {kind : ExcerptKind} (reaches : before.Reaches middle)
    (reachesOn : middle.ReachesOn after) (braced : middle.Braced after)
    (in_body : kind = .lambda ∨ kind = .arrayInitializer) :
    (Expr.excerpt span kind).Stops Cursor.AtAssignment before after := by
  refine .of_braced (.of_reaches reaches reachesOn) (.widen reaches reachesOn braced) ?_
    Cursor.not_atAssignment_of_nil
  rcases in_body with rfl | rfl <;> rfl

@[grind .]
theorem lambda {span : Span} {body : Expr} (reaches : before.Reaches middle)
    (stops : body.Stops Cursor.AtAssignment middle after) :
    (Expr.excerpt span .lambda).Stops Cursor.AtAssignment before after :=
  (stops.opened rfl).widen reaches rfl

/-- Where the body of a lambda is missing, the arrow is the last token read. -/
@[grind .]
theorem arrow {span : Span} (reaches : before.Reaches middle) (found : middle.isAt .arrow)
    (loosely : middle.tail.Loosely after) :
    (Expr.missing span).Stops Cursor.AtAssignment before after := by
  have arrow : before.Loosely middle.tail :=
    .of_isAt reaches found fun _ _ kind_eq => by rw [kind_eq]; decide
  refine .of_loosely ?_ (arrow.trans loosely)
  exact .of_reaches reaches ((Cursor.reachesOn_tail_of_isAt found).trans loosely.reaches)

/-- Where a colon is missing and nothing stands behind it, what was read in front of it ends the
expression. -/
theorem conditional {span : Span} {condition whenTrue whenFalse : Expr}
    (reaches : origin.Reaches before) (found : before.isAt .question)
    (part : whenTrue.StopsOrMissing Cursor.AtAssignment before.tail middle)
    (colon : middle.Passes .colon later)
    (part' : whenFalse.StopsOrMissing Cursor.AtConditional later after) :
    (Expr.conditional span condition whenTrue whenFalse).Stops Cursor.AtConditional origin
      after := by
  have question : before.Loosely before.tail := Cursor.loosely_tail found (by decide)
  have questioned := Cursor.reachesOn_tail_of_isAt found
  rcases part' with stops | ⟨missing, loosely⟩
  · have onward := questioned.reaches.trans (part.reaches.trans colon.reaches)
    exact stops.widen (reaches.trans onward) rfl
  have opened : (Expr.conditional span condition whenTrue whenFalse).endsOpen := by
    rw [missing]
    rfl
  have loosely : middle.Loosely after := by
    rcases colon with rfl | ⟨found, rfl⟩
    · exact loosely
    · exact (Cursor.loosely_tail found (by decide)).trans loosely
  rcases part with stops | ⟨-, loosely'⟩
  · have narrow : whenTrue.Stops Cursor.AtConditional before.tail middle := stops.mono .inl
    exact (narrow.then_loosely loosely opened).widen (reaches.trans questioned.reaches) rfl
  · have all := (question.trans loosely').trans loosely
    have ends : (Expr.conditional span condition whenTrue whenFalse).Stops Cursor.AtConditional
      before after := .of_loosely (questioned.trans (loosely'.trans loosely).reaches) all
    exact ends.widen reaches rfl

end Expr.Stops

namespace Parser

/-! ## Repetitions -/

/-- What every repetition keeps true, and the one that ends a loop makes of it, holds at its end. -/
theorem ends_iterate {α : Type} {step : α → Parser (Option α)} (holds ends : α → Cursor → Prop)
    (advances : ∀ value, Advances (step value))
    (kept : ∀ value, ⦃fun cursor => ⌜holds value cursor⌝⦄ step value
      ⦃⇓ result cursor => ⌜(result = none → ends value cursor) ∧
        ∀ next, result = some next → holds next cursor⌝⦄) (value : α) :
    ⦃fun cursor => ⌜holds value cursor⌝⦄ iterate step value
      ⦃⇓ result cursor => ⌜ends result cursor⌝⦄ := by
  have upTo (n : Nat) (value : α) (cursor : Cursor) (enough : cursor.rest.length < n)
      (first : holds value cursor) :
      ends (iterateUpTo step n value cursor).1 (iterateUpTo step n value cursor).2 := by
    induction n generalizing value cursor with
    | zero => exact absurd enough (Nat.not_lt_zero _)
    | succ n induction =>
        have later := triple_iff.mp (kept value) cursor first
        cases read : (step value cursor).1 with
        | none =>
            rw [iterateUpTo_of_none read]
            exact later.1 read
        | some result =>
            rw [iterateUpTo_of_some read]
            have shorter := ((advances value cursor).2 (by rw [read]; rfl)).length_lt
            exact induction result _ (by omega) (later.2 result read)
  exact triple_iff.mpr fun cursor first =>
    upTo (cursor.rest.length + 1) value cursor (Nat.lt_succ_self _) first

/-! ## Skipping -/

theorem lastRead_skipBalanced (opening closing : TokenKind) (before : Cursor) :
    ⦃before.place⦄ skipBalanced opening closing ⦃⇓ _ after =>
      ⌜Cursor.LastRead (fun last rest => last.kind = closing ∨ rest = []) before after⌝⦄ := by
  refine triple_iff.mpr ?_
  rintro cursor rfl
  unfold skipBalanced
  split
  · exact Cursor.lastRead_afterBalanced opening closing (.tail .refl)
  · exact .refl

theorem shut_skipBalanced (opening closing : TokenKind) (other : closing ≠ .word)
    (before : Cursor) :
    ⦃before.place⦄ skipBalanced opening closing ⦃⇓ _ after => ⌜before.Shut after⌝⦄ := by
  refine triple_iff.mpr fun cursor here => ?_
  refine (triple_iff.mp (lastRead_skipBalanced opening closing before) cursor here).mono ?_
  exact fun last rest => .imp_left fun kind_eq =>
    Token.isName_eq_false (by rwa [kind_eq])

theorem shut_skipParens (before : Cursor) :
    ⦃before.place⦄ skipParens ⦃⇓ _ after => ⌜before.Shut after⌝⦄ :=
  shut_skipBalanced .openParen .closeParen nofun before

theorem shut_skipBrackets (before : Cursor) :
    ⦃before.place⦄ skipBrackets ⦃⇓ _ after => ⌜before.Shut after⌝⦄ :=
  shut_skipBalanced .openBracket .closeBracket nofun before

theorem braced_skipBraces (before : Cursor) :
    ⦃before.place⦄ skipBraces ⦃⇓ _ after =>
      ⌜before.Braced after ∧ (before.isAt .openBrace → before.ReachesOn after)⌝⦄ :=
  triple_iff.mpr fun cursor here =>
    ⟨triple_iff.mp (lastRead_skipBalanced .openBrace .closeBrace before) cursor here,
      (triple_iff.mp (place_skipBraces before) cursor here).2⟩

theorem shut_skipBracketPairs (before : Cursor) :
    ⦃before.place⦄ skipBracketPairs ⦃⇓ _ after =>
      ⌜before.Shut after ∧ (before.isAtBrackets → before.ReachesOn after)⌝⦄ := by
  refine triple_iff.mpr fun cursor here => ⟨?_, ?_⟩
  · subst here
    refine (Cursor.lastRead_afterBrackets cursor.behind cursor.rest).mono
      fun last rest kind_eq => ?_
    exact .inl (Token.isName_eq_false (by rw [kind_eq]; nofun))
  · exact (triple_iff.mp (place_skipBracketPairs before) cursor here).2

theorem loosely_skipTypeArguments (before : Cursor) :
    ⦃before.place⦄ skipTypeArguments ⦃⇓ skipped after => ⌜before.Loosely after ∧
      (skipped = true → before.ReachesOn after) ∧ (skipped = false → after = before)⌝⦄ := by
  refine triple_iff.mpr ?_
  rintro cursor rfl
  refine ⟨?_, (triple_iff.mp (place_skipTypeArguments cursor) cursor rfl).2⟩
  unfold skipTypeArguments
  split
  · split
    · next after found =>
      refine (Cursor.lastRead_afterTypeArguments? (.tail .refl) found).mono fun last _ kind_eq => ?_
      rw [kind_eq]
      decide
    · exact .refl
  · exact .refl

/-! ## Rules -/

/-- Whether what was read between two places, if anything was, ends there; reading nothing passes
over tokens that no operand ends with. -/
def Ended? (ahead : Cursor → Prop) : Option Expr → Cursor → Cursor → Prop
  | none, before, after => before.Loosely after
  | some expr, before, after => expr.Stops ahead before after

/-- Whether what was read between two places, if anything was, is an operand that no call goes on
with. -/
def Uncalled? : Option Expr → Cursor → Cursor → Prop
  | none, before, after => before.Loosely after
  | some operand, before, after => operand.Uncalled before after

attribute [grind =] Ended? Uncalled?

theorem Ended?.mono {ahead ahead' : Cursor → Prop} {result : Option Expr} {before after : Cursor}
    (ended : Ended? ahead result before after) (le : ∀ cursor, ahead' cursor → ahead cursor) :
    Ended? ahead' result before after := by
  cases result with
  | none => exact ended
  | some expr => exact Expr.Stops.mono ended (le after)

/-- Whether the rules of the grammar read as far as an expression goes. -/
structure Rules.Longest (rules : Rules) : Prop where
  reads : rules.Reads
  expr (before : Cursor) :
    ⦃before.place⦄ rules.expr ⦃⇓ result after => ⌜Ended? Cursor.AtAssignment result before after⌝⦄
  conditional (before : Cursor) : ⦃before.place⦄ rules.conditional
    ⦃⇓ result after => ⌜Ended? Cursor.AtConditional result before after⌝⦄
  binary (least : Nat) (before : Cursor) :
    ⦃before.place⦄ rules.binary least
      ⦃⇓ result after => ⌜Ended? Cursor.Nowhere result before after⌝⦄
  unary (before : Cursor) :
    ⦃before.place⦄ rules.unary ⦃⇓ result after => ⌜Ended? Cursor.Nowhere result before after⌝⦄
  primary (before : Cursor) :
    ⦃before.place⦄ rules.primary ⦃⇓ result after => ⌜Uncalled? result before after⌝⦄

theorem stops_orMissing {parser : Parser (Option Expr)} {ahead : Cursor → Prop}
    (ended : ∀ before : Cursor,
      ⦃before.place⦄ parser ⦃⇓ result after => ⌜Ended? ahead result before after⌝⦄)
    (before : Cursor) :
    ⦃before.place⦄ orMissing parser
      ⦃⇓ expr after => ⌜expr.StopsOrMissing ahead before after⌝⦄ := by
  mvcgen [orMissing, ended, place_missing_exact, -onward_orMissing, -onward_missing,
    -placed_orMissing, -placed_missing]
  case vc1 here _ _ _ _ ended => exact here ▸ .inl ended
  case vc2 here _ _ _ loosely _ _ =>
    subst here
    rintro rfl rfl
    exact .inr ⟨rfl, loosely⟩

theorem place_skipParens_exact (before : Cursor) :
    ⦃before.place⦄ skipParens
      ⦃⇓ _ after => ⌜before.Reaches after ∧ after = (skipParens before).2⌝⦄ :=
  triple_iff.mpr fun cursor here =>
    ⟨(triple_iff.mp (place_skipParens before) cursor here).1, here ▸ rfl⟩

theorem uncalled_methodReference (receiver : Expr) (before : Cursor)
    (found : before.isAt .doubleColon) :
    ⦃before.place⦄ methodReference receiver ⦃⇓ expr after => ⌜expr.Uncalled before after⌝⦄ := by
  have reference (onward : Expr) := @Expr.Uncalled.reference onward before
  mvcgen [methodReference, -onward_methodReference, -extended_methodReference] <;>
    grind -ring -linarith [Expr.endsInName, Expr.lastOperand]

theorem shut_repeatWhile {step : Parser Bool}
    (shut : ∀ before : Cursor, ⦃before.place⦄ step ⦃⇓ _ after => ⌜before.Shut after⌝⦄)
    (before : Cursor) : ⦃before.place⦄ repeatWhile step ⦃⇓ _ after => ⌜before.Shut after⌝⦄ := by
  refine triple_iff.mpr fun cursor here => ?_
  refine triple_iff.mp (repeatWhile_invariant before.Shut (triple_iff.mpr fun middle first => ?_))
    cursor (here ▸ .refl)
  exact first.trans (triple_iff.mp (shut middle) middle rfl)

section Rules

variable {rules : Rules}

/-- No argument is read only where arguments end. -/
theorem endsArguments_of_argumentWith (reads : rules.Reads) (before : Cursor) :
    ⦃before.place⦄ argumentWith rules ⦃⇓ result after =>
      ⌜result = none → before.endsArguments ∧ after = before⌝⦄ := by
  have expr := reads.expr
  mvcgen [argumentWith, expr, -Rules.Placed.expr, -Rules.Onward.expr, -placed_missing] <;>
    clear expr <;> grind -ring -linarith [Cursor.endsArguments]

/-- Arguments are read up to where they end. -/
theorem place_manyArguments (reads : rules.Reads) (before : Cursor) :
    ⦃before.place⦄ many (argumentWith rules)
      ⦃⇓ _ after => ⌜before.Reaches after ∧ after.endsArguments⌝⦄ := by
  refine triple_iff.mpr ?_
  rintro cursor rfl
  obtain ⟨last, reaches, nothing, last_eq⟩ := exists_of_manyUpTo
    (fun after _ => advances_argumentWith reads after) (Nat.lt_succ_self cursor.rest.length)
  obtain ⟨ends, stays⟩ :=
    triple_iff.mp (endsArguments_of_argumentWith reads last) last rfl nothing
  have after_eq : (many (argumentWith rules) cursor).2 = last := last_eq.trans stays
  exact after_eq ▸ ⟨reaches, ends⟩

theorem shut_argumentsWith (reads : rules.Reads) (before : Cursor) :
    ⦃before.place⦄ argumentsWith rules ⦃⇓ _ after => ⌜before.Shut after ∧
      (before.isAt .openParen → before.ReachesOn after)⌝⦄ := by
  rw [argumentsWith_eq]
  have arguments := place_manyArguments reads
  mvcgen [arguments, -placed_manyExprs]
  case vc1 here _ _ opens _ _ arguments _ _ closes =>
    subst here
    have reaches := opens.1.reaches.trans (arguments.1.trans closes.1.reaches)
    refine ⟨?_, fun found => ?_⟩
    · rcases Bool.or_eq_true_iff.mp arguments.2 with at_end | closed
      · have no_rest := List.isEmpty_iff.mp at_end
        obtain rfl := closes.1.reaches.eq_of_nil no_rest
        exact .of_nil reaches no_rest fun _ => .inr rfl
      · obtain rfl := closes.2.2 (closes.2.1.trans closed)
        exact .of_isAt (opens.1.reaches.trans arguments.1) closed nofun
    · obtain rfl := opens.2.2 (opens.2.1.trans found)
      exact (Cursor.reachesOn_tail_of_isAt found).trans (arguments.1.trans closes.1.reaches)

variable (longest : rules.Longest)

include longest

theorem stops_lambdaWith (before : Cursor) (found : before.isAtLambda) :
    ⦃before.place⦄ lambdaWith rules
      ⦃⇓ expr after => ⌜expr.Stops Cursor.AtAssignment before after⌝⦄ := by
  have body := longest.expr
  have arrow := isAt_arrow_of_isAtLambda found
  mvcgen [lambdaWith, place_missing_exact, body, place_skipParens_exact, braced_skipBraces,
    -onward_lambdaWith, -onward_missing, -place_advance, -place_skipParens, -place_skipBraces,
    -onward_skipParens, -onward_skipBraces, -placed_lambdaWith, -placed_missing,
    -Rules.Onward.expr, -Rules.Placed.expr]
  all_goals clear body
  all_goals grind -ring -linarith [advance_one]

theorem stops_valueWith (before : Cursor) :
    ⦃before.place⦄ valueWith rules
      ⦃⇓ expr after => ⌜expr.StopsOrMissing Cursor.AtAssignment before after⌝⦄ := by
  have body := stops_orMissing longest.expr
  mvcgen [valueWith, body, braced_skipBraces, -onward_valueWith, -placed_valueWith,
    -onward_orMissing, -placed_orMissing, -place_skipBraces, -onward_skipBraces]
  all_goals clear body
  case vc1 here opens _ _ skipped _ _ =>
    subst here
    rintro rfl rfl
    exact .inl (.braced .refl (skipped.2 opens) skipped.1 (.inr rfl))

theorem uncalled_creationWith (outer : Option Expr) (start : Nat) (before : Cursor)
    (found : before.isAtWord "new") :
    ⦃before.place⦄ creationWith rules outer start
      ⦃⇓ expr after => ⌜expr.Uncalled before after⌝⦄ := by
  have arguments := shut_argumentsWith longest.reads
  mvcgen [creationWith, arguments, shut_repeatWhile, shut_skipBrackets, braced_skipBraces,
    -onward_creationWith, -placed_creationWith, -extended_creationWith, -onward_argumentsWith,
    -placed_argumentsWith, -placed_typeRef, -place_skipBraces, -onward_skipBraces,
    -onward_skipBrackets, -onward_repeatWhile]
  all_goals clear arguments
  all_goals grind -ring -linarith [Cursor.isAt_iff]

theorem uncalled_wordWith {token : Token} {rest : List Token} (before : Cursor)
    (head : before.rest = token :: rest) (kind : token.kind = .word) :
    ⦃before.place⦄ wordWith rules token ⦃⇓ result after => ⌜Uncalled? result before after⌝⦄ := by
  have arguments := shut_argumentsWith longest.reads
  have creation := uncalled_creationWith longest
  have shut (reserved : isReserved token.text) := Cursor.shut_of_reserved head reserved
  have reserved : ∀ word ∈ ["true", "false", "null", "this", "super", "switch"],
    isReserved word := by decide
  mvcgen [wordWith, arguments, creation, shut_skipBracketPairs, shut_skipParens, braced_skipBraces,
    place_advance_exact, -onward_wordWith, -placed_wordWith, -onward_argumentsWith,
    -placed_argumentsWith, -onward_creationWith, -placed_creationWith, -onward_skipBracketPairs,
    -place_skipBracketPairs, -place_skipParens, -onward_skipParens, -place_skipBraces,
    -onward_skipBraces, -place_advance, -place_advance_one, -place_advance_two, -onward_advance]
  all_goals clear arguments creation
  all_goals grind -ring -linarith [advance_one, isReserved_of_isPrimitive,
    Cursor.shut_classLiteral]

/-- An operand behind type arguments that were skipped. -/
theorem uncalled_primary_after (origin before : Cursor) (loosely : origin.Loosely before) :
    ⦃before.place⦄ rules.primary ⦃⇓ result after => ⌜Uncalled? result origin after⌝⦄ := by
  refine triple_iff.mpr ?_
  rintro cursor rfl
  have read := triple_iff.mp (longest.primary cursor) cursor rfl
  cases result_eq : (rules.primary cursor).1 with
  | none =>
      rw [result_eq] at read
      exact loosely.trans read
  | some operand =>
      rw [result_eq] at read
      exact read.widen loosely.reaches

theorem uncalled_primaryWith (before : Cursor) :
    ⦃before.place⦄ primaryWith rules ⦃⇓ result after => ⌜Uncalled? result before after⌝⦄ := by
  have words := @uncalled_wordWith rules longest
  have inner := stops_orMissing longest.expr
  have operand := uncalled_primary_after longest
  mvcgen [primaryWith, words, inner, operand, loosely_skipTypeArguments, braced_skipBraces,
    -onward_primaryWith, -placed_primaryWith, -onward_wordWith, -placed_wordWith,
    -onward_orMissing, -placed_orMissing, -Rules.Onward.primary, -Rules.Placed.primary,
    -onward_skipTypeArguments, -place_skipTypeArguments, -place_skipBraces, -onward_skipBraces,
    -place_advance]
  all_goals clear words inner operand
  all_goals grind -ring -linarith

theorem uncalled_selectionWith (receiver : Expr) (before : Cursor) (found : before.isAt .dot) :
    ⦃before.place⦄ selectionWith rules receiver
      ⦃⇓ result after => ⌜Uncalled? result before after ∧ before.ReachesOn after⌝⦄ := by
  have arguments := shut_argumentsWith longest.reads
  have creation := uncalled_creationWith longest
  have dotted := Cursor.loosely_tail found (by decide)
  have reserved : isReserved "class" := by decide
  mvcgen [selectionWith, arguments, creation, loosely_skipTypeArguments, -onward_selectionWith,
    -extended_selectionWith, -onward_argumentsWith, -placed_argumentsWith, -onward_creationWith,
    -placed_creationWith, -extended_creationWith, -onward_skipTypeArguments,
    -place_skipTypeArguments, -place_advance]
  all_goals clear arguments creation
  all_goals grind -ring -linarith

theorem uncalled_indexWith (array : Expr) (before : Cursor) (found : before.isAt .openBracket) :
    ⦃before.place⦄ indexWith rules array ⦃⇓ result after =>
      ⌜result.Uncalled before after ∨ result = array ∧ before.Shut after⌝⦄ := by
  have index := stops_orMissing longest.expr
  mvcgen [indexWith, index, shut_skipBracketPairs, place_advance_exact, -onward_indexWith,
    -extended_indexWith, -onward_orMissing, -placed_orMissing, -onward_skipBracketPairs,
    -place_skipBracketPairs, -place_advance, -place_advance_one, -place_advance_two,
    -onward_advance]
  all_goals clear index
  all_goals grind -ring -linarith [advance_one, Cursor.shut_classLiteral]

/-- What follows an operand goes on with it, or the operand ends there. -/
theorem uncalled_selectorWith (operand : Expr) (origin before : Cursor)
    (uncalled : operand.Uncalled origin before) :
    ⦃before.place⦄ selectorWith rules operand ⦃⇓ result after =>
      ⌜(result = none → operand.Stops Cursor.Nowhere origin after) ∧
        ∀ selected, result = some selected → selected.Uncalled origin after⌝⦄ := by
  have selection := uncalled_selectionWith longest
  have index := uncalled_indexWith longest
  mvcgen [selectorWith, selection, index, uncalled_methodReference, loosely_skipTypeArguments,
    -onward_selectorWith, -extended_selectorWith, -onward_selectionWith, -extended_selectionWith,
    -onward_indexWith, -extended_indexWith, -onward_methodReference, -extended_methodReference,
    -onward_skipTypeArguments, -place_skipTypeArguments, -place_advance]
  all_goals clear selection index
  all_goals grind -ring -linarith [Cursor.Nowhere, Cursor.updateOp?, Cursor.isAt_iff]

theorem stops_operandWith (before : Cursor) :
    ⦃before.place⦄ operandWith rules
      ⦃⇓ result after => ⌜Ended? Cursor.Nowhere result before after⌝⦄ := by
  have primary := uncalled_primaryWith longest
  have selectors (operand : Expr) (origin before : Cursor)
      (uncalled : operand.Uncalled origin before) :
      ⦃before.place⦄ iterate (selectorWith rules) operand
        ⦃⇓ result after => ⌜result.Stops Cursor.Nowhere origin after⌝⦄ := by
    refine triple_iff.mpr fun cursor here => triple_iff.mp (ends_iterate
      (Expr.Uncalled · origin) (Expr.Stops Cursor.Nowhere · origin)
      (fun operand => advances_iff.mpr (reads_selectorWith longest.reads.onward operand))
      (fun operand => triple_iff.mpr fun cursor first => ?_) operand) cursor (here ▸ uncalled)
    exact triple_iff.mp (uncalled_selectorWith longest operand origin cursor first) cursor rfl
  mvcgen [operandWith, primary, selectors, -onward_operandWith, -placed_operandWith,
    -onward_primaryWith, -placed_primaryWith, -onward_iterate, -extended_iterate]
  all_goals clear primary selectors
  all_goals grind -ring -linarith

theorem stops_castWith (before : Cursor) :
    ⦃before.place⦄ castWith rules ⦃⇓ result after =>
      ⌜(result = none → after = before) ∧ Ended? Cursor.Nowhere result before after⌝⦄ := by
  have lambda := stops_lambdaWith longest
  have operand := stops_orMissing longest.unary
  mvcgen [castWith, lambda, operand, -onward_castWith, -placed_castWith, -onward_lambdaWith,
    -placed_lambdaWith, -onward_orMissing, -placed_orMissing, -placed_typeRef?, -placed_castType?]
  all_goals clear lambda operand
  all_goals grind -ring -linarith

theorem stops_unaryWith (before : Cursor) :
    ⦃before.place⦄ unaryWith rules
      ⦃⇓ result after => ⌜Ended? Cursor.Nowhere result before after⌝⦄ := by
  have cast := stops_castWith longest
  have plain := stops_operandWith longest
  have operand := stops_orMissing longest.unary
  mvcgen [unaryWith, cast, plain, operand, -onward_unaryWith, -placed_unaryWith, -onward_castWith,
    -placed_castWith, -onward_operandWith, -placed_operandWith, -onward_orMissing,
    -placed_orMissing, -place_advance]
  all_goals clear cast plain operand
  all_goals grind -ring -linarith

theorem stops_binaryStepWith (least : Nat) (left : Expr) (before : Cursor) :
    ⦃before.place⦄ binaryStepWith rules least left ⦃⇓ result after =>
      ⌜(result = none → after = before ∧ (least = 0 → ¬before.AtBinary)) ∧
        ∀ joined, result = some joined → joined.Stops Cursor.Nowhere before after⌝⦄ := by
  have right (least : Nat) := stops_orMissing (longest.binary least)
  mvcgen [binaryStepWith, right, place_advance_exact, -onward_binaryStepWith,
    -extended_binaryStepWith, -onward_orMissing, -placed_orMissing, -placed_typeRef,
    -onward_advance, -place_advance]
  all_goals clear right
  all_goals grind -ring -linarith [advance_one, Cursor.AtBinary]

theorem stops_binaryWith (least : Nat) (before : Cursor) :
    ⦃before.place⦄ binaryWith rules least ⦃⇓ result after =>
      ⌜Ended? (fun cursor => least = 0 ∧ cursor.AtBinary) result before after⌝⦄ := by
  have unary := stops_unaryWith longest
  have operators (left : Expr) (origin before : Cursor)
      (stops : left.Stops Cursor.Nowhere origin before) :
      ⦃before.place⦄ iterate (binaryStepWith rules least) left ⦃⇓ result after =>
        ⌜result.Stops (fun cursor => least = 0 ∧ cursor.AtBinary) origin after⌝⦄ := by
    refine triple_iff.mpr fun cursor here => triple_iff.mp (ends_iterate
      (Expr.Stops Cursor.Nowhere · origin)
      (Expr.Stops (fun cursor => least = 0 ∧ cursor.AtBinary) · origin)
      (fun left => advances_iff.mpr (reads_binaryStepWith longest.reads.onward least left))
      (fun left => triple_iff.mpr fun cursor first => ?_) left) cursor (here ▸ stops)
    obtain ⟨ends, goes_on⟩ :=
      triple_iff.mp (stops_binaryStepWith longest least left cursor) cursor rfl
    refine ⟨fun nothing => ?_, fun joined found => ?_⟩
    · obtain ⟨stays, no_operator⟩ := ends nothing
      rw [stays]
      exact first.mono fun ⟨none_below, found⟩ => no_operator none_below found
    · exact (goes_on joined found).widen first.1.reaches rfl
  mvcgen [binaryWith, unary, operators, -onward_binaryWith, -placed_binaryWith, -onward_unaryWith,
    -placed_unaryWith, -onward_iterate, -extended_iterate]
  all_goals clear unary operators
  all_goals grind -ring -linarith

theorem stops_conditionalWith (before : Cursor) :
    ⦃before.place⦄ conditionalWith rules
      ⦃⇓ result after => ⌜Ended? Cursor.AtConditional result before after⌝⦄ := by
  have condition := stops_binaryWith longest 0
  have lambda := stops_lambdaWith longest
  have whenTrue := stops_orMissing longest.expr
  have whenFalse := stops_orMissing longest.conditional
  mvcgen [conditionalWith, condition, lambda, whenTrue, whenFalse, -onward_conditionalWith,
    -placed_conditionalWith, -onward_binaryWith, -placed_binaryWith, -onward_lambdaWith,
    -placed_lambdaWith, -onward_orMissing, -placed_orMissing]
  all_goals clear condition lambda whenTrue whenFalse
  case vc1 here _ nothing _ loosely =>
    subst here
    subst nothing
    exact loosely
  case vc3 | vc4 =>
    rename_i here _ condition _ _ _ found _ question _ _ whenTrue _ _ colon _ _ _ _ whenFalse read
    subst here
    obtain rfl := question.2.2 found
    refine .conditional read.1.reaches (question.2.1.symm.trans found) whenTrue colon.1 ?_
    first
      | exact whenFalse
      | exact .inl (whenFalse.mono .inl)
  case vc5 here _ _ _ _ _ refused _ question read =>
    subst here
    have absent : ¬Cursor.isAt _ .question = true := fun found =>
      refused (question.2.1.trans found)
    obtain rfl := question.1.resolve_right fun found => absent found.1
    exact Expr.Stops.mono read fun found => ⟨trivial, found.resolve_right absent⟩

theorem stops_exprWith (before : Cursor) :
    ⦃before.place⦄ exprWith rules
      ⦃⇓ result after => ⌜Ended? Cursor.AtAssignment result before after⌝⦄ := by
  have lambda := stops_lambdaWith longest
  have target := stops_conditionalWith longest
  have value := stops_valueWith longest
  mvcgen [exprWith, lambda, target, value, place_advance_exact, -onward_exprWith, -placed_exprWith,
    -onward_lambdaWith, -placed_lambdaWith, -onward_conditionalWith, -placed_conditionalWith,
    -onward_valueWith, -placed_valueWith, -onward_advance, -place_advance]
  all_goals clear lambda target value
  case vc2 here _ _ _ ends => exact here ▸ ends
  case vc3 here _ _ nothing _ loosely =>
    subst here
    subst nothing
    exact loosely
  case vc4 here _ _ _ _ _ stops none_found =>
    subst here
    refine Expr.Stops.mono stops fun found => found.resolve_right fun assignment => ?_
    rw [none_found] at assignment
    cases assignment
  case vc5 here _ _ target _ _ stops op width found _ _ advanced _ _ value =>
    subst here
    subst advanced
    obtain ⟨reachesOn, loosely⟩ := Cursor.loosely_assignOp? found
    exact (value.assignment reachesOn loosely).widen stops.1.reaches rfl

end Rules

theorem longest_rules (n : Nat) : (rules n).Longest := by
  induction n with
  | zero =>
      refine ⟨reads_rules 0, ?_, ?_, ?_, ?_, ?_⟩
      all_goals intros; exact triple_iff.mpr fun cursor here => here ▸ .refl
  | succ n induction =>
      have joined (least : Nat) (before : Cursor) :
          ⦃before.place⦄ binaryWith (rules n) least
            ⦃⇓ result after => ⌜Ended? Cursor.Nowhere result before after⌝⦄ :=
        triple_iff.mpr fun cursor here =>
          (triple_iff.mp (stops_binaryWith induction least before) cursor here).mono nofun
      exact
        { reads := reads_rules (n + 1)
          expr := stops_exprWith induction
          conditional := stops_conditionalWith induction
          binary := joined
          unary := stops_unaryWith induction
          primary := uncalled_primaryWith induction }

/-- The tokens behind an expression do not go on with it. -/
theorem ends_of_expr {start after : Cursor} {expr : Expr}
    (read : Parser.expr start = (some expr, after)) : expr.Ends start after := by
  have ended := of_place (stops_exprWith (longest_rules (start.rest.length + 1)) start) read
  exact ⟨read, fun _ rest_eq => Expr.Stops.not_goesOn ended rest_eq⟩

end Parser

end JavaOutline
