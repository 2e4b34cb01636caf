import Mathlib
import JavaOutline.Proofs.Reading.Accounts
import JavaOutline.Proofs.Reading.LongestReadings
import JavaOutline.Proofs.Reading.Unbounded

/-!
# The grammar of expressions follows the readings

What each rule of the grammar reads is read as its readings say. The rules take the rules for
expressions below them as given, and the claim for all of them follows by induction on how many
tokens are left. An argument is read as an expression of the grammar is, and so ends where that
does.
-/

set_option mvcgen.warning false

open Std.Do
open scoped Computability

namespace JavaOutline

open Fate (shows showsKinds passes lacks parens typeArguments stray)
open LabelEnds (isAt_arrow_of_isAtLambda)

namespace Parser

theorem takes_acceptWord (word : String) (before : Cursor) (found : before.isAtWord word) :
    ⦃before.place⦄ acceptWord word
      ⦃⇓ _ after => ⌜before.ReachesOn after ∧ before.Takes (shows .word word) after⌝⦄ := by
  refine triple_iff.mpr ?_
  rintro cursor rfl
  rw [acceptWord, if_pos found]
  exact ⟨Cursor.reachesOn_tail_of_isAtWord found, Cursor.takes_word found⟩

theorem takes_accept (kind : TokenKind) (before : Cursor) :
    ⦃before.place⦄ accept kind
      ⦃⇓ _ after => ⌜before.Takes (lacks (·.kind = kind) + showsKinds [kind]) after⌝⦄ := by
  refine triple_iff.mpr ?_
  rintro cursor rfl
  exact Cursor.takes_or_lacks (triple_iff.mp (place_accept_exact kind cursor) cursor rfl)

/-- What is read where an expression may be missing. -/
theorem place_orMissing {parser : Parser (Option Expr)} {before : Cursor}
    {read? : Option Expr → Cursor → Prop} {holds : Expr → Cursor → Prop}
    (found : ∀ expr after, read? (some expr) after → holds expr after)
    (missing : ∀ span after, read? none after → holds (.missing span) after)
    (read : ⦃before.place⦄ parser ⦃⇓ result after => ⌜read? result after⌝⦄) :
    ⦃before.place⦄ orMissing parser ⦃⇓ expr after => ⌜holds expr after⌝⦄ := by
  mvcgen [orMissing, read, place_missing_exact, -onward_orMissing, -onward_missing,
    -placed_orMissing, -placed_missing]
  case vc2 _ _ _ _ read => exact found _ _ read
  case vc3 _ _ _ nothing _ _ =>
    rintro rfl rfl
    exact missing _ _ nothing

theorem accounts_orMissing {parser : Parser (Option Expr)}
    (accounts : ∀ before : Cursor, before.IsScanned → ⦃before.place⦄ parser ⦃⇓ result after =>
      ⌜Accounted? result before after⌝⦄)
    (before : Cursor) (scanned : before.IsScanned) :
    ⦃before.place⦄ orMissing parser ⦃⇓ expr after => ⌜expr.WholeAccounts before after⌝⦄ :=
  place_orMissing (fun _ _ whole => whole) (fun _ _ => .missing) (accounts before scanned)

theorem operand_orMissing {parser : Parser (Option Expr)}
    (accounts : ∀ before : Cursor, before.IsScanned → ⦃before.place⦄ parser ⦃⇓ result after =>
      ⌜OperandAccounted? result before after⌝⦄)
    (before : Cursor) (scanned : before.IsScanned) :
    ⦃before.place⦄ orMissing parser ⦃⇓ expr after => ⌜expr.OperandAccounts before after⌝⦄ :=
  place_orMissing (fun _ _ operand => operand.1) (fun _ _ => .missing) (accounts before scanned)

/-- A method reference is copied with all that was read before it. -/
theorem selects_methodReference (receiver : Expr) (before : Cursor)
    (found : before.isAt .doubleColon) :
    ⦃before.place⦄ methodReference receiver ⦃⇓ expr after =>
      ⌜receiver.Selects before (some expr) after⌝⦄ := by
  have copied {middle after : Cursor} := @Cursor.crosses_methodReference before middle after found
  mvcgen [methodReference, place_typeArguments, -onward_methodReference, -extended_methodReference,
    -place_advance, -onward_skipTypeArguments, -place_skipTypeArguments] <;>
    grind -ring -linarith [Expr.Selects]

theorem place_skipTo_exact (before : Cursor) :
    ⦃before.place⦄ skipTo [.comma, .closeParen] ⦃⇓ _ after =>
      ⌜before.Strays after ∧ ∀ token ∈ after.rest.head?,
        token.kind ∈ [.comma, .closeParen, .closeBrace, .closeBracket]⌝⦄ := by
  refine triple_iff.mpr ?_
  rintro cursor rfl
  obtain ⟨tokens, rest_eq, stops, inside⟩ :=
    Cursor.exists_of_beforeStop 0 cursor.behind cursor.rest
  have reaches := Cursor.reaches_beforeStop [.comma, .closeParen] 0 cursor.behind cursor.rest
  have member : tokens ∈ stray := fun front token back tokens_eq balanced =>
    inside front token back tokens_eq (by rw [Nat.zero_add, balanced])
  exact ⟨⟨reaches, tokens, member, rest_eq⟩, stops⟩

/-- Reads an argument; where there is none it is missing, and a token is skipped. -/
def argumentOrMissing (rules : Rules) : Parser Expr := do
  match ← rules.expr with
  | some argument => return argument
  | none =>
    let argument ← missing
    advance 1
    return argument

theorem argumentWith_eq (rules : Rules) : argumentWith rules = (do
    let cursor ← get
    if cursor.endsArguments then return none
    afterArgument (← argumentOrMissing rules)) := by
  unfold argumentWith
  refine bind_congr fun cursor => ?_
  refine if_congr .rfl rfl ?_
  simp only [argumentOrMissing, bind_assoc]
  refine bind_congr fun result => ?_
  cases result <;> simp only [bind_assoc, pure_bind] <;> rfl

theorem place_afterArgument (argument : Expr) (before : Cursor) :
    ⦃before.place⦄ afterArgument argument ⦃⇓ result after => ⌜result = some argument ∧
      ∃ middle, before.Strays middle ∧ middle.Separates after⌝⦄ := by
  mvcgen [afterArgument, place_accept_exact, place_skipTo_exact, -onward_skipTo, -place_skipTo,
    -place_accept, -place_accept_found, -place_accept_eq]
  case vc1 here _ _ accepted _ comma =>
    subst here
    obtain ⟨rfl, rfl⟩ := comma
    exact ⟨trivial, _, .refl _, .inl ⟨accepted, if_pos accepted⟩⟩
  case vc2 here _ _ refused _ comma closes =>
    subst here
    obtain ⟨rfl, rfl⟩ := comma
    rw [if_neg refused] at closes ⊢
    exact ⟨trivial, _, .refl _, .inr ⟨rfl, .inl (by simp [Cursor.endsArguments, closes])⟩⟩
  case vc3 here _ _ refused _ comma _ _ _ strays _ _ comma' =>
    subst here
    obtain ⟨-, rfl⟩ := comma
    rw [if_neg refused] at strays
    exact ⟨trivial, _, strays.1, Cursor.separates_of_accepted strays.2 comma'⟩

/-- Arguments are read as their readings say, if each of them is. -/
theorem takes_manyArguments {step : Parser (Option Expr)} (advances : Advances step)
    (read : ∀ before : Cursor, before.IsScanned → ⦃before.place⦄ step ⦃⇓ result after =>
      ⌜ArgumentRead? result before after⌝⦄) (before : Cursor) (scanned : before.IsScanned) :
    ⦃before.place⦄ many step ⦃⇓ arguments after =>
      ⌜before.Takes (Expr.readings arguments) after⌝⦄ := by
  -- A comma is shown if an argument follows it and lost if none does, so the readings need to know
  -- that the arguments end where the loop does.
  have upTo (n : Nat) (cursor : Cursor) (scanned : cursor.IsScanned)
      (enough : cursor.rest.length < n) :
      cursor.Takes (Expr.readings (manyUpTo step n cursor).1) (manyUpTo step n cursor).2 ∧
        StartsAt cursor (manyUpTo step n cursor).1 := by
    induction n generalizing cursor with
    | zero => exact absurd enough (Nat.not_lt_zero _)
    | succ n induction =>
        have first := triple_iff.mp (read cursor scanned) cursor rfl
        rw [manyUpTo_succ]
        cases found : (step cursor).1 with
        | none =>
            rw [found] at first
            obtain ⟨stays, ends⟩ := first
            rw [stays]
            exact ⟨.endsArguments ends, .nil ends⟩
        | some argument =>
            rw [found] at first
            obtain ⟨starts, middle, takes, separates⟩ := first
            have shorter := ((advances cursor).2 (by rw [found]; rfl)).length_lt
            have scanned' := scanned.reaches (takes.reaches.trans separates.reaches)
            obtain ⟨later, starts'⟩ := induction _ scanned' (by omega)
            refine ⟨(takes.mul (separates.takes_comma starts')).mul later, ?_, starts.2⟩
            have more (exprs : List Expr) : argument :: exprs ≠ [] := List.cons_ne_nil _ _
            exact iff_of_false (fun ends => more [] (starts.1.mp ends)) (more _)
  refine triple_iff.mpr ?_
  rintro cursor rfl
  exact (upTo (cursor.rest.length + 1) cursor scanned (Nat.lt_succ_self _)).1

theorem continues_iterate {step : Expr → Parser (Option Expr)}
    (continues : ∀ operand (before : Cursor), before.IsScanned →
      ⦃before.place⦄ step operand ⦃⇓ result after =>
        ⌜operand.Continues before (result.getD operand) after⌝⦄)
    (operand : Expr) (before : Cursor) (scanned : before.IsScanned) :
    ⦃before.place⦄ iterate step operand ⦃⇓ result after =>
      ⌜operand.Continues before result after⌝⦄ := by
  refine triple_iff.mpr ?_
  rintro cursor rfl
  refine triple_iff.mp (iterate_invariant (fun (result : Expr) => operand.Continues cursor result)
    (fun result => ?_) operand) cursor .refl
  refine triple_iff.mpr fun before front => ?_
  have scanned' := scanned.reaches front.reaches
  exact front.trans (triple_iff.mp (continues result before scanned') before rfl)

section Cast

variable (closing : Mark .closeParen) (later : List Token)

/-- Neither an ampersand nor a closing parenthesis goes on with a type. -/
theorem endsType_more (more : List (Mark .amp × WrittenType)) : EndsType
    (more.flatMap (fun part => part.1.token :: part.2.tokens) ++ closing.token :: later) := by
  cases more with
  | nil => simp [EndsType, closing.kind_eq]
  | cons part more => simp [EndsType, part.1.kind_eq]

/-- The further types of a cast to several types at once are read. -/
theorem iterates_castTypeStep (more : List (Mark .amp × WrittenType)) (type : TypeRef)
    (behind : Nat) : ∃ whole behind', Iterates castTypeStep (some type)
      ⟨more.flatMap (fun part => part.1.token :: part.2.tokens) ++ closing.token :: later, behind⟩
        (some whole) ⟨closing.token :: later, behind'⟩ := by
  induction more generalizing type behind with
  | nil => exact ⟨type, behind, .stop (by simp [castTypeStep, accept_apply, closing.kind_eq])⟩
  | cons part more induction =>
      obtain ⟨amp, other⟩ := part
      obtain ⟨whole, behind', iterates⟩ := induction
        ⟨type.text ++ "&" ++ other.text, type.span.cover (Token.spanOf other.tokens)⟩
        (Cursor.finish ⟨other.tokens, amp.token.span.stop⟩)
      have read := other.typeRef?_eq (endsType_more closing later more)
        amp.token.span.stop
      refine ⟨whole, behind', .next ?_ ?_ iterates⟩
      · simp [castTypeStep, accept_apply, amp.kind_eq, read]
      · simp only [List.flatMap_cons, List.length_append, List.length_cons]
        omega

/-- The operand of a cast begins with any of these tokens. -/
theorem isAtOperand_cons {next : Token} (more : List Token) (begins : next.beginsCastOperand)
    (place : Nat) : Cursor.isAtOperand ⟨next :: more, place⟩ = true := by
  simp only [Token.beginsCastOperand, Bool.or_eq_true] at begins
  rcases begins with (begins | switch) | listed
  · have leads : Token.Leads (next :: more) := .operand begins
    exact isAtOperand_of_leads leads [] place
  · have word : next.kind = .word ∧ next.text = "switch" := by simpa [Token.isWord] using switch
    simp [Cursor.isAtOperand, word, operandWords]
  · have listed : next.kind = .openParen ∨ next.kind = .bang ∨ next.kind = .tilde := by
      simpa using listed
    rcases listed with kind_eq | kind_eq | kind_eq <;> simp [Cursor.isAtOperand, kind_eq]

/-- Where no cast was read, none begins. -/
theorem noCast_of_castWith {rules : Rules} {before : Cursor}
    (nothing : (castWith rules before).1 = none) : before.NoCast := by
  rintro _ behind rest_eq ⟨opening, type, more, closing⟩ next found
  by_contra begins
  obtain ⟨rest, place⟩ := before
  obtain rfl : rest = _ := rest_eq
  obtain ⟨later, rfl⟩ := List.head?_eq_some_iff.mp found
  have read := type.typeRef?_eq (endsType_more closing (next :: later) more)
    opening.token.span.stop
  obtain ⟨whole, place', iterates⟩ := iterates_castTypeStep closing
    (next :: later) more ⟨type.text, Token.spanOf type.tokens⟩
    (Cursor.finish ⟨type.tokens, opening.token.span.stop⟩)
  have types := (castType?_eq _ ▸ iterates.iterate_eq)
  have operand := isAtOperand_cons later (Bool.of_not_eq_false begins)
    closing.token.span.stop
  cases lambda : Cursor.isAtLambda ⟨next :: later, closing.token.span.stop⟩ <;>
    simp [castWith, read, types, accept_apply, closing.kind_eq, operand, lambda] at nothing

end Cast

/-- Whether what the rules read is read as its readings say, and an expression as the grammar reads
it. Nothing is read at a closing brace or bracket. -/
structure Rules.Account (rules : Rules) : Prop where
  reads : rules.Reads
  expr (before : Cursor) (scanned : before.IsScanned) :
    ⦃before.place⦄ rules.expr ⦃⇓ result after => ⌜Accounted? result before after⌝⦄
  closed (before : Cursor) (scanned : before.IsScanned) :
    ⦃before.place⦄ rules.expr ⦃⇓ result _ => ⌜before.isAtClosing → result = none⌝⦄
  ends (before : Cursor) (scanned : before.IsScanned) :
    ⦃before.place⦄ rules.expr
      ⦃⇓ result after => ⌜∀ expr, result = some expr → expr.Ends before after⌝⦄
  conditional (before : Cursor) (scanned : before.IsScanned) :
    ⦃before.place⦄ rules.conditional ⦃⇓ result after => ⌜OperandAccounted? result before after⌝⦄
  binary (least : Nat) (before : Cursor) (scanned : before.IsScanned) :
    ⦃before.place⦄ rules.binary least ⦃⇓ result after => ⌜OperandAccounted? result before after⌝⦄
  unary (before : Cursor) (scanned : before.IsScanned) :
    ⦃before.place⦄ rules.unary ⦃⇓ result after => ⌜OperandAccounted? result before after⌝⦄
  primary (before : Cursor) (scanned : before.IsScanned) :
    ⦃before.place⦄ rules.primary ⦃⇓ result after => ⌜OperandHeld? result before after⌝⦄

/-- A loop ends where its step says that there is no more. -/
theorem ends_repeatWhile {step : Parser Bool} (advances : Advances (whileStep step))
    (before : Cursor) : ⦃before.place⦄ repeatWhile step ⦃⇓ _ after => ⌜∃ last : Cursor,
      before.Reaches last ∧ step last = (false, after)⌝⦄ := by
  refine triple_iff.mpr ?_
  rintro cursor rfl
  obtain ⟨last, reaches, nothing, last_eq⟩ := exists_of_manyUpTo
    (fun after _ => advances after) (Nat.lt_succ_self cursor.rest.length)
  refine ⟨last, reaches, Prod.ext ?_ last_eq.symm⟩
  have nothing : (if (step last).1 then some () else none : Option Unit) = none := nothing
  simpa using nothing

/-- The dimensions of an array end where no bracket follows. -/
theorem stays_of_bracketsStep {last after : Cursor} (ends : bracketsStep last = (false, after)) :
    last = after ∧ after.isAt .openBracket = false := by
  have missing : last.isAt .openBracket = false := congrArg Prod.fst ends
  have stays : (skipBrackets last).2 = after := congrArg Prod.snd ends
  rw [skipBrackets, skipBalanced, if_neg (Bool.eq_false_iff.mp missing)] at stays
  exact ⟨stays, stays ▸ missing⟩

section Rules

variable {rules : Rules} (account : rules.Account)

include account

/-- An expression is read from some token on. -/
theorem read_expr (before : Cursor) (scanned : before.IsScanned) :
    ⦃before.place⦄ rules.expr ⦃⇓ result after => ⌜Accounted? result before after ∧
      (result.isSome → before.ReachesOn after)⌝⦄ := by
  refine triple_iff.mpr ?_
  rintro cursor rfl
  have read := triple_iff.mp (account.reads.expr cursor) cursor rfl
  exact ⟨triple_iff.mp (account.expr cursor scanned) cursor rfl, read.2⟩

theorem accounts_lambdaWith (before : Cursor) (scanned : before.IsScanned)
    (found : before.isAtLambda) :
    ⦃before.place⦄ lambdaWith rules ⦃⇓ expr after => ⌜expr.WholeAccounts before after⌝⦄ := by
  have body := read_expr account
  have arrow := isAt_arrow_of_isAtLambda found
  mvcgen [lambdaWith, place_missing_exact, body, place_skipParens_exact, crosses_skipBraces,
    -onward_lambdaWith, -onward_missing, -placed_lambdaWith, -placed_missing, -Rules.Onward.expr,
    -Rules.Placed.expr, -place_advance, -onward_skipParens, -place_skipParens, -onward_skipBraces,
    -place_skipBraces]
  all_goals clear body
  all_goals grind -ring -linarith [advance_one, Cursor.crosses_lambda_braces,
    Cursor.crosses_lambda_expr]

theorem accounts_valueWith (before : Cursor) (scanned : before.IsScanned) :
    ⦃before.place⦄ valueWith rules ⦃⇓ expr after => ⌜expr.WholeAccounts before after⌝⦄ := by
  have body := accounts_orMissing account.expr
  mvcgen [valueWith, body, crosses_skipBraces, -onward_valueWith, -placed_valueWith,
    -onward_orMissing, -placed_orMissing, -onward_skipBraces, -place_skipBraces]
  all_goals clear body
  all_goals grind -ring -linarith

theorem accounts_argument (before : Cursor) (scanned : before.IsScanned) :
    ⦃before.place⦄ rules.expr ⦃⇓ result after => ⌜Accounted? result before after ∧
      (before.isAtClosing → result = none) ∧
        ∀ expr, result = some expr → expr.Ends before after⌝⦄ := by
  refine triple_iff.mpr ?_
  rintro cursor rfl
  exact ⟨triple_iff.mp (account.expr cursor scanned) cursor rfl,
    triple_iff.mp (account.closed cursor scanned) cursor rfl,
    triple_iff.mp (account.ends cursor scanned) cursor rfl⟩

theorem accounts_argumentOrMissing (before : Cursor) (scanned : before.IsScanned) :
    ⦃before.place⦄ argumentOrMissing rules ⦃⇓ argument after =>
      ⌜argument.WholeAccounts before after ∧
        (before.isAtClosing → ∃ span, argument = .missing span) ∧
          (argument = .missing argument.span ∨ argument.Ends before after)⌝⦄ := by
  have argument := accounts_argument account
  mvcgen [argumentOrMissing, argument, place_missing_exact, -Rules.Onward.expr,
    -Rules.Placed.expr, -onward_missing, -placed_missing, -place_advance]
  all_goals clear argument
  case vc1 here => exact here ▸ scanned
  case vc2 here _ _ _ _ read =>
    subst here
    obtain ⟨accounts, at_closing, ends⟩ := read
    refine ⟨accounts, fun closing => ?_, .inr (ends _ rfl)⟩
    cases at_closing closing
  case vc3 here _ _ _ _ _ nothing _ _ skipped read =>
    subst here
    obtain ⟨rfl, rfl⟩ := nothing
    exact ⟨.missing (read.1.trans skipped.1), fun _ => ⟨_, rfl⟩, .inl rfl⟩

theorem read_argumentWith (before : Cursor) (scanned : before.IsScanned) :
    ⦃before.place⦄ argumentWith rules ⦃⇓ result after => ⌜ArgumentRead? result before after⌝⦄ := by
  rw [argumentWith_eq]
  have argument := accounts_argumentOrMissing account
  mvcgen [argument, place_afterArgument]
  case vc1 here ends => exact ⟨here, here ▸ ends⟩
  case vc2 here _ => exact here ▸ scanned
  case vc3 here more _ _ read _ _ =>
    subst here
    rintro rfl ⟨middle, strays, separates⟩
    obtain ⟨accounts, at_closing, ends⟩ := read
    exact argumentRead?_of_accounts more at_closing accounts ends strays separates

theorem takes_argumentsWith (before : Cursor) (scanned : before.IsScanned)
    (found : before.isAt .openParen) :
    ⦃before.place⦄ argumentsWith rules ⦃⇓ arguments after =>
      ⌜before.Takes (parens (Expr.readings arguments)) after⌝⦄ := by
  rw [argumentsWith_eq]
  have arguments :=
    takes_manyArguments (advances_argumentWith account.reads) (read_argumentWith account)
  mvcgen [arguments, place_accept_exact, -onward_many, -place_accept, -place_accept_found,
    -place_accept_eq, -placed_manyExprs]
  all_goals clear arguments
  case vc1 here _ _ opens => grind -ring -linarith
  case vc2 here _ _ opens _ _ took _ _ closes =>
    subst here
    obtain ⟨rfl, rfl⟩ := opens
    rw [found, if_pos rfl] at took
    exact ((Cursor.takes_showsKinds found).mul took).mul (Cursor.takes_or_lacks closes)

/-- An allocation reads an array creation, or a type with arguments and a class body. -/
theorem takes_creationWith (outer : Option Expr) (start : Nat) (before : Cursor)
    (scanned : before.IsScanned) (found : before.isAtWord "new") :
    ⦃before.place⦄ creationWith rules outer start ⦃⇓ expr after => ⌜before.ReachesOn after ∧
      (before.Crosses ExcerptKind.arrayCreation.IsWhole after ∧
          expr = .excerpt (after.spanFrom start) .arrayCreation ∨
        ∃ type arguments, expr = Expr.allocated outer (after.spanFrom start) type arguments none ∧
            before.Takes (Expr.allocation type arguments (Expr.readings arguments)) after ∨
          before.Crosses EndsInBody after ∧ ∃ body,
            expr = Expr.allocated outer (after.spanFrom start) type arguments (some body))⌝⦄ := by
  have arguments := takes_argumentsWith account
  mvcgen [creationWith, arguments, ends_repeatWhile, crosses_skipBraces, takes_acceptWord,
    place_typeArguments, takes_typeRef, -onward_creationWith, -placed_creationWith,
    -extended_creationWith, -onward_argumentsWith, -placed_argumentsWith, -place_acceptWord,
    -place_acceptWord_eq, -place_acceptWord_found, -onward_skipTypeArguments,
    -place_skipTypeArguments, -onward_typeRef, -placed_typeRef, -onward_repeatWhile,
    -onward_skipBraces, -place_skipBraces]
  all_goals clear arguments
  case vc1 | vc2 | vc5 => grind -ring -linarith
  case vc3 => exact advances_bracketsStep
  case vc4 here _ _ word _ _ skips _ _ type _ _ after dimensions _ _ elements _ _ =>
    rintro rfl rfl
    obtain ⟨last, more, ends⟩ := dimensions
    obtain ⟨rfl, no_bracket⟩ := stays_of_bracketsStep ends
    have onward : before.ReachesOn last := by grind -ring -linarith
    refine ⟨onward.trans elements.reaches, .inl ⟨?_, rfl⟩⟩
    exact .behind onward.reaches (Cursor.crosses_arrayCreation no_bracket elements)
      (fun front _ => .append rfl front)
  case vc7 here _ _ word _ _ skips _ _ type _ _ _ _ middle arguments _ opens _ _ body =>
    have onward : before.ReachesOn middle := by grind -ring -linarith
    have copied := Cursor.crosses_body onward.reaches opens body
    exact ⟨onward.trans body.reaches, .inr ⟨_, _, .inr ⟨copied, _, rfl⟩⟩⟩
  case vc9 here _ _ word _ _ skips _ middle type _ _ _ _ opens _ _ body =>
    have onward : before.ReachesOn middle := by grind -ring -linarith
    have copied := Cursor.crosses_body onward.reaches opens body
    exact ⟨onward.trans body.reaches, .inr ⟨_, _, .inr ⟨copied, _, rfl⟩⟩⟩
  case vc8 here _ _ word _ _ skips _ _ type _ _ _ _ _ arguments _ bodiless =>
    subst here
    have no_body := Cursor.takes_no_kind (Bool.eq_false_iff.mpr bodiless)
    refine ⟨by grind -ring -linarith, .inr ⟨_, _, .inl ⟨rfl, ?_⟩⟩⟩
    refine (((word.2.mul skips.takes).mul type).mul ?_).mul no_body
    split
    · exact arguments.inr
    · exact arguments
  case vc10 here _ _ word _ _ skips _ _ type _ _ bare _ bodiless =>
    subst here
    have no_arguments := Cursor.takes_no_kind (Bool.eq_false_iff.mpr bare)
    have no_body := Cursor.takes_no_kind (Bool.eq_false_iff.mpr bodiless)
    refine ⟨by grind -ring -linarith, .inr ⟨_, _, .inl ⟨rfl, ?_⟩⟩⟩
    exact (((word.2.mul skips.takes).mul type).mul no_arguments.inl).mul no_body

theorem accounts_creationWith (start : Nat) (before : Cursor) (scanned : before.IsScanned)
    (found : before.isAtWord "new") (here : start = before.here) :
    ⦃before.place⦄ creationWith rules none start ⦃⇓ expr after =>
      ⌜expr.Accounts before after ∧ expr.isPrimary⌝⦄ := by
  refine triple_iff.mpr ?_
  rintro cursor rfl
  obtain ⟨reachesOn, read⟩ :=
    triple_iff.mp (takes_creationWith account none start cursor scanned found) cursor rfl
  subst here
  obtain ⟨crosses, expr_eq⟩ | ⟨type, arguments, ⟨expr_eq, takes⟩ | ⟨crosses, body, expr_eq⟩⟩ := read
  all_goals rw [expr_eq]
  · exact ⟨.excerpt scanned reachesOn crosses, rfl⟩
  · exact ⟨.of_takes takes (scanned.here_lt_behind reachesOn) rfl, rfl⟩
  · exact ⟨.copy scanned reachesOn crosses rfl rfl, rfl⟩

theorem continues_creationWith (outer : Expr) (origin before : Cursor) (scanned : before.IsScanned)
    (found : before.isAtWord "new")
    (dotted : origin.Takes (showsKinds [.dot] * (1 + passes typeArguments)) before) :
    ⦃before.place⦄ creationWith rules (some outer) outer.span.start ⦃⇓ expr after =>
      ⌜outer.ContinuesPrimary origin expr after⌝⦄ := by
  refine triple_iff.mpr ?_
  rintro cursor rfl
  obtain ⟨-, read⟩ := triple_iff.mp
    (takes_creationWith account (some outer) outer.span.start cursor scanned found) cursor rfl
  obtain ⟨crosses, expr_eq⟩ | ⟨type, arguments, ⟨expr_eq, takes⟩ | ⟨crosses, body, expr_eq⟩⟩ := read
  all_goals rw [expr_eq]
  · exact ⟨.excerpt (.behind dotted.reaches crosses (fun front _ => .append rfl front)) rfl, rfl⟩
  · refine ⟨.extend (dotted.mul takes) ?_ outer.lead_le rfl
      (fun missing => by cases missing) rfl, rfl⟩
    simp only [Expr.allocated, Expr.reading, mul_assoc]
    rfl
  · exact ⟨.copy (.behind dotted.reaches crosses (fun front _ => .append front))
      (fun front _ => .append front) rfl rfl rfl rfl, rfl⟩

theorem accounts_wordWith {token : Token} {rest : List Token} (before : Cursor)
    (scanned : before.IsScanned) (head : before.rest = token :: rest) (kind : token.kind = .word) :
    ⦃before.place⦄ wordWith rules token
      ⦃⇓ result after => ⌜OperandHeld? result before after⌝⦄ := by
  have arguments := takes_argumentsWith account
  have creation := accounts_creationWith account
  have copied (text_eq : token.text = "switch") {middle after : Cursor} :=
    @Cursor.crosses_switch before middle after token rest head
      (by simp [Token.isWord, kind, text_eq])
  mvcgen [wordWith, arguments, creation, passesPairs_skipBracketPairs, crosses_skipParens,
    crosses_skipBraces, place_advance_exact, -onward_wordWith, -placed_wordWith,
    -onward_argumentsWith, -placed_argumentsWith, -onward_creationWith, -placed_creationWith,
    -onward_skipBracketPairs, -place_skipBracketPairs, -onward_skipParens, -place_skipParens,
    -onward_skipBraces, -place_skipBraces, -onward_advance, -place_advance, -place_advance_one,
    -place_advance_two]
  all_goals clear arguments creation
  case vc12 here _ _ word _ _ pairs literal _ _ skipped _ _ read =>
    obtain ⟨dotted, is_class⟩ := Bool.and_eq_true_iff.mp literal
    obtain ⟨rfl, rfl⟩ := read
    subst here word skipped
    have onward := (Cursor.reachesOn_tail head).trans pairs.reaches
    have literal := Cursor.crosses_dotted_class .refl dotted is_class
    have accounts := Expr.Accounts.excerpt scanned (onward.trans literal.reaches)
      (Cursor.crosses_dotted_class onward.reaches dotted is_class)
    rw [Cursor.here_eq_start head] at accounts
    exact ⟨accounts.held, rfl⟩
  all_goals grind -ring -linarith [LiteralKind.tokenKind]

/-- An operand behind type arguments that are passed over. -/
theorem accounts_primary_after (origin before : Cursor) (scanned : before.IsScanned)
    (takes : origin.Takes (passes typeArguments) before) :
    ⦃before.place⦄ rules.primary ⦃⇓ result after => ⌜OperandHeld? result origin after⌝⦄ := by
  refine triple_iff.mpr ?_
  rintro cursor rfl
  have read := triple_iff.mp (account.primary cursor scanned) cursor rfl
  cases result_eq : (rules.primary cursor).1 with
  | none =>
      rw [result_eq] at read
      exact takes.reaches.trans read
  | some operand =>
      rw [result_eq] at read
      exact ⟨.behind_typeArguments takes read.1 read.2, read.2⟩

theorem accounts_primaryWith (before : Cursor) (scanned : before.IsScanned) :
    ⦃before.place⦄ primaryWith rules
      ⦃⇓ result after => ⌜OperandHeld? result before after⌝⦄ := by
  have words := @accounts_wordWith rules account
  have inner := accounts_orMissing account.expr
  have operand := accounts_primary_after account
  mvcgen [primaryWith, words, inner, operand, crosses_skipBraces, takes_skipTypeArguments,
    takes_accept, -onward_primaryWith, -placed_primaryWith, -onward_skipBraces, -place_skipBraces,
    -onward_wordWith, -placed_wordWith, -onward_orMissing, -placed_orMissing,
    -Rules.Onward.primary, -Rules.Placed.primary, -onward_skipTypeArguments,
    -place_skipTypeArguments, -place_advance, -place_accept, -place_accept_found,
    -place_accept_eq]
  all_goals clear words inner operand
  all_goals grind -ring -linarith [LiteralKind.tokenKind]

theorem continues_selectionWith (receiver : Expr) (primary : receiver.isPrimary) (before : Cursor)
    (scanned : before.IsScanned) (found : before.isAt .dot) :
    ⦃before.place⦄ selectionWith rules receiver ⦃⇓ result after =>
      ⌜receiver.ContinuesPrimary before (result.getD receiver) after⌝⦄ := by
  have arguments := takes_argumentsWith account
  have creation := continues_creationWith account
  mvcgen [selectionWith, arguments, creation, place_typeArguments, -onward_selectionWith,
    -extended_selectionWith, -onward_argumentsWith, -placed_argumentsWith, -onward_creationWith,
    -placed_creationWith, -extended_creationWith, -onward_skipTypeArguments,
    -place_skipTypeArguments, -place_advance]
  all_goals clear arguments creation
  case vc1 here _ _ dotted _ _ skips none_left =>
    subst here
    obtain ⟨-, rfl⟩ := dotted
    have lost := skips.takes_looseDot found (by simp [Cursor.isAt, none_left])
    exact ⟨.skip_dot lost primary, primary⟩
  case vc2 here _ _ dotted _ _ skips _ _ head other =>
    subst here
    obtain ⟨-, rfl⟩ := dotted
    have lost := skips.takes_looseDot found (by simp [Cursor.isAt, head, other])
    exact ⟨.skip_dot lost primary, primary⟩
  all_goals grind -ring -linarith [Cursor.crosses_classLiteral, ExcerptKind.follows]

theorem awaits_indexWith (array : Expr) (primary : array.isPrimary) (before : Cursor)
    (scanned : before.IsScanned) (found : before.isAt .openBracket) :
    ⦃before.place⦄ indexWith rules array
      ⦃⇓ result after => ⌜array.Awaits before result after⌝⦄ := by
  have index := accounts_orMissing account.expr
  mvcgen [indexWith, index, passesPairs_skipBracketPairs, place_accept_exact, place_advance_exact,
    -onward_indexWith, -extended_indexWith, -onward_orMissing, -placed_orMissing,
    -onward_skipBracketPairs, -place_skipBracketPairs, -place_accept, -place_accept_found,
    -place_accept_eq, -onward_advance, -place_advance, -place_advance_one, -place_advance_two]
  all_goals clear index
  case vc1 here _ _ _ pairs literal _ _ skipped _ _ =>
    subst here
    rintro rfl rfl
    obtain ⟨dotted, is_class⟩ := Bool.and_eq_true_iff.mp literal
    subst skipped
    have literal := Cursor.crosses_dotted_class pairs.reaches dotted is_class
    exact .inl ⟨.excerpt literal rfl, rfl⟩
  case vc4 here _ _ _ opened _ _ index _ _ closes =>
    subst here
    subst opened
    exact .inl ⟨.arrayAccess found index (Cursor.takes_or_supplies closes "]"), rfl⟩
  all_goals grind -ring -linarith

theorem selects_selectorWith (operand : Expr) (primary : operand.isPrimary) (before : Cursor)
    (scanned : before.IsScanned) :
    ⦃before.place⦄ selectorWith rules operand
      ⦃⇓ result after => ⌜operand.Selects before result after⌝⦄ := by
  have selection := continues_selectionWith account
  have index := awaits_indexWith account
  mvcgen [selectorWith, selection, index, selects_methodReference, place_typeArguments,
    -onward_selectorWith, -extended_selectorWith, -onward_selectionWith, -extended_selectionWith,
    -onward_indexWith, -extended_indexWith, -onward_methodReference, -extended_methodReference,
    -onward_skipTypeArguments, -place_skipTypeArguments, -place_advance]
  all_goals clear selection index
  all_goals grind -ring -linarith [Expr.Selects, Expr.Awaits, Cursor.isAt_iff]

theorem accounts_operandWith (before : Cursor) (scanned : before.IsScanned)
    (no_cast : before.NoCast) :
    ⦃before.place⦄ operandWith rules
      ⦃⇓ result after => ⌜OperandAccounted? result before after⌝⦄ := by
  have primary := accounts_primaryWith account
  have selectors (operand : Expr) (middle : Cursor) (held : operand.Held before middle)
      (primary : operand.isPrimary) :
      ⦃middle.place⦄ iterate (selectorWith rules) operand ⦃⇓ result after =>
        ⌜result.Accounts before after ∧ result ≠ .missing result.span⌝⦄ := by
    refine triple_iff.mpr fun cursor here => triple_iff.mp (ends_iterate
      (fun operand after => operand.Held before after ∧ operand.isPrimary)
      (fun operand after => operand.Accounts before after ∧ operand ≠ .missing operand.span)
      (fun operand => advances_iff.mpr (reads_selectorWith account.reads.onward operand))
      (fun operand => triple_iff.mpr ?_) operand) cursor (here ▸ ⟨held, primary⟩)
    rintro after ⟨held, primary⟩
    have selects := triple_iff.mp (selects_selectorWith account operand primary after
      (scanned.reaches held.reaches)) after rfl
    obtain ⟨ends, goes_on⟩ := selects.held scanned held primary
    exact ⟨fun nothing => ⟨ends nothing, Expr.ne_missing_of_isPrimary primary⟩, goes_on⟩
  mvcgen [operandWith, primary, selectors, -onward_operandWith, -placed_operandWith,
    -onward_primaryWith, -placed_primaryWith, -onward_iterate, -extended_iterate]
  all_goals clear primary selectors
  all_goals grind -ring -linarith [Expr.OperandAccounts]

theorem accounts_castWith (before : Cursor) (scanned : before.IsScanned)
    (found : before.isAt .openParen) :
    ⦃before.place⦄ castWith rules ⦃⇓ result after =>
      ⌜(result = none → after = before) ∧ OperandAccounted? result before after⌝⦄ := by
  have lambda := accounts_lambdaWith account
  have operand := operand_orMissing account.unary
  mvcgen [castWith, lambda, operand, takes_typeRef?, takes_castType?, place_accept_exact,
    -onward_castWith, -placed_castWith, -onward_lambdaWith, -placed_lambdaWith, -onward_orMissing,
    -placed_orMissing, -onward_typeRef?, -placed_typeRef?, -onward_castType?, -placed_castType?,
    -place_accept, -place_accept_found, -place_accept_eq, -place_advance]
  all_goals clear lambda operand
  all_goals grind -ring -linarith [TypeRef.written, → Cursor.Takes.of_upTo]

theorem accounts_unaryWith (before : Cursor) (scanned : before.IsScanned) :
    ⦃before.place⦄ unaryWith rules
      ⦃⇓ result after => ⌜OperandAccounted? result before after⌝⦄ := by
  have cast (before : Cursor) (scanned : before.IsScanned) (found : before.isAt .openParen) :
      ⦃before.place⦄ castWith rules ⦃⇓ result after =>
        ⌜(result = none → after = before ∧ before.NoCast) ∧
          OperandAccounted? result before after⌝⦄ := by
    refine triple_iff.mpr ?_
    rintro cursor rfl
    have read := triple_iff.mp (accounts_castWith account cursor scanned found) cursor rfl
    exact ⟨fun nothing => ⟨read.1 nothing, noCast_of_castWith nothing⟩, read.2⟩
  have plain := accounts_operandWith account
  have operand := operand_orMissing account.unary
  mvcgen [unaryWith, cast, plain, operand, -onward_unaryWith, -placed_unaryWith, -onward_castWith,
    -placed_castWith, -onward_operandWith, -placed_operandWith, -onward_orMissing,
    -placed_orMissing, -place_advance]
  all_goals clear cast plain operand
  all_goals grind -ring -linarith

theorem continues_binaryStepWith (least : Nat) (left : Expr) (before : Cursor)
    (scanned : before.IsScanned) :
    ⦃before.place⦄ binaryStepWith rules least left ⦃⇓ result after =>
      ⌜left.Continues before (result.getD left) after⌝⦄ := by
  have right (least : Nat) := operand_orMissing (account.binary least)
  mvcgen [binaryStepWith, right, passes_acceptWord, takes_typeRef, takes_skipParens,
    place_next?_exact, place_advance_exact, -onward_binaryStepWith, -extended_binaryStepWith,
    -onward_orMissing, -placed_orMissing, -place_acceptWord, -place_acceptWord_eq,
    -place_acceptWord_found, -onward_typeRef, -placed_typeRef, -onward_skipParens,
    -place_skipParens, -onward_next?, -place_next?, -onward_advance, -place_advance,
    -place_advance_one]
  all_goals clear right
  case vc4 here tests _ _ middle word _ _ marks _ _ type _ _ parts _ unnamed =>
    subst here
    subst word
    have unbound := Cursor.takes_no_identifier (Bool.eq_false_iff.mpr unnamed)
    exact .instanceOf tests marks type parts unbound
  all_goals grind -ring -linarith

theorem accounts_binaryWith (least : Nat) (before : Cursor) (scanned : before.IsScanned) :
    ⦃before.place⦄ binaryWith rules least
      ⦃⇓ result after => ⌜OperandAccounted? result before after⌝⦄ := by
  have first := accounts_unaryWith account
  have steps := continues_iterate (continues_binaryStepWith account least)
  mvcgen [binaryWith, first, steps, -onward_binaryWith, -placed_binaryWith, -onward_unaryWith,
    -placed_unaryWith, -onward_iterate, -extended_iterate]
  all_goals clear first steps
  all_goals grind -ring -linarith

theorem accounts_conditionalWith (before : Cursor) (scanned : before.IsScanned) :
    ⦃before.place⦄ conditionalWith rules
      ⦃⇓ result after => ⌜OperandAccounted? result before after⌝⦄ := by
  have condition := accounts_binaryWith account 0
  have lambda := accounts_lambdaWith account
  have whenTrue := accounts_orMissing account.expr
  have whenFalse := operand_orMissing account.conditional
  mvcgen [conditionalWith, condition, lambda, whenTrue, whenFalse, place_accept_exact,
    -onward_conditionalWith, -placed_conditionalWith, -onward_binaryWith, -placed_binaryWith,
    -onward_lambdaWith, -placed_lambdaWith, -onward_orMissing, -placed_orMissing, -place_accept,
    -place_accept_found, -place_accept_eq]
  all_goals clear condition lambda whenTrue whenFalse
  case vc6 | vc8 =>
    rename_i here _ condition _ _ read asked found _ question _ _ whenTrue _ _ colon _ _ _ _ _
    subst here
    obtain ⟨rfl, rfl⟩ := question
    rw [if_pos found] at whenTrue
    refine ⟨(Expr.Continues.conditional found whenTrue (Cursor.takes_or_supplies colon ":")
      ?_).operandAccounts scanned read.1 read.2, Expr.noConfusion⟩
    grind -ring -linarith
  all_goals grind -ring -linarith

theorem accounts_exprWith (before : Cursor) (scanned : before.IsScanned) :
    ⦃before.place⦄ exprWith rules ⦃⇓ result after => ⌜Accounted? result before after⌝⦄ := by
  have lambda := accounts_lambdaWith account
  have target := accounts_conditionalWith account
  have value := accounts_valueWith account
  mvcgen [exprWith, lambda, target, value, place_advance_exact, -onward_exprWith, -placed_exprWith,
    -onward_lambdaWith, -placed_lambdaWith, -onward_conditionalWith, -placed_conditionalWith,
    -onward_valueWith, -placed_valueWith, -onward_advance, -place_advance]
  all_goals clear lambda target value
  case vc8 here no_lambda _ target _ _ read op width found _ _ after _ _ value =>
    subst here
    subst after
    have takes := Cursor.takes_assignOp? found
    have assigned : target.Continues _ _ _ := .assignment takes value
    exact .of_operand (assigned.operandAccounts scanned read.1 read.2)
      (Bool.eq_false_iff.mpr no_lambda)
  all_goals grind -ring -linarith

end Rules

theorem closed_exprWith (rules : Rules) (before : Cursor) :
    ⦃before.place⦄ exprWith rules ⦃⇓ result _ => ⌜before.isAtClosing → result = none⌝⦄ := by
  refine triple_iff.mpr ?_
  rintro ⟨_ | ⟨⟨kind, text, span⟩, rest⟩, behind⟩ rfl closing
  · cases closing
  · have kind_eq : kind = .closeBrace ∨ kind = .closeBracket := by
      simpa [Cursor.isAtClosing, Cursor.isAt] using closing
    rcases kind_eq with rfl | rfl <;> rfl

/-- The rules that are bounded by the place read what their bodies do, or nothing. -/
theorem place_shortRules {rule : Rules → Parser (Option Expr)}
    {holds : Option Expr → Cursor → Cursor → Prop} {n : Nat}
    (same : ∀ {left right : Rules} {cursor : Cursor}, left.SameAt right cursor →
      rule left cursor = rule right cursor)
    (nothing : ∀ cursor, holds (rule (rules 0) cursor).1 cursor (rule (rules 0) cursor).2)
    (body : ∀ m < n, ∀ before : Cursor, before.IsScanned →
      ⦃before.place⦄ rule (shortRules m).around ⦃⇓ result after => ⌜holds result before after⌝⦄)
    (before : Cursor) (scanned : before.IsScanned) :
    ⦃before.place⦄ rule (shortRules n) ⦃⇓ result after => ⌜holds result before after⌝⦄ := by
  refine triple_iff.mpr ?_
  rintro cursor rfl
  by_cases short : cursor.rest.length < n
  · obtain ⟨m, rfl⟩ := Nat.exists_eq_succ_of_ne_zero (Nat.ne_zero_of_lt short)
    have shorter := Nat.le_of_lt_succ short
    rw [same (shortRules_succ_eq scanned.exists_inOrder shorter)]
    exact triple_iff.mp (body m (Nat.lt_succ_self m) cursor scanned) cursor rfl
  · rw [same (shortRules_of_long (Nat.not_lt.mp short))]
    exact nothing cursor

/-- The rules that are bounded by the place read an expression as the grammar does. -/
theorem ends_shortRules (n : Nat) (before : Cursor) (scanned : before.IsScanned) :
    ⦃before.place⦄ (shortRules n).expr
      ⦃⇓ result after => ⌜∀ expr, result = some expr → expr.Ends before after⌝⦄ := by
  refine triple_iff.mpr ?_
  rintro cursor rfl expr found
  by_cases short : cursor.rest.length < n
  · have same : (shortRules n).expr cursor = Parser.expr cursor :=
      (shortRules_eq scanned.exists_inOrder short (Nat.lt_add_of_pos_right (Nat.succ_pos 1))).expr
    exact ends_of_expr (same.symm.trans (Prod.ext found rfl))
  · rw [(shortRules_of_long (Nat.not_lt.mp short)).expr] at found
    cases found

theorem account_shortRules (n : Nat) : (shortRules n).Account := by
  induction n using Nat.strong_induction_on with
  | _ n induction =>
      exact
        { reads := reads_variedRules _
          expr := place_shortRules Rules.SameAt.expr (fun _ => .refl) fun m less =>
            accounts_exprWith (induction m less)
          closed := place_shortRules Rules.SameAt.expr (fun _ _ => rfl) fun m _ before _ =>
            closed_exprWith (shortRules m) before
          ends := ends_shortRules n
          conditional := place_shortRules Rules.SameAt.conditional (fun _ => .refl) fun m less =>
            accounts_conditionalWith (induction m less)
          binary := fun least => place_shortRules (fun same => same.binary least) (fun _ => .refl)
            fun m less => accounts_binaryWith (induction m less) least
          unary := place_shortRules Rules.SameAt.unary (fun _ => .refl) fun m less =>
            accounts_unaryWith (induction m less)
          primary := place_shortRules Rules.SameAt.primary (fun _ => .refl) fun m less =>
            accounts_primaryWith (induction m less) }

end Parser

end JavaOutline
