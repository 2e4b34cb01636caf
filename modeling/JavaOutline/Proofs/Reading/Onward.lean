import Mathlib
import JavaOutline.Proofs.Reading.Reach
import JavaOutline.Reading.Stmt

/-!
# Reading goes on

A parser may look ahead and go back, but where it stops is never before where it began: all that it
reads it reads token by token, and it goes back only to places where it has been. This holds of
every rule below the statements, whatever the tokens are.
-/

set_option mvcgen.warning false

open Std.Do

namespace JavaOutline

namespace Cursor

theorem reaches_afterBalanced (opening closing : TokenKind) (depth behind : Nat)
    (rest : List Token) :
    Reaches ⟨rest, behind⟩ (afterBalanced opening closing depth behind rest) := by
  fun_induction afterBalanced opening closing depth behind rest with
  | case1 | case2 => exact .refl
  | case3 depth behind token rest next induction => exact reaches_cons induction

theorem reaches_beforeStop (stops : List TokenKind) (depth behind : Nat) (rest : List Token) :
    Reaches ⟨rest, behind⟩ (beforeStop stops depth behind rest) := by
  fun_induction beforeStop stops depth behind rest with
  | _ => grind -ring -linarith

theorem reaches_beforeAny (stops : List TokenKind) (behind : Nat) (rest : List Token) :
    Reaches ⟨rest, behind⟩ (beforeAny stops behind rest) := by
  fun_induction beforeAny stops behind rest with
  | case1 | case2 => exact .refl
  | case3 behind token rest goes_on induction => exact reaches_cons induction

theorem reaches_beforeBody (depth behind : Nat) (rest : List Token) :
    Reaches ⟨rest, behind⟩ (beforeBody depth behind rest) := by
  fun_induction beforeBody depth behind rest with
  | case1 | case2 => exact .refl
  | case3 behind token rest goes_on induction => exact reaches_cons induction
  | case4 behind token rest depth next induction => exact reaches_cons induction

theorem reaches_afterBrackets (behind : Nat) (rest : List Token) :
    Reaches ⟨rest, behind⟩ (afterBrackets behind rest).2 := by
  fun_induction afterBrackets behind rest with
  | case1 => grind -ring -linarith
  | case2 | case3 => exact .refl

theorem reaches_afterDotted (behind : Nat) (rest : List Token) :
    Reaches ⟨rest, behind⟩ (afterDotted behind rest).2 := by
  fun_induction afterDotted behind rest with
  | case1 => grind -ring -linarith
  | case2 | case3 => exact .refl

theorem reaches_typeRest? {depth behind : Nat} {text : String} {rest : List Token}
    {result : String} {after : Cursor}
    (found : typeRest? depth text behind rest = some (result, after)) :
    Reaches ⟨rest, behind⟩ after := by
  fun_induction typeRest? depth text behind rest with
  | _ => grind -ring -linarith

theorem reaches_afterTypeArguments? {depth behind : Nat} {rest : List Token} {after : Cursor}
    (found : afterTypeArguments? depth behind rest = some after) :
    Reaches ⟨rest, behind⟩ after := by
  induction rest generalizing depth behind with
  | nil => cases depth <;> grind -ring -linarith [afterTypeArguments?]
  | cons token rest induction => cases depth <;> grind -ring -linarith [afterTypeArguments?]

end Cursor

/-- That a place comes after `origin`. -/
abbrev Cursor.onward (origin : Cursor) : Assertion (.arg Cursor .pure) :=
  fun cursor => ⌜origin.Reaches cursor⌝

/-- That a place is the given one. -/
abbrev Cursor.place (before : Cursor) : Assertion (.arg Cursor .pure) :=
  fun cursor => ⌜cursor = before⌝

namespace Parser

variable {α : Type}

theorem triple_iff {p : Parser α} {P : Cursor → Prop} {Q : α → Cursor → Prop} :
    ⦃fun cursor => ⌜P cursor⌝⦄ p ⦃⇓ value cursor => ⌜Q value cursor⌝⦄ ↔
      ∀ cursor, P cursor → Q (p cursor).1 (p cursor).2 :=
  Iff.rfl

/-- A parser whose result stands after its place reads on from every place before that. -/
theorem onward_of_reaches {p : Parser α} (reaches : ∀ cursor : Cursor, cursor.Reaches (p cursor).2)
    (origin : Cursor) : ⦃origin.onward⦄ p ⦃⇓ _ => origin.onward⦄ :=
  triple_iff.mpr fun cursor before => before.trans (reaches cursor)

@[spec]
theorem discard_eq_bind (p : Parser α) : discard p = (p >>= fun _ => pure ()) := rfl

@[spec]
theorem onward_next? (origin : Cursor) : ⦃origin.onward⦄ next? ⦃⇓ _ => origin.onward⦄ :=
  onward_of_reaches (fun _ => .tail .refl) origin

theorem reaches_advance (n : Nat) (cursor : Cursor) : cursor.Reaches (advance n cursor).2 := by
  induction n generalizing cursor with
  | zero => exact .refl
  | succ n induction => exact Cursor.Reaches.trans (.tail .refl) (induction cursor.tail)

@[spec]
theorem place_advance_one (before : Cursor) :
    ⦃before.place⦄ advance 1 ⦃⇓ _ after => ⌜before.Reaches after ∧ after = before.tail⌝⦄ := by
  refine triple_iff.mpr ?_
  rintro cursor rfl
  exact ⟨.tail .refl, rfl⟩

@[spec low]
theorem onward_advance (n : Nat) (origin : Cursor) :
    ⦃origin.onward⦄ advance n ⦃⇓ _ => origin.onward⦄ :=
  onward_of_reaches (reaches_advance n) origin

theorem passes_accept (kind : TokenKind) (cursor : Cursor) :
    cursor.Passes kind (accept kind cursor).2 := by
  unfold accept
  split
  · next found => exact .inr ⟨found, rfl⟩
  · exact .inl rfl

@[spec]
theorem place_accept (kind : TokenKind) (before : Cursor) :
    ⦃before.place⦄ accept kind ⦃⇓ _ after => ⌜before.Passes kind after⌝⦄ := by
  refine triple_iff.mpr ?_
  rintro cursor rfl
  exact passes_accept kind cursor

@[spec]
theorem place_acceptWord (word : String) (before : Cursor) :
    ⦃before.place⦄ acceptWord word
      ⦃⇓ accepted after => ⌜before.Reaches after ∧ (accepted = false → after = before)⌝⦄ := by
  refine triple_iff.mpr ?_
  rintro cursor rfl
  unfold acceptWord
  split
  · exact ⟨.tail .refl, nofun⟩
  · exact ⟨.refl, fun _ => rfl⟩

@[spec]
theorem spanFrom_eq_get (start : Nat) : spanFrom start = do return (← get).spanFrom start := rfl

/-- What every repetition keeps true holds at the end. -/
theorem iterateUpTo_invariant {step : α → Parser (Option α)} (holds : α → Cursor → Prop)
    (kept : ∀ value, ⦃fun cursor => ⌜holds value cursor⌝⦄ step value
      ⦃⇓ result cursor => ⌜holds (result.getD value) cursor⌝⦄) (n : Nat) (value : α) :
    ⦃fun cursor => ⌜holds value cursor⌝⦄ iterateUpTo step n value
      ⦃⇓ result cursor => ⌜holds result cursor⌝⦄ := by
  induction n generalizing value with
  | zero => mvcgen [iterateUpTo]
  | succ n induction => mvcgen [iterateUpTo, kept, induction]

theorem iterate_invariant {step : α → Parser (Option α)} (holds : α → Cursor → Prop)
    (kept : ∀ value, ⦃fun cursor => ⌜holds value cursor⌝⦄ step value
      ⦃⇓ result cursor => ⌜holds (result.getD value) cursor⌝⦄) (value : α) :
    ⦃fun cursor => ⌜holds value cursor⌝⦄ iterate step value
      ⦃⇓ result cursor => ⌜holds result cursor⌝⦄ :=
  triple_iff.mpr fun cursor start =>
    triple_iff.mp (iterateUpTo_invariant holds kept (cursor.rest.length + 1) value) cursor start

@[spec low]
theorem onward_iterate {step : α → Parser (Option α)}
    (onward : ∀ (origin : Cursor) value, ⦃origin.onward⦄ step value ⦃⇓ _ => origin.onward⦄)
    (value : α) (origin : Cursor) :
    ⦃origin.onward⦄ iterate step value ⦃⇓ _ => origin.onward⦄ :=
  iterate_invariant (fun _ => origin.Reaches) (onward origin) value

theorem many_invariant {step : Parser (Option α)} (holds : Cursor → Prop)
    (kept : ⦃fun cursor => ⌜holds cursor⌝⦄ step ⦃⇓ _ cursor => ⌜holds cursor⌝⦄) :
    ⦃fun cursor => ⌜holds cursor⌝⦄ many step ⦃⇓ _ cursor => ⌜holds cursor⌝⦄ := by
  have upTo (n : Nat) : ⦃fun cursor => ⌜holds cursor⌝⦄ manyUpTo step n
      ⦃⇓ _ cursor => ⌜holds cursor⌝⦄ := by
    induction n with
    | zero => mvcgen [manyUpTo]
    | succ n induction => mvcgen [manyUpTo, kept, induction]
  exact triple_iff.mpr fun cursor first =>
    triple_iff.mp (upTo (cursor.rest.length + 1)) cursor first

theorem repeatWhile_invariant {step : Parser Bool} (holds : Cursor → Prop)
    (kept : ⦃fun cursor => ⌜holds cursor⌝⦄ step ⦃⇓ _ cursor => ⌜holds cursor⌝⦄) :
    ⦃fun cursor => ⌜holds cursor⌝⦄ repeatWhile step ⦃⇓ _ cursor => ⌜holds cursor⌝⦄ := by
  have each : ⦃fun cursor => ⌜holds cursor⌝⦄ (do return if ← step then some () else none)
      ⦃⇓ _ cursor => ⌜holds cursor⌝⦄ := by
    mvcgen [kept]
  exact triple_iff.mpr fun cursor first => triple_iff.mp (many_invariant holds each) cursor first

@[spec low]
theorem onward_many {step : Parser (Option α)}
    (onward : ∀ origin : Cursor, ⦃origin.onward⦄ step ⦃⇓ _ => origin.onward⦄) (origin : Cursor) :
    ⦃origin.onward⦄ many step ⦃⇓ _ => origin.onward⦄ :=
  many_invariant origin.Reaches (onward origin)

@[spec]
theorem onward_repeatWhile {step : Parser Bool}
    (onward : ∀ origin : Cursor, ⦃origin.onward⦄ step ⦃⇓ _ => origin.onward⦄) (origin : Cursor) :
    ⦃origin.onward⦄ repeatWhile step ⦃⇓ _ => origin.onward⦄ :=
  repeatWhile_invariant origin.Reaches (onward origin)

@[spec]
theorem onward_skipBalanced (opening closing : TokenKind) (origin : Cursor) :
    ⦃origin.onward⦄ skipBalanced opening closing ⦃⇓ _ => origin.onward⦄ := by
  refine onward_of_reaches (fun cursor => ?_) origin
  unfold skipBalanced
  split
  · exact Cursor.Reaches.trans (.tail .refl) (Cursor.reaches_afterBalanced _ _ _ _ _)
  · exact .refl

@[spec]
theorem onward_skipParens (origin : Cursor) :
    ⦃origin.onward⦄ skipParens ⦃⇓ _ => origin.onward⦄ :=
  onward_skipBalanced _ _ origin

@[spec]
theorem onward_skipBraces (origin : Cursor) :
    ⦃origin.onward⦄ skipBraces ⦃⇓ _ => origin.onward⦄ :=
  onward_skipBalanced _ _ origin

@[spec]
theorem onward_skipBrackets (origin : Cursor) :
    ⦃origin.onward⦄ skipBrackets ⦃⇓ _ => origin.onward⦄ :=
  onward_skipBalanced _ _ origin

@[spec]
theorem onward_skipTo (stops : List TokenKind) (origin : Cursor) :
    ⦃origin.onward⦄ skipTo stops ⦃⇓ _ => origin.onward⦄ :=
  onward_of_reaches (fun _ => Cursor.reaches_beforeStop _ _ _ _) origin

@[spec]
theorem onward_skipToAny (stops : List TokenKind) (origin : Cursor) :
    ⦃origin.onward⦄ skipToAny stops ⦃⇓ _ => origin.onward⦄ :=
  onward_of_reaches (fun _ => Cursor.reaches_beforeAny _ _ _) origin

@[spec]
theorem onward_skipHeader (origin : Cursor) :
    ⦃origin.onward⦄ skipHeader ⦃⇓ _ => origin.onward⦄ :=
  onward_of_reaches (fun _ => Cursor.reaches_beforeBody _ _ _) origin

@[spec]
theorem onward_skipBracketPairs (origin : Cursor) :
    ⦃origin.onward⦄ skipBracketPairs ⦃⇓ _ => origin.onward⦄ :=
  onward_of_reaches (fun _ => Cursor.reaches_afterBrackets _ _) origin

@[spec]
theorem onward_dottedWords (origin : Cursor) :
    ⦃origin.onward⦄ dottedWords ⦃⇓ _ => origin.onward⦄ :=
  onward_of_reaches (fun _ => Cursor.reaches_afterDotted _ _) origin

-- The rules from here on are put together from those above. What they leave to show is that places
-- reached one after the other are reached.

@[spec]
theorem onward_qualifiedName (origin : Cursor) :
    ⦃origin.onward⦄ qualifiedName ⦃⇓ _ => origin.onward⦄ := by
  mvcgen [qualifiedName] <;> grind -ring -linarith

@[spec]
theorem onward_skipAnnotation (origin : Cursor) :
    ⦃origin.onward⦄ skipAnnotation ⦃⇓ _ => origin.onward⦄ := by
  mvcgen [ skipAnnotation] <;> grind -ring -linarith

@[spec]
theorem onward_atAnnotation (origin : Cursor) :
    ⦃origin.onward⦄ atAnnotation ⦃⇓ _ => origin.onward⦄ :=
  onward_of_reaches (fun _ => .refl) origin

@[spec]
theorem onward_atModifier (origin : Cursor) :
    ⦃origin.onward⦄ atModifier ⦃⇓ _ => origin.onward⦄ :=
  onward_of_reaches (fun _ => .refl) origin

@[spec]
theorem onward_skipAnnotations (origin : Cursor) :
    ⦃origin.onward⦄ skipAnnotations ⦃⇓ _ => origin.onward⦄ := by
  mvcgen [skipAnnotations] <;> grind -ring -linarith

@[spec]
theorem onward_skipVariableModifiers (origin : Cursor) :
    ⦃origin.onward⦄ skipVariableModifiers ⦃⇓ _ => origin.onward⦄ := by
  mvcgen [skipVariableModifiers] <;> grind -ring -linarith

@[spec]
theorem onward_skipModifiers (origin : Cursor) :
    ⦃origin.onward⦄ skipModifiers ⦃⇓ _ => origin.onward⦄ := by
  mvcgen [skipModifiers] <;> grind -ring -linarith

@[spec]
theorem onward_skipTypeArguments (origin : Cursor) :
    ⦃origin.onward⦄ skipTypeArguments ⦃⇓ _ => origin.onward⦄ := by
  refine onward_of_reaches (fun cursor => ?_) origin
  unfold skipTypeArguments
  split
  · split
    · next found =>
      exact Cursor.Reaches.trans (.tail .refl) (Cursor.reaches_afterTypeArguments? found)
    · exact .refl
  · exact .refl

@[spec]
theorem onward_typeRest? (text : String) (origin : Cursor) :
    ⦃origin.onward⦄ typeRest? text ⦃⇓ _ => origin.onward⦄ := by
  refine onward_of_reaches (fun cursor => ?_) origin
  unfold typeRest?
  split
  · next found => exact Cursor.reaches_typeRest? found
  · exact .refl

@[spec]
theorem onward_typeRef? (origin : Cursor) :
    ⦃origin.onward⦄ typeRef? ⦃⇓ _ => origin.onward⦄ := by
  mvcgen [typeRef?] <;> grind -ring -linarith

@[spec]
theorem onward_typeRef (origin : Cursor) :
    ⦃origin.onward⦄ typeRef ⦃⇓ _ => origin.onward⦄ := by
  mvcgen [typeRef] <;> grind -ring -linarith

@[spec]
theorem onward_parameter? (origin : Cursor) :
    ⦃origin.onward⦄ parameter? ⦃⇓ _ => origin.onward⦄ := by
  mvcgen [parameter?] <;> grind -ring -linarith

/-- Whether the rules of the grammar read on. -/
structure Rules.Onward (rules : Rules) : Prop where
  expr (origin : Cursor) : ⦃origin.onward⦄ rules.expr ⦃⇓ _ => origin.onward⦄
  conditional (origin : Cursor) : ⦃origin.onward⦄ rules.conditional ⦃⇓ _ => origin.onward⦄
  binary (least : Nat) (origin : Cursor) :
    ⦃origin.onward⦄ rules.binary least ⦃⇓ _ => origin.onward⦄
  unary (origin : Cursor) : ⦃origin.onward⦄ rules.unary ⦃⇓ _ => origin.onward⦄
  primary (origin : Cursor) : ⦃origin.onward⦄ rules.primary ⦃⇓ _ => origin.onward⦄

attribute [spec] Rules.Onward.expr Rules.Onward.conditional Rules.Onward.binary
  Rules.Onward.unary Rules.Onward.primary

@[spec]
theorem onward_missing (origin : Cursor) : ⦃origin.onward⦄ missing ⦃⇓ _ => origin.onward⦄ :=
  onward_of_reaches (fun _ => .refl) origin

@[spec]
theorem onward_orMissing {parser : Parser (Option Expr)}
    (onward : ∀ origin : Cursor, ⦃origin.onward⦄ parser ⦃⇓ _ => origin.onward⦄)
    (origin : Cursor) : ⦃origin.onward⦄ orMissing parser ⦃⇓ _ => origin.onward⦄ := by
  mvcgen [orMissing, onward] <;> grind -ring -linarith

@[spec]
theorem onward_excerptFrom (start : Nat) (kind : ExcerptKind) (origin : Cursor) :
    ⦃origin.onward⦄ excerptFrom start kind ⦃⇓ _ => origin.onward⦄ := by
  mvcgen [excerptFrom]

@[spec]
theorem onward_methodReference (receiver : Expr) (origin : Cursor) :
    ⦃origin.onward⦄ methodReference receiver ⦃⇓ _ => origin.onward⦄ := by
  mvcgen [methodReference] <;> grind -ring -linarith

@[spec]
theorem onward_castType? (type : TypeRef) (origin : Cursor) :
    ⦃origin.onward⦄ castType? type ⦃⇓ _ => origin.onward⦄ := by
  mvcgen [castType?] <;> grind -ring -linarith

section

variable {rules : Rules} (onward : rules.Onward)

include onward

@[spec]
theorem onward_lambdaWith (origin : Cursor) :
    ⦃origin.onward⦄ lambdaWith rules ⦃⇓ _ => origin.onward⦄ := by
  mvcgen [lambdaWith] <;> grind -ring -linarith

@[spec]
theorem onward_valueWith (origin : Cursor) :
    ⦃origin.onward⦄ valueWith rules ⦃⇓ _ => origin.onward⦄ := by
  mvcgen [valueWith] <;> grind -ring -linarith

@[spec]
theorem onward_argumentsWith (origin : Cursor) :
    ⦃origin.onward⦄ argumentsWith rules ⦃⇓ _ => origin.onward⦄ := by
  mvcgen [argumentsWith] <;> grind -ring -linarith

@[spec]
theorem onward_creationWith (outer : Option Expr) (start : Nat) (origin : Cursor) :
    ⦃origin.onward⦄ creationWith rules outer start ⦃⇓ _ => origin.onward⦄ := by
  mvcgen [creationWith] <;> grind -ring -linarith

@[spec]
theorem onward_wordWith (token : Token) (origin : Cursor) :
    ⦃origin.onward⦄ wordWith rules token ⦃⇓ _ => origin.onward⦄ := by
  mvcgen [wordWith] <;> grind -ring -linarith

@[spec]
theorem onward_primaryWith (origin : Cursor) :
    ⦃origin.onward⦄ primaryWith rules ⦃⇓ _ => origin.onward⦄ := by
  mvcgen [primaryWith] <;> grind -ring -linarith

@[spec]
theorem onward_selectionWith (receiver : Expr) (origin : Cursor) :
    ⦃origin.onward⦄ selectionWith rules receiver ⦃⇓ _ => origin.onward⦄ := by
  mvcgen [selectionWith] <;> grind -ring -linarith

@[spec]
theorem onward_indexWith (array : Expr) (origin : Cursor) :
    ⦃origin.onward⦄ indexWith rules array ⦃⇓ _ => origin.onward⦄ := by
  mvcgen [indexWith] <;> grind -ring -linarith

@[spec]
theorem onward_selectorWith (operand : Expr) (origin : Cursor) :
    ⦃origin.onward⦄ selectorWith rules operand ⦃⇓ _ => origin.onward⦄ := by
  mvcgen [selectorWith] <;> grind -ring -linarith

@[spec]
theorem onward_operandWith (origin : Cursor) :
    ⦃origin.onward⦄ operandWith rules ⦃⇓ _ => origin.onward⦄ := by
  mvcgen [operandWith] <;> grind -ring -linarith

@[spec]
theorem onward_castWith (origin : Cursor) :
    ⦃origin.onward⦄ castWith rules ⦃⇓ _ => origin.onward⦄ := by
  mvcgen [castWith] <;> grind -ring -linarith

@[spec]
theorem onward_unaryWith (origin : Cursor) :
    ⦃origin.onward⦄ unaryWith rules ⦃⇓ _ => origin.onward⦄ := by
  mvcgen [unaryWith] <;> grind -ring -linarith

@[spec]
theorem onward_binaryStepWith (least : Nat) (left : Expr) (origin : Cursor) :
    ⦃origin.onward⦄ binaryStepWith rules least left ⦃⇓ _ => origin.onward⦄ := by
  mvcgen [binaryStepWith] <;> grind -ring -linarith

@[spec]
theorem onward_binaryWith (least : Nat) (origin : Cursor) :
    ⦃origin.onward⦄ binaryWith rules least ⦃⇓ _ => origin.onward⦄ := by
  mvcgen [binaryWith] <;> grind -ring -linarith

@[spec]
theorem onward_conditionalWith (origin : Cursor) :
    ⦃origin.onward⦄ conditionalWith rules ⦃⇓ _ => origin.onward⦄ := by
  mvcgen [conditionalWith] <;> grind -ring -linarith

@[spec]
theorem onward_exprWith (origin : Cursor) :
    ⦃origin.onward⦄ exprWith rules ⦃⇓ _ => origin.onward⦄ := by
  mvcgen [exprWith] <;> grind -ring -linarith

@[spec]
theorem onward_conditionWith (origin : Cursor) :
    ⦃origin.onward⦄ conditionWith rules ⦃⇓ _ => origin.onward⦄ := by
  mvcgen [conditionWith] <;> grind -ring -linarith

@[spec]
theorem onward_declaratorsWith (origin : Cursor) :
    ⦃origin.onward⦄ declaratorsWith rules ⦃⇓ _ => origin.onward⦄ := by
  mvcgen [declaratorsWith] <;> grind -ring -linarith

@[spec]
theorem onward_exprsWith (stop : TokenKind) (origin : Cursor) :
    ⦃origin.onward⦄ exprsWith rules stop ⦃⇓ _ => origin.onward⦄ := by
  mvcgen [exprsWith] <;> grind -ring -linarith

@[spec]
theorem onward_caseValueWith (origin : Cursor) :
    ⦃origin.onward⦄ caseValueWith rules ⦃⇓ _ => origin.onward⦄ := by
  mvcgen [caseValueWith] <;> grind -ring -linarith

@[spec]
theorem onward_caseValuesWith (origin : Cursor) :
    ⦃origin.onward⦄ caseValuesWith rules ⦃⇓ _ => origin.onward⦄ := by
  mvcgen [caseValuesWith] <;> grind -ring -linarith

end

theorem onward_rules (n : Nat) : (rules n).Onward := by
  induction n with
  | zero =>
      exact
        { expr := onward_of_reaches fun _ => .refl
          conditional := onward_of_reaches fun _ => .refl
          binary := fun _ => onward_of_reaches fun _ => .refl
          unary := onward_of_reaches fun _ => .refl
          primary := onward_of_reaches fun _ => .refl }
  | succ n induction =>
      exact
        { expr := onward_exprWith induction
          conditional := onward_conditionalWith induction
          binary := onward_binaryWith induction
          unary := onward_unaryWith induction
          primary := onward_primaryWith induction }

end Parser

end JavaOutline
