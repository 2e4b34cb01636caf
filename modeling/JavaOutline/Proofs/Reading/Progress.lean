import Mathlib
import JavaOutline.Proofs.Reading.PlacedStatements

/-!
# Reading reads tokens

What finds something to read reads at least one token. So a loop over it ends before the tokens do,
and rules that call each other only after reading a token need no more nested calls than there are
tokens.
-/

set_option mvcgen.warning false

open Std.Do

namespace JavaOutline

namespace Cursor

variable {cursor before after : Cursor}

theorem Reaches.lt {n : Nat} (reaches : before.Reaches after) (short : before.rest.length < n) :
    after.rest.length < n :=
  Nat.lt_of_le_of_lt reaches.length_le short

theorem ReachesOn.length_lt (reachesOn : before.ReachesOn after) :
    after.rest.length < before.rest.length := by
  obtain ⟨⟨rest, behind⟩, reaches, more, later⟩ := reachesOn
  cases rest with
  | nil => exact (more rfl).elim
  | cons token rest =>
      exact Nat.lt_of_lt_of_le (Nat.lt_succ_of_le later.length_le) reaches.length_le

theorem isAt_iff {kind : TokenKind} : cursor.isAt kind ↔ cursor.kindAhead? 0 = some kind := by
  obtain ⟨rest, behind⟩ := cursor
  cases rest with
  | nil => exact ⟨nofun, nofun⟩
  | cons token rest => simp [isAt, kindAhead?, ahead?]

theorem isAhead_zero (kinds : List TokenKind) : cursor.isAhead 0 kinds = kinds.any cursor.isAt := by
  obtain ⟨rest, behind⟩ := cursor
  cases rest with
  | nil => simp [isAhead, kindAhead?, ahead?, isAt]
  | cons token rest =>
      change kinds.contains token.kind = kinds.any fun kind => decide (token.kind = kind)
      rw [List.contains_eq_any_beq]
      rfl

/-- What two tokens in a row are. -/
theorem isAt_and_isAhead_cons (first second : TokenKind) (token next : Token) (rest : List Token)
    (behind : Nat) :
    (isAt ⟨token :: next :: rest, behind⟩ first &&
      isAhead ⟨token :: next :: rest, behind⟩ 1 [second]) =
      (decide (token.kind = first) && decide (next.kind = second)) := by
  simp [isAt, isAhead, kindAhead?, ahead?]

@[grind →]
theorem reachesOn_tail_of_atEnd (more : cursor.atEnd = false) : cursor.ReachesOn cursor.tail :=
  reachesOn_tail_of_passed (·.atEnd = false) (fun _ => nofun) more

/-- Where a token is left, reading one more token after some reads at least one. -/
theorem Reaches.reachesOn_tail (reaches : before.Reaches after) (more : before.atEnd = false) :
    before.ReachesOn after.tail := by
  induction reaches with
  | refl => exact reachesOn_tail_of_atEnd more
  | tail _ induction => exact induction.trans (.tail .refl)

grind_pattern Reaches.reachesOn_tail => before.Reaches after, before.atEnd, after.tail

@[grind →]
theorem reachesOn_tail_of_updateOp? {op : UpdateOp} (found : cursor.updateOp? = some op) :
    cursor.ReachesOn cursor.tail :=
  reachesOn_tail_of_passed (·.updateOp? = some op) (fun _ => nofun) found

@[grind →]
theorem reachesOn_tail_of_binaryOp? {op : BinaryOp} {width : Nat}
    (found : cursor.binaryOp? = some (op, width)) :
    cursor.ReachesOn cursor.tail ∧ 0 < width := by
  constructor
  · exact reachesOn_tail_of_passed (·.binaryOp? = some (op, width)) (fun _ => nofun) found
  · unfold binaryOp? at found
    grind -ring -linarith

@[grind →]
theorem reachesOn_tail_of_typeKind? {kind : TypeKind} {width : Nat}
    (found : cursor.typeKind? = some (kind, width)) :
    cursor.ReachesOn cursor.tail ∧ 0 < width := by
  constructor
  · exact reachesOn_tail_of_passed (·.typeKind? = some (kind, width)) (fun _ => nofun) found
  · unfold typeKind? at found
    grind -ring -linarith

@[grind →]
theorem reachesOn_tail_of_isAtLabel (found : cursor.isAtLabel) :
    cursor.ReachesOn cursor.tail :=
  reachesOn_tail_of_passed (·.isAtLabel) (fun _ => nofun) found

end Cursor

open Construct

@[grind →]
theorem OperandRead?.reachesOn {operand : Expr} {before after : Cursor}
    (read : OperandRead? (some operand) before after) : before.ReachesOn after := by
  obtain ⟨placed, solid⟩ := read
  cases placed with
  | cons reaches placed later =>
      exact .of_reaches reaches ((placed.reachesOn solid).trans later.reaches)

namespace Parser

/-- What is known of a parser holds of what it read. -/
theorem of_place {α : Type} {p : Parser α} {Q : α → Cursor → Prop} {value : α}
    {before after : Cursor} (known : ⦃before.place⦄ p ⦃⇓ value after => ⌜Q value after⌝⦄)
    (read : p before = (value, after)) : Q value after := by
  have known := triple_iff.mp known before rfl
  rwa [read] at known

@[spec 20000]
theorem place_accept_found (kind : TokenKind) (before : Cursor) :
    ⦃before.place⦄ accept kind ⦃⇓ accepted after => ⌜before.Passes kind after ∧
      accepted = before.isAt kind ∧ (accepted = true → after = before.tail)⌝⦄ := by
  refine triple_iff.mpr ?_
  rintro cursor rfl
  refine ⟨passes_accept kind cursor, ?_⟩
  unfold accept
  split
  · next found => exact ⟨found.symm, fun _ => rfl⟩
  · next missing => exact ⟨(Bool.eq_false_iff.mpr missing).symm, nofun⟩

@[spec 20000]
theorem place_acceptWord_found (word : String) (before : Cursor) :
    ⦃before.place⦄ acceptWord word ⦃⇓ accepted after => ⌜accepted = before.isAtWord word ∧
      before.Reaches after ∧ after = if accepted then before.tail else before⌝⦄ := by
  refine triple_iff.mpr ?_
  rintro cursor rfl
  unfold acceptWord
  split
  · next found => exact ⟨found.symm, .tail .refl, rfl⟩
  · next missing => exact ⟨(Bool.eq_false_iff.mpr missing).symm, .refl, rfl⟩

@[spec high]
theorem place_advance (n : Nat) (before : Cursor) :
    ⦃before.place⦄ advance n ⦃⇓ _ after =>
      ⌜before.Reaches after ∧ (0 < n → before.tail.Reaches after)⌝⦄ := by
  refine triple_iff.mpr ?_
  rintro cursor rfl
  refine ⟨reaches_advance n cursor, fun positive => ?_⟩
  obtain ⟨n, rfl⟩ := Nat.exists_eq_succ_of_ne_zero (Nat.pos_iff_ne_zero.mp positive)
  exact reaches_advance n cursor.tail

/-! ## Loops -/

section Loops

variable {α : Type} {step : α → Parser (Option α)} {value : α} {cursor : Cursor} {n : Nat}

theorem bind_of_eq {β : Type} {parser : Parser α} {next : α → Parser β} {result : α}
    (read : (parser cursor).1 = result) :
    (parser >>= next) cursor = next result (parser cursor).2 := by
  rw [← read]
  rfl

theorem iterateUpTo_of_none (ends : (step value cursor).1 = none) :
    iterateUpTo step (n + 1) value cursor = (value, (step value cursor).2) := by
  rw [iterateUpTo, bind_of_eq ends]
  rfl

theorem iterateUpTo_of_some {result : α} (goes_on : (step value cursor).1 = some result) :
    iterateUpTo step (n + 1) value cursor = iterateUpTo step n result (step value cursor).2 := by
  rw [iterateUpTo, bind_of_eq goes_on]

theorem iterateUpTo_of_idle (idle : step value cursor = (none, cursor)) (n : Nat) :
    iterateUpTo step n value cursor = (value, cursor) := by
  cases n with
  | zero => rfl
  | succ n => rw [iterateUpTo_of_none (congrArg Prod.fst idle), idle]

theorem manyUpTo_succ (step : Parser (Option α)) (n : Nat) (cursor : Cursor) :
    manyUpTo step (n + 1) cursor = (match (step cursor).1 with
      | none => pure []
      | some value => List.cons value <$> manyUpTo step n) (step cursor).2 := by
  change (match (step cursor).1 with
    | none => pure []
    | some value => manyUpTo step n >>= fun values => pure (value :: values)) (step cursor).2 = _
  cases (step cursor).1 with
  | none => rfl
  | some value => rfl

/-- One more result of a step after those that there are. -/
def pushed (step : Parser (Option α)) (values : List α) : Parser (Option (List α)) :=
  Option.map (fun value => values ++ [value]) <$> step

/-- Collecting the results of a step is a loop on the list of the results so far. -/
theorem iterateUpTo_pushed (step : Parser (Option α)) (n : Nat) (values : List α)
    (cursor : Cursor) : iterateUpTo (pushed step) n values cursor =
      (values ++ (manyUpTo step n cursor).1, (manyUpTo step n cursor).2) := by
  induction n generalizing values cursor with
  | zero => exact Prod.ext (List.append_nil _).symm rfl
  | succ n induction =>
      have pushed_eq : (pushed step values cursor).1 =
        (step cursor).1.map fun value => values ++ [value] := rfl
      rw [manyUpTo_succ]
      cases read : (step cursor).1 with
      | none =>
          rw [iterateUpTo_of_none (by rw [pushed_eq, read]; rfl)]
          exact Prod.ext (List.append_nil _).symm rfl
      | some value =>
          rw [iterateUpTo_of_some (by rw [pushed_eq, read]; rfl), induction, List.append_assoc]
          rfl

theorem many_eq_iterate (step : Parser (Option α)) : many step = iterate (pushed step) [] :=
  funext fun cursor => (iterateUpTo_pushed step (cursor.rest.length + 1) [] cursor).symm

/-- A loop goes on from where its first step ends. -/
theorem reads_iterate {before : Cursor} (onward : ∀ value (origin : Cursor),
      ⦃origin.onward⦄ step value ⦃⇓ _ => origin.onward⦄)
    (reads : ⦃before.place⦄ step value ⦃⇓ _ after => ⌜before.ReachesOn after⌝⦄) :
    ⦃before.place⦄ iterate step value ⦃⇓ _ after => ⌜before.ReachesOn after⌝⦄ := by
  refine triple_iff.mpr ?_
  rintro cursor rfl
  refine (triple_iff.mp reads cursor rfl).trans ?_
  rw [iterate]
  cases read : (step value cursor).1 with
  | none =>
      rw [iterateUpTo_of_none read]
      exact .refl
  | some result =>
      rw [iterateUpTo_of_some read]
      exact triple_iff.mp (iterateUpTo_invariant (fun _ => (step value cursor).2.Reaches)
        (fun value => onward value _) _ result) _ .refl

theorem reads_many {before : Cursor} {step : Parser (Option α)}
    (onward : ∀ origin : Cursor, ⦃origin.onward⦄ step ⦃⇓ _ => origin.onward⦄)
    (reads : ⦃before.place⦄ step ⦃⇓ _ after => ⌜before.ReachesOn after⌝⦄) :
    ⦃before.place⦄ many step ⦃⇓ _ after => ⌜before.ReachesOn after⌝⦄ := by
  rw [many_eq_iterate]
  refine reads_iterate (fun values origin => ?_) ?_
  · exact triple_iff.mpr fun cursor => triple_iff.mp (onward origin) cursor
  · exact triple_iff.mpr fun cursor => triple_iff.mp reads cursor

/-- A loop whose steps read on ends where a step gives nothing. -/
theorem exists_of_manyUpTo {before : Cursor} {step : Parser (Option α)} {n : Nat}
    (reads : ∀ cursor, before.Reaches cursor → cursor.Reaches (step cursor).2 ∧
      ((step cursor).1.isSome → cursor.ReachesOn (step cursor).2))
    (enough : before.rest.length < n) :
    ∃ last, before.Reaches last ∧ (step last).1 = none ∧
      (manyUpTo step n before).2 = (step last).2 := by
  induction n generalizing before with
  | zero => exact absurd enough (Nat.not_lt_zero _)
  | succ n induction =>
      obtain ⟨onward, more⟩ := reads before .refl
      rw [manyUpTo_succ]
      cases read : (step before).1 with
      | none => exact ⟨before, .refl, read, rfl⟩
      | some value =>
          have shorter := (more (by rw [read]; rfl)).length_lt
          obtain ⟨last, reaches, ends, last_eq⟩ :=
            induction (fun cursor later => reads cursor (onward.trans later)) (by omega)
          exact ⟨last, onward.trans reaches, ends, last_eq⟩

end Loops

/-! ## Annotations, modifiers and types -/

@[spec high]
theorem place_atAnnotation (before : Cursor) :
    ⦃before.place⦄ atAnnotation
      ⦃⇓ found after => ⌜after = before ∧ (found = true → before.isAt .atSign)⌝⦄ := by
  refine triple_iff.mpr ?_
  rintro cursor rfl
  exact ⟨rfl, fun found => (Bool.and_eq_true_iff.mp found).1⟩

@[spec high]
theorem place_skipAnnotation (before : Cursor) (found : before.isAt .atSign) :
    ⦃before.place⦄ skipAnnotation ⦃⇓ _ after => ⌜before.ReachesOn after⌝⦄ := by
  mvcgen [ skipAnnotation, - onward_skipAnnotation] <;> grind -ring -linarith

theorem any_head?_of_atModifier {cursor : Cursor} (found : (atModifier cursor).1 = true) :
    cursor.rest.head?.any fun token => token.kind = .word && modifierWords.contains token.text :=
  (Bool.and_eq_true_iff.mp (Bool.and_eq_true_iff.mp found).1).1

@[spec high]
theorem place_atModifier (before : Cursor) :
    ⦃before.place⦄ atModifier
      ⦃⇓ found after => ⌜after = before ∧ (found = true → before.ReachesOn before.tail)⌝⦄ := by
  refine triple_iff.mpr ?_
  rintro cursor rfl
  exact ⟨rfl, fun found => Cursor.reachesOn_tail_of_any (any_head?_of_atModifier found)⟩

@[spec high]
theorem place_skipBracketPairs (before : Cursor) :
    ⦃before.place⦄ skipBracketPairs ⦃⇓ _ after =>
      ⌜before.Reaches after ∧ (before.isAtBrackets → before.ReachesOn after)⌝⦄ := by
  refine triple_iff.mpr ?_
  rintro cursor rfl
  refine ⟨Cursor.reaches_afterBrackets .., fun found => ?_⟩
  match cursor with
  | ⟨[], _⟩ => cases found
  | ⟨[_], _⟩ => cases (Bool.and_eq_true_iff.mp found).2
  | ⟨token :: closing :: rest, behind⟩ =>
      rw [Cursor.isAtBrackets, Cursor.isAt_and_isAhead_cons] at found
      simp only [skipBracketPairs, Cursor.afterBrackets, found, if_true]
      exact (Cursor.reachesOn_tail rfl).trans
        (Cursor.reaches_cons (Cursor.reaches_afterBrackets closing.span.stop rest))

@[spec high]
theorem place_skipTypeArguments (before : Cursor) :
    ⦃before.place⦄ skipTypeArguments ⦃⇓ skipped after => ⌜before.Reaches after ∧
      (skipped = true → before.ReachesOn after) ∧ (skipped = false → after = before)⌝⦄ := by
  refine triple_iff.mpr ?_
  rintro cursor rfl
  unfold skipTypeArguments
  split
  · next found =>
    split
    · next read =>
      have reachesOn := (Cursor.reachesOn_tail_of_isAt found).trans
        (Cursor.reaches_afterTypeArguments? read)
      exact ⟨reachesOn.reaches, fun _ => reachesOn, nofun⟩
    · exact ⟨.refl, nofun, fun _ => rfl⟩
  · exact ⟨.refl, nofun, fun _ => rfl⟩

@[spec high]
theorem place_skipTo (stops : List TokenKind) (before : Cursor) :
    ⦃before.place⦄ skipTo stops ⦃⇓ _ after => ⌜before.Reaches after ∧
      (before.isAhead 0 stops = true → after = before) ∧
      (before.atEnd = false → before.isAhead 0 [.closeParen, .closeBrace, .closeBracket] = false →
        before.isAhead 0 stops = false → before.ReachesOn after)⌝⦄ := by
  refine triple_iff.mpr ?_
  rintro ⟨rest, behind⟩ rfl
  refine ⟨Cursor.reaches_beforeStop .., ?_⟩
  cases rest with
  | nil => exact ⟨fun _ => rfl, nofun⟩
  | cons token rest =>
      refine ⟨fun stop => ?_, fun _ inner goes_on => ?_⟩
      · have stop : stops.contains token.kind = true := stop
        simp only [skipTo, Cursor.beforeStop, stop, decide_true, Bool.and_self, if_true]
      · have goes_on : stops.contains token.kind = false := goes_on
        refine (Cursor.reachesOn_tail rfl).trans ?_
        simp only [skipTo, Cursor.beforeStop, goes_on, Bool.and_false, Bool.false_eq_true, if_false]
        split
        case h_4 | h_5 | h_6 => simp_all [Cursor.isAhead, Cursor.kindAhead?, Cursor.ahead?]
        all_goals exact Cursor.reaches_beforeStop ..

theorem reads_typeRef? (before : Cursor) :
    ⦃before.place⦄ typeRef? ⦃⇓ result after => ⌜before.Reaches after ∧
      (result.isSome → before.ReachesOn after) ∧ (result = none → after = before)⌝⦄ := by
  mvcgen [typeRef?, -onward_typeRef?, -placed_typeRef?] <;> grind -ring -linarith

/-! ## Expressions -/

/-- Whether a parser that began at `before` read on, and read a token if it found something. -/
abbrev ReadOn {α : Type} (result : Option α) (before after : Cursor) : Prop :=
  before.Reaches after ∧ (result.isSome → before.ReachesOn after)

theorem reachesOn_of_readOn {α : Type} {p : Parser (Option α)} {before : Cursor}
    (reads : ⦃before.place⦄ p ⦃⇓ result after => ⌜ReadOn result before after⌝⦄) :
    ⦃before.place⦄ p ⦃⇓ result after => ⌜result.isSome → before.ReachesOn after⌝⦄ :=
  triple_iff.mpr fun cursor place => (triple_iff.mp reads cursor place).2

/-- Whether the rules of the grammar read a token where they read something. -/
structure Rules.Reads (rules : Rules) : Prop where
  onward : rules.Onward
  placed : rules.Placed
  expr (before : Cursor) :
    ⦃before.place⦄ rules.expr ⦃⇓ result after => ⌜ReadOn result before after⌝⦄

theorem length_lt_of_operandRead? {p : Parser (Option Expr)} {operand : Expr}
    {before after : Cursor}
    (read : ⦃before.place⦄ p ⦃⇓ result after => ⌜OperandRead? result before after⌝⦄)
    (found : p before = (some operand, after)) : after.rest.length < before.rest.length :=
  (of_place read found).reachesOn.length_lt

theorem reads_methodReference (receiver : Expr) (before : Cursor) :
    ⦃before.place⦄ methodReference receiver ⦃⇓ _ after => ⌜before.tail.Reaches after⌝⦄ := by
  mvcgen [methodReference, -onward_methodReference, -extended_methodReference] <;>
    grind -ring -linarith

section Onward

variable {rules : Rules} (onward : rules.Onward)

include onward

theorem reads_wordWith (before : Cursor) {token : Token} {rest : List Token}
    (head : before.rest = token :: rest) (kind : token.kind = .word) :
    ⦃before.place⦄ wordWith rules token ⦃⇓ result after => ⌜ReadOn result before after⌝⦄ := by
  mvcgen [wordWith, creationWith, -onward_creationWith, -placed_creationWith,
    -extended_creationWith, -placed_argumentsWith, -onward_wordWith, -placed_wordWith,
    -placed_typeRef] <;> grind -ring -linarith

theorem reads_primaryWith (before : Cursor) :
    ⦃before.place⦄ primaryWith rules ⦃⇓ result after => ⌜ReadOn result before after⌝⦄ := by
  have word := reads_wordWith onward
  mvcgen [primaryWith, word, -onward_wordWith, -placed_wordWith, -onward_primaryWith,
    -placed_primaryWith, -Rules.Placed.expr, -Rules.Placed.primary, -placed_orMissing] <;>
    clear word <;> grind -ring -linarith

theorem reads_lambdaWith (before : Cursor) (found : before.isAtLambda) :
    ⦃before.place⦄ lambdaWith rules ⦃⇓ _ after => ⌜before.ReachesOn after⌝⦄ := by
  mvcgen [lambdaWith, -onward_lambdaWith, -placed_lambdaWith, -Rules.Placed.expr,
    -placed_missing] <;> grind -ring -linarith

theorem reads_selectionWith (receiver : Expr) (before : Cursor) :
    ⦃before.place⦄ selectionWith rules receiver ⦃⇓ _ after => ⌜before.tail.Reaches after⌝⦄ := by
  mvcgen [selectionWith, -onward_selectionWith, -extended_selectionWith, -placed_argumentsWith,
    -placed_creationWith, -extended_creationWith] <;> grind -ring -linarith

theorem reads_indexWith (array : Expr) (before : Cursor)
    (found : before.kindAhead? 0 = some .openBracket) :
    ⦃before.place⦄ indexWith rules array ⦃⇓ _ after => ⌜before.ReachesOn after⌝⦄ := by
  mvcgen [indexWith, -onward_indexWith, -extended_indexWith, -Rules.Placed.expr,
    -placed_orMissing] <;> grind -ring -linarith

theorem reads_selectorWith (operand : Expr) (before : Cursor) :
    ⦃before.place⦄ selectorWith rules operand
      ⦃⇓ result after => ⌜ReadOn result before after⌝⦄ := by
  have selection := reads_selectionWith onward
  have index := reads_indexWith onward
  mvcgen [selectorWith, selection, index, reads_methodReference, -onward_selectorWith,
    -extended_selectorWith, -onward_indexWith, -extended_indexWith, -onward_selectionWith,
    -extended_selectionWith, -onward_methodReference, -extended_methodReference]
  all_goals clear selection index
  all_goals grind -ring -linarith [Cursor.isAt_iff]

theorem reads_operandWith (before : Cursor) :
    ⦃before.place⦄ operandWith rules ⦃⇓ result after => ⌜ReadOn result before after⌝⦄ := by
  have primary := reads_primaryWith onward
  mvcgen [operandWith, primary, -onward_operandWith, -placed_operandWith, -onward_primaryWith,
    -placed_primaryWith, -extended_iterate, -extended_selectorWith] <;>
    clear primary <;> grind -ring -linarith

theorem reads_castWith (before : Cursor) :
    ⦃before.place⦄ castWith rules ⦃⇓ result after => ⌜ReadOn result before after ∧
      (result = none → after = before)⌝⦄ := by
  mvcgen [castWith, -onward_castWith, -placed_castWith, -Rules.Placed.unary, -placed_orMissing,
    -placed_lambdaWith, -placed_castType?, -placed_typeRef?] <;> grind -ring -linarith

theorem reads_unaryWith (before : Cursor) :
    ⦃before.place⦄ unaryWith rules ⦃⇓ result after => ⌜ReadOn result before after⌝⦄ := by
  have cast := reads_castWith onward
  have operand := reads_operandWith onward
  mvcgen [unaryWith, cast, operand, -onward_unaryWith, -placed_unaryWith, -onward_castWith,
    -placed_castWith, -onward_operandWith, -placed_operandWith, -Rules.Placed.unary,
    -placed_orMissing] <;> clear cast operand <;> grind -ring -linarith

theorem reads_binaryStepWith (least : Nat) (operand : Expr) (before : Cursor) :
    ⦃before.place⦄ binaryStepWith rules least operand
      ⦃⇓ result after => ⌜ReadOn result before after⌝⦄ := by
  mvcgen [binaryStepWith, -onward_binaryStepWith, -extended_binaryStepWith, -Rules.Placed.binary,
    -placed_orMissing, -placed_typeRef] <;> grind -ring -linarith

theorem reads_binaryWith (least : Nat) (before : Cursor) :
    ⦃before.place⦄ binaryWith rules least ⦃⇓ result after => ⌜ReadOn result before after⌝⦄ := by
  have unary := reads_unaryWith onward
  mvcgen [binaryWith, unary, -onward_binaryWith, -placed_binaryWith, -onward_unaryWith,
    -placed_unaryWith, -extended_iterate, -extended_binaryStepWith] <;>
    clear unary <;> grind -ring -linarith

theorem reads_conditionalWith (before : Cursor) :
    ⦃before.place⦄ conditionalWith rules ⦃⇓ result after => ⌜ReadOn result before after⌝⦄ := by
  have binary := reads_binaryWith onward
  mvcgen [conditionalWith, binary, -onward_conditionalWith, -placed_conditionalWith,
    -onward_binaryWith, -placed_binaryWith, -Rules.Placed.expr, -Rules.Placed.conditional,
    -placed_orMissing, -placed_lambdaWith] <;> clear binary <;> grind -ring -linarith

theorem reads_exprWith (before : Cursor) :
    ⦃before.place⦄ exprWith rules ⦃⇓ result after => ⌜ReadOn result before after⌝⦄ := by
  have lambda := reads_lambdaWith onward
  have conditional := reads_conditionalWith onward
  mvcgen [exprWith, lambda, conditional, -onward_exprWith, -placed_exprWith, -onward_lambdaWith,
    -placed_lambdaWith, -onward_conditionalWith, -placed_conditionalWith, -placed_valueWith] <;>
    clear lambda conditional <;> grind -ring -linarith

end Onward

theorem reads_rules (n : Nat) : (rules n).Reads := by
  refine ⟨onward_rules n, placed_rules n, ?_⟩
  cases n with
  | zero =>
      intro before
      refine triple_iff.mpr ?_
      rintro cursor rfl
      exact ⟨.refl, nofun⟩
  | succ n => exact reads_exprWith (onward_rules n)

/-! ## Statements -/

theorem reads_localType? (start : Nat) (before : Cursor) :
    ⦃before.place⦄ localType? start ⦃⇓ result after =>
      ⌜result.elim (after = before) fun _ => before.ReachesOn after⌝⦄ := by
  mvcgen [localType?, -laidOut_localType?, -placed_localType?] <;> grind -ring -linarith

section Statements

variable {rules : Rules} (reads : rules.Reads)

include reads

theorem reads_variablesWith (before : Cursor) :
    ⦃before.place⦄ variablesWith rules ⦃⇓ result after => ⌜before.Reaches after ∧
      (result.isSome → before.ReachesOn after) ∧ (result = none → after = before)⌝⦄ := by
  have onward := reads.onward
  mvcgen [variablesWith, reads_typeRef?, -onward_typeRef?, -placed_typeRef?,
    -place_variablesWith, -placed_variablesWith, -placed_declaratorsWith] <;> grind -ring -linarith

theorem reads_exprStmtWith (start : Nat) (before : Cursor) (more : before.atEnd = false) :
    ⦃before.place⦄ exprStmtWith rules start ⦃⇓ _ after => ⌜before.ReachesOn after⌝⦄ := by
  have expr := reads.expr
  mvcgen [exprStmtWith, expr, -Rules.Placed.expr, -Rules.Onward.expr, -laidOut_exprStmtWith,
    -placed_exprStmtWith] <;> clear expr <;> grind -ring -linarith

theorem reads_declarationWith (start : Nat) (before : Cursor) (more : before.atEnd = false) :
    ⦃before.place⦄ declarationWith rules start ⦃⇓ _ after => ⌜before.ReachesOn after⌝⦄ := by
  have declaration := reads_variablesWith reads
  have expr := reads_exprStmtWith reads
  mvcgen [declarationWith, reads_localType?, declaration, expr, -laidOut_localType?,
    -placed_localType?, -place_variablesWith, -placed_variablesWith, -laidOut_exprStmtWith,
    -placed_exprStmtWith, -laidOut_declarationWith, -placed_declarationWith] <;>
    clear declaration expr <;> grind -ring -linarith [→ of_elim_of_not_some]

theorem reads_labelWith (before : Cursor) (found : before.isAtLabel) :
    ⦃before.place⦄ labelWith rules ⦃⇓ _ after => ⌜before.ReachesOn after⌝⦄ := by
  have onward := reads.onward
  mvcgen [labelWith, -spans_labelWith, -placed_labelWith, -placed_caseValuesWith] <;>
    grind -ring -linarith

theorem reads_labelsWith (before : Cursor) (found : before.isAtLabel) :
    ⦃before.place⦄ labelsWith rules ⦃⇓ _ after => ⌜before.ReachesOn after⌝⦄ := by
  have onward := reads.onward
  have label := reads_labelWith reads
  refine reads_iterate (fun labels origin => ?_) ?_
  · mvcgen [-placed_labelWith]
    grind -ring -linarith
  · mvcgen [label, -placed_labelWith, -spans_labelWith] <;> clear label <;> grind -ring -linarith

omit reads in
theorem labelsWith_of_not_isAtLabel {cursor : Cursor} (absent : cursor.isAtLabel = false) :
    labelsWith rules cursor = (([], false), cursor) := by
  refine iterateUpTo_of_idle ?_ _
  change (if (false || !cursor.isAtLabel) = true then _ else _ : Parser _) cursor = _
  rw [absent]
  rfl

end Statements

section Nested

variable {stmt : Parser Stmt} (laysOut : ∀ before : Cursor,
  ⦃before.place⦄ stmt ⦃⇓ stmt after => ⌜stmt.LaidOut before after⌝⦄)

include laysOut

theorem reads_blockWith (before : Cursor) :
    ⦃before.place⦄ blockWith stmt ⦃⇓ _ after =>
      ⌜before.Reaches after ∧ (before.isAt .openBrace → before.ReachesOn after)⌝⦄ := by
  mvcgen [blockWith, laysOut, -laidOut_blockWith, -placed_manyStmts] <;> clear laysOut <;>
    grind -ring -linarith

theorem reads_handlerWith (before : Cursor) :
    ⦃before.place⦄ handlerWith stmt
      ⦃⇓ result after => ⌜result.isSome → before.ReachesOn after⌝⦄ := by
  mvcgen [handlerWith, laysOut, -laidOut_handlerWith, -placed_caughtTypes] <;> clear laysOut <;>
    grind -ring -linarith

variable {rules : Rules} (reads : rules.Reads)

include reads

theorem reads_stmtAtWith {before : Cursor} {token : Token} {rest : List Token}
    (head : before.rest = token :: rest) :
    ⦃before.place⦄ stmtAtWith rules stmt token ⦃⇓ _ after => ⌜before.ReachesOn after⌝⦄ := by
  have more : before.atEnd = false := by rw [Cursor.atEnd, head, List.isEmpty_cons]
  have onward := reads.onward
  have blocks := reads_blockWith laysOut
  have declaration := reads_declarationWith reads
  have expr := reads_exprStmtWith reads
  mvcgen [stmtAtWith, forWith, switchWith, tryWith, laysOut, blocks, declaration, expr,
    -laidOut_forWith, -laidOut_switchWith, -laidOut_tryWith, -laidOut_exprStmtWith,
    -placed_exprStmtWith, -laidOut_declarationWith, -placed_declarationWith, -laidOut_blockWith,
    -placed_manyStmts, -placed_manyGroups, -placed_manyHandlers, -Rules.Placed.expr,
    -placed_orMissing, -placed_conditionWith, -placed_exprsWith, -placed_forEachHeader?,
    -placed_resources, -placed_variablesWith]
  all_goals clear laysOut blocks declaration expr
  all_goals grind -ring -linarith

/-- A group reads a token, if the first statement in it does. -/
theorem reads_groupWith (before : Cursor) (more : before.atEnd = false)
    (inside : before.isAt .closeBrace = false)
    (first : ⦃before.place⦄ stmt ⦃⇓ _ after => ⌜before.ReachesOn after⌝⦄) :
    ⦃before.place⦄ groupWith rules stmt ⦃⇓ _ after => ⌜before.ReachesOn after⌝⦄ := by
  cases found : before.isAtLabel with
  | true =>
      have labels := reads_labelsWith reads before found
      mvcgen [groupWith, labels, laysOut, -laidOut_groupWith, -laidOut_labelsWith,
        -placed_labelsWith, -placed_manyStmts] <;>
        clear laysOut labels first <;> grind -ring -linarith
  | false =>
      have labels : ⦃before.place⦄ labelsWith rules
          ⦃⇓ labels after => ⌜labels = ([], false) ∧ after = before⌝⦄ := by
        refine triple_iff.mpr ?_
        rintro cursor rfl
        rw [labelsWith_of_not_isAtLabel found]
        exact ⟨rfl, rfl⟩
      have stmts (cursor : Cursor) : ⦃cursor.place⦄ stmt
          ⦃⇓ _ after => ⌜cursor.Reaches after ∧ (cursor = before → cursor.ReachesOn after)⌝⦄ := by
        refine triple_iff.mpr ?_
        rintro cursor rfl
        refine ⟨(triple_iff.mp (laysOut cursor) cursor rfl).reaches, ?_⟩
        rintro rfl
        exact triple_iff.mp first cursor rfl
      mvcgen [groupWith, labels, stmts, reads_many, -laidOut_groupWith, -laidOut_labelsWith,
        -placed_labelsWith, -placed_manyStmts, -laidOut_manyStmts, -onward_many] <;>
        clear laysOut labels stmts first <;> grind -ring -linarith

end Nested

/-- Where a token is left, a statement reads one. -/
theorem reads_stmtUpTo (n : Nat) (before : Cursor) (more : before.atEnd = false) :
    ⦃before.place⦄ stmtUpTo (n + 1) ⦃⇓ _ after => ⌜before.ReachesOn after⌝⦄ := by
  refine triple_iff.mpr ?_
  rintro ⟨rest, behind⟩ rfl
  cases rest with
  | nil => cases more
  | cons token rest =>
      exact triple_iff.mp
        (reads_stmtAtWith (laidOut_stmtUpTo n) (reads_rules (n + 1)) rfl) _ rfl

/-! ## Blocks -/

/-- Reads a statement of a block, unless the block ends here. -/
def stmtInBlock? (stmt : Parser Stmt) : Parser (Option Stmt) := do
  let cursor ← get
  if cursor.atEnd || cursor.isAt .closeBrace then return none
  return some (← stmt)

/-- Reads a block up to the brace that closes it. -/
def statementsWith (stmt : Parser Stmt) : Parser (List Stmt) := do
  discard <| accept .openBrace
  many (stmtInBlock? stmt)

theorem blockWith_eq (stmt : Parser Stmt) : blockWith stmt = (do
    let start := (← get).here
    let statements ← statementsWith stmt
    discard <| accept .closeBrace
    return .mk (← spanFrom start) statements) := rfl

theorem statementsWith_apply (stmt : Parser Stmt) (cursor : Cursor) :
    statementsWith stmt cursor = many (stmtInBlock? stmt) (accept .openBrace cursor).2 := rfl

theorem blockWith_apply (stmt : Parser Stmt) (cursor : Cursor) : blockWith stmt cursor =
    (.mk ((accept .closeBrace (statementsWith stmt cursor).2).2.spanFrom cursor.here)
      (statementsWith stmt cursor).1, (accept .closeBrace (statementsWith stmt cursor).2).2) := rfl

/-- The statements of a block end at a closing brace or with the text. -/
theorem ends_statementsWith {stmt : Parser Stmt} {before : Cursor} (order : before.IsOrdered)
    (reads : ∀ cursor : Cursor, cursor.IsOrdered → cursor.atEnd = false →
      ⦃cursor.place⦄ stmt ⦃⇓ _ after => ⌜cursor.ReachesOn after⌝⦄) :
    before.Reaches (statementsWith stmt before).2 ∧
      ((statementsWith stmt before).2.atEnd ∨
        (statementsWith stmt before).2.isAt .closeBrace) := by
  have opened := reaches_accept .openBrace before
  have step_eq (cursor : Cursor) : stmtInBlock? stmt cursor =
      if cursor.atEnd || cursor.isAt .closeBrace then (none, cursor)
      else (some (stmt cursor).1, (stmt cursor).2) := by
    unfold stmtInBlock?
    change (if cursor.atEnd || cursor.isAt .closeBrace then _ else _ : Parser _) cursor = _
    split <;> rfl
  have steps (cursor : Cursor) (reaches : (accept .openBrace before).2.Reaches cursor) :
      cursor.Reaches (stmtInBlock? stmt cursor).2 ∧ ((stmtInBlock? stmt cursor).1.isSome →
        cursor.ReachesOn (stmtInBlock? stmt cursor).2) := by
    rw [step_eq]
    split
    · exact ⟨.refl, nofun⟩
    · next inside =>
        rw [Bool.or_eq_true, not_or, Bool.not_eq_true] at inside
        have read := triple_iff.mp (reads cursor ((order.reaches opened).reaches reaches) inside.1)
          cursor rfl
        exact ⟨read.reaches, fun _ => read⟩
  obtain ⟨last, reaches, ends, last_eq⟩ := exists_of_manyUpTo steps (Nat.lt_succ_self _)
  have last_eq : (statementsWith stmt before).2 = last := by
    refine Eq.trans last_eq ?_
    rw [step_eq] at ends ⊢
    split at ends
    · next found => rw [if_pos found]
    · cases ends
  rw [last_eq]
  refine ⟨opened.trans reaches, ?_⟩
  rw [step_eq] at ends
  split at ends
  · next found => rwa [Bool.or_eq_true] at found
  · cases ends

end Parser

end JavaOutline
