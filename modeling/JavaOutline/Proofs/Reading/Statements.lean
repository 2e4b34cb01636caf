import Mathlib
import JavaOutline.Proofs.Reading.Layout
import JavaOutline.Proofs.Reading.Onward

/-!
# Statements are laid out

Whatever the tokens are, a statement that is read is laid out between the place where reading it
began and the place where reading it ended. So is every statement inside it, also where the parser
went back or took tokens for missing ones.
-/

set_option mvcgen.warning false

open Std.Do

namespace JavaOutline

theorem Stmt.allLaidOut_singleton {stmt : Stmt} {before after : Cursor}
    (laidOut : stmt.LaidOut before after) : Stmt.AllLaidOut [stmt] before after :=
  ⟨after, laidOut, rfl⟩

namespace Parser

/-- Values that are read one at a time make up a list, if a value in front of a list does. -/
theorem place_many {α : Type} {step : Parser (Option α)} (one : α → Cursor → Cursor → Prop)
    (all : List α → Cursor → Cursor → Prop) (nil : ∀ cursor, all [] cursor cursor)
    (cons : ∀ {value values before middle after},
      one value before middle → all values middle after → all (value :: values) before after)
    (read : ∀ before : Cursor, ⦃before.place⦄ step
      ⦃⇓ result after => ⌜result.elim (after = before) (one · before after)⌝⦄)
    (before : Cursor) :
    ⦃before.place⦄ many step ⦃⇓ values after => ⌜all values before after⌝⦄ := by
  have upTo (n : Nat) (before : Cursor) :
      ⦃before.place⦄ manyUpTo step n ⦃⇓ values after => ⌜all values before after⌝⦄ := by
    induction n generalizing before with
    | zero =>
        mvcgen [manyUpTo]
        next placed =>
        subst placed
        exact nil _
    | succ n induction =>
        mvcgen [manyUpTo, read, induction]
        · next placed _ _ _ stopped =>
          obtain rfl : _ = before := stopped.trans placed
          exact nil _
        · next placed _ _ _ _ first _ _ later =>
          subst placed
          exact cons first later
  refine triple_iff.mpr fun cursor placed => ?_
  exact triple_iff.mp (upTo (cursor.rest.length + 1) before) cursor placed

@[spec]
theorem laidOut_manyStmts {step : Parser (Option Stmt)}
    (read : ∀ before : Cursor, ⦃before.place⦄ step
      ⦃⇓ result after => ⌜result.elim (after = before) (·.LaidOut before after)⌝⦄)
    (before : Cursor) :
    ⦃before.place⦄ many step ⦃⇓ stmts after => ⌜Stmt.AllLaidOut stmts before after⌝⦄ :=
  place_many Stmt.LaidOut Stmt.AllLaidOut (fun _ => rfl)
    (fun first later => ⟨_, first, later⟩) read before

@[spec]
theorem laidOut_manyGroups {step : Parser (Option SwitchGroup)}
    (read : ∀ before : Cursor, ⦃before.place⦄ step
      ⦃⇓ result after => ⌜result.elim (after = before) (·.LaidOut before after)⌝⦄)
    (before : Cursor) :
    ⦃before.place⦄ many step ⦃⇓ groups after => ⌜SwitchGroup.AllLaidOut groups before after⌝⦄ :=
  place_many SwitchGroup.LaidOut SwitchGroup.AllLaidOut (fun _ => rfl)
    (fun first later => ⟨_, first, later⟩) read before

@[spec]
theorem laidOut_manyHandlers {step : Parser (Option Handler)}
    (read : ∀ before : Cursor, ⦃before.place⦄ step
      ⦃⇓ result after => ⌜result.elim (after = before) (·.LaidOut before after)⌝⦄)
    (before : Cursor) :
    ⦃before.place⦄ many step ⦃⇓ handlers after => ⌜Handler.AllLaidOut handlers before after⌝⦄ :=
  place_many Handler.LaidOut Handler.AllLaidOut (fun _ => rfl)
    (fun first later => ⟨_, first, later⟩) read before

@[spec]
theorem onward_forEachHeader? (origin : Cursor) :
    ⦃origin.onward⦄ forEachHeader? ⦃⇓ _ => origin.onward⦄ := by
  mvcgen [forEachHeader?] <;> grind -ring -linarith

@[spec]
theorem onward_resources (origin : Cursor) :
    ⦃origin.onward⦄ resources ⦃⇓ _ => origin.onward⦄ := by
  mvcgen [resources] <;> grind -ring -linarith

@[spec]
theorem onward_caughtTypes (origin : Cursor) :
    ⦃origin.onward⦄ caughtTypes ⦃⇓ _ => origin.onward⦄ := by
  mvcgen [caughtTypes] <;> grind -ring -linarith

@[spec]
theorem laidOut_localType? {start : Nat} (before : Cursor) (here : before.here = start) :
    ⦃before.place⦄ localType? start
      ⦃⇓ result after => ⌜result.elim (after = before) (·.LaidOut before after)⌝⦄ := by
  mvcgen [localType?] <;> grind -ring -linarith [Stmt.LaidOut, Cursor.Spans]

theorem laidOut_statementOf {span : Span} {before after : Cursor} (expr : Expr)
    (spans : before.Spans span after) : (statementOf span expr).LaidOut before after := by
  fun_cases statementOf span expr <;> exact spans

/-- A result that is no value is none. -/
theorem of_elim_of_not_some {α : Type} {result : Option α} {absent : Prop} {present : α → Prop}
    (holds : result.elim absent present) (not_some : ∀ value, result = some value → False) :
    absent := by
  cases result with
  | none => exact holds
  | some value => exact (not_some value rfl).elim

section Rules

variable {rules : Rules} (onward : rules.Onward)

include onward

@[spec]
theorem place_variablesWith (before : Cursor) :
    ⦃before.place⦄ variablesWith rules
      ⦃⇓ result after => ⌜before.Reaches after ∧ (result = none → after = before)⌝⦄ := by
  mvcgen [variablesWith] <;> grind -ring -linarith

@[spec]
theorem laidOut_exprStmtWith {start : Nat} (before : Cursor) (here : before.here = start) :
    ⦃before.place⦄ exprStmtWith rules start ⦃⇓ stmt after => ⌜stmt.LaidOut before after⌝⦄ := by
  mvcgen [exprStmtWith] <;> grind -ring -linarith [Stmt.LaidOut, Cursor.Spans, laidOut_statementOf]

@[spec]
theorem laidOut_declarationWith {start : Nat} (before : Cursor) (here : before.here = start) :
    ⦃before.place⦄ declarationWith rules start ⦃⇓ stmt after => ⌜stmt.LaidOut before after⌝⦄ := by
  mvcgen [declarationWith] <;>
    grind -ring -linarith [Stmt.LaidOut, Cursor.Spans, → of_elim_of_not_some]

@[spec]
theorem spans_labelWith (before : Cursor) :
    ⦃before.place⦄ labelWith rules ⦃⇓ label after => ⌜before.Spans label.1.span after⌝⦄ := by
  mvcgen [labelWith] <;> grind -ring -linarith [Cursor.Spans, SwitchLabel.span]

@[spec]
theorem laidOut_labelsWith (before : Cursor) :
    ⦃before.place⦄ labelsWith rules
      ⦃⇓ labels after => ⌜SwitchLabel.AllLaidOut labels.1 before after⌝⦄ := by
  refine triple_iff.mpr ?_
  rintro cursor rfl
  have nothing : SwitchLabel.AllLaidOut [] cursor cursor := rfl
  refine triple_iff.mp (iterate_invariant (fun (labels : List SwitchLabel × Bool) =>
    SwitchLabel.AllLaidOut labels.1 cursor) (fun labels => ?_) _) cursor nothing
  mvcgen
  next front _ _ _ spans => exact front.append spans

end Rules

section Statements

variable {stmt : Parser Stmt} (laysOut : ∀ before : Cursor,
  ⦃before.place⦄ stmt ⦃⇓ stmt after => ⌜stmt.LaidOut before after⌝⦄)

include laysOut

@[spec]
theorem laidOut_blockWith (before : Cursor) :
    ⦃before.place⦄ blockWith stmt ⦃⇓ block after => ⌜block.LaidOut before after⌝⦄ := by
  mvcgen [blockWith, laysOut] <;> grind -ring -linarith [Block.LaidOut, Cursor.Spans]

@[spec]
theorem laidOut_handlerWith (before : Cursor) :
    ⦃before.place⦄ handlerWith stmt
      ⦃⇓ result after => ⌜result.elim (after = before) (·.LaidOut before after)⌝⦄ := by
  mvcgen [handlerWith, laysOut] <;>
    grind -ring -linarith [Handler.LaidOut, Cursor.Spans, Cursor.Between]

@[spec]
theorem laidOut_tryWith {start : Nat} (before : Cursor) (here : before.here = start) :
    ⦃before.place⦄ tryWith stmt start ⦃⇓ stmt after => ⌜stmt.LaidOut before after⌝⦄ := by
  mvcgen [tryWith, laysOut] <;>
    grind -ring -linarith [Stmt.LaidOut, Block.CleanupLaidOut, Cursor.Spans, Cursor.Between]

variable {rules : Rules} (onward : rules.Onward)

include onward

@[spec]
theorem laidOut_forWith {start : Nat} (before : Cursor) (here : before.here = start) :
    ⦃before.place⦄ forWith rules stmt start ⦃⇓ stmt after => ⌜stmt.LaidOut before after⌝⦄ := by
  mvcgen [forWith, laysOut] <;> grind -ring -linarith [Stmt.LaidOut, Cursor.Spans, Cursor.Between]

@[spec]
theorem laidOut_groupWith (before : Cursor) :
    ⦃before.place⦄ groupWith rules stmt ⦃⇓ group after => ⌜group.LaidOut before after⌝⦄ := by
  mvcgen [groupWith, laysOut] <;>
    grind -ring -linarith [SwitchGroup.LaidOut, Stmt.allLaidOut_singleton]

@[spec]
theorem laidOut_switchWith {start : Nat} (before : Cursor) (here : before.here = start) :
    ⦃before.place⦄ switchWith rules stmt start ⦃⇓ stmt after => ⌜stmt.LaidOut before after⌝⦄ := by
  mvcgen [switchWith, laysOut] <;>
    grind -ring -linarith [Stmt.LaidOut, Cursor.Spans, Cursor.Between]

theorem laidOut_stmtAtWith {before : Cursor} {token : Token} {rest : List Token}
    (head : before.rest = token :: rest) :
    ⦃before.place⦄ stmtAtWith rules stmt token ⦃⇓ stmt after => ⌜stmt.LaidOut before after⌝⦄ := by
  have here : before.here = token.span.start := by
    rw [Cursor.here, head]
  mvcgen [stmtAtWith, laysOut]
  -- An empty statement is the one that is laid out by its token and not by its span.
  all_goals
    grind -ring -linarith [Stmt.LaidOut, Cursor.Spans, Cursor.Between, Cursor.Passes, Cursor.isAt]

theorem laidOut_stmtWith (before : Cursor) :
    ⦃before.place⦄ stmtWith rules stmt ⦃⇓ stmt after => ⌜stmt.LaidOut before after⌝⦄ := by
  refine triple_iff.mpr ?_
  rintro ⟨rest, behind⟩ rfl
  cases rest with
  | nil => exact Cursor.Reaches.refl
  | cons token rest => exact triple_iff.mp (laidOut_stmtAtWith laysOut onward rfl) _ rfl

end Statements

theorem laidOut_stmtUpTo (n : Nat) (before : Cursor) :
    ⦃before.place⦄ stmtUpTo n ⦃⇓ stmt after => ⌜stmt.LaidOut before after⌝⦄ := by
  induction n generalizing before with
  | zero =>
      refine triple_iff.mpr ?_
      rintro cursor rfl
      exact .refl
  | succ n induction => exact laidOut_stmtWith induction (onward_rules (n + 1)) before

/-- A block is laid out between the places where reading it began and ended. -/
theorem laidOut_block (cursor : Cursor) : (block cursor).1.LaidOut cursor (block cursor).2 :=
  triple_iff.mp (laidOut_blockWith (laidOut_stmtUpTo _) cursor) cursor rfl

end Parser

end JavaOutline
