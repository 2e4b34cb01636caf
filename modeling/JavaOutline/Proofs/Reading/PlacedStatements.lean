import Mathlib
import JavaOutline.Proofs.Reading.Placed

/-!
# Statements are placed

-/

set_option mvcgen.warning false

open Std.Do

namespace JavaOutline

open Construct

attribute [grind =] Stmt.parts Stmt.span Variables.parts ForInit.parts Option.join_some
  Option.join_none

section Places

variable {before middle after : Cursor}

theorem Construct.AllPlaced.stmt {stmt : Stmt} (parts : AllPlaced stmt.parts before after)
    (span_eq : stmt.span = after.spanFrom before.here) : AllPlaced [.stmt stmt] before after :=
  .enclose parts nofun span_eq

grind_pattern Construct.AllPlaced.stmt => AllPlaced [.stmt stmt] before after

@[grind .]
theorem Construct.AllPlaced.declarator {name : Token} {rest : List Token} {value : Option Expr}
    (order : before.IsOrdered) (head : before.rest = name :: rest)
    (parts : AllPlaced (value.toList.map .expr) before.tail middle)
    (later : middle.Reaches after) :
    AllPlaced [.declarator ⟨middle.spanFrom before.here, ⟨name.text, name.span⟩, value⟩]
      before after := by
  refine .widen ?_ .refl later
  exact .enclose ((AllPlaced.token order head rfl rfl).append parts) nofun rfl

@[grind .]
theorem Construct.AllPlaced.unparsed {token : Token} (reaches : before.Reaches middle)
    (order : middle.IsOrdered) (head : middle.rest.head? = some token) :
    AllPlaced [.stmt (.unparsed token.span)] before middle.tail := by
  obtain ⟨rest, head⟩ := List.head?_eq_some_iff.mp head
  refine .widen ?_ reaches .refl
  exact .token order head rfl rfl

@[grind .]
theorem Construct.AllPlaced.variables {type : TypeRef} {declarators : List Declarator}
    (parts : AllPlaced (.typeRef type :: declarators.map .declarator) before after) :
    AllPlaced [.variables ⟨after.spanFrom before.here, type, declarators⟩] before after :=
  .enclose parts nofun rfl

@[grind .]
theorem Construct.AllPlaced.locals {declaration : Variables}
    (placed : AllPlaced [.variables declaration] before middle) (later : middle.Reaches after) :
    AllPlaced [.stmt (.locals ⟨after.spanFrom before.here, declaration.type,
      declaration.declarators⟩)] before after :=
  .enclose (placed.parts_of.widen .refl later) nofun rfl

theorem Construct.AllPlaced.forLoop {init : ForInit} {condition : Option Expr} {update : List Expr}
    {body : Stmt} {first last : Cursor}
    (header : AllPlaced (init.parts ++ condition.toList.map .expr) before first)
    (updates : AllPlaced (update.map .expr) first middle) (later : middle.Reaches last)
    (placed : AllPlaced [.stmt body] last after) :
    AllPlaced [.stmt (.forLoop (after.spanFrom before.here) init condition update body)]
      before after :=
  .stmt ((header.append updates).append (placed.widen later .refl)) rfl

grind_pattern Construct.AllPlaced.forLoop =>
  AllPlaced [.stmt (.forLoop (after.spanFrom before.here) init condition update body)] before after,
  AllPlaced (update.map .expr) first middle, AllPlaced [.stmt body] last after

@[grind .]
theorem Construct.AllPlaced.unparsedPoint (order : before.IsOrdered)
    (reaches : before.Reaches after) :
    AllPlaced [.stmt (.unparsed (.point before.here))] before after := by
  refine .widen ?_ .refl reaches
  exact .point order rfl nofun rfl

@[grind .]
theorem Construct.AllPlaced.pattern (reaches : before.Reaches after) :
    AllPlaced [.expr (.excerpt (after.spanFrom before.here) .pattern)] before after :=
  .enclose (.nil reaches) nofun rfl

@[grind .]
theorem Construct.AllPlaced.filter {α : Type} {construct : α → Construct} {values : List α}
    {p : α → Bool} (placed : AllPlaced (values.map construct) before after) :
    AllPlaced ((values.filter p).map construct) before after :=
  placed.sublist (List.filter_sublist.map construct)

@[grind .]
theorem Construct.AllPlaced.caseLabel {values : List Expr}
    (parts : AllPlaced (values.map .expr) before after) :
    AllPlaced [.label (.case (after.spanFrom before.here) values)] before after :=
  .enclose parts nofun rfl

@[grind .]
theorem Construct.AllPlaced.block {stmts : List Stmt}
    (parts : AllPlaced (stmts.map .stmt) before after) :
    AllPlaced [.block (.mk (after.spanFrom before.here) stmts)] before after :=
  .enclose parts nofun rfl

/-- A block as a statement is placed where the block is. -/
@[grind .]
theorem Construct.AllPlaced.blockStmt {block : Block}
    (placed : AllPlaced [.block block] before after) :
    AllPlaced [.stmt (.block block)] before after := by
  cases placed with
  | cons earlier placed later =>
    cases placed with
    | mk spans solid parts toMiddle =>
      have inner := AllPlaced.cons .refl (.mk spans solid parts .refl) (.nil .refl)
      exact .cons earlier (.mk spans nofun inner toMiddle) later

@[grind .]
theorem Construct.AllPlaced.handler {types : List TypeRef} {name : String} {body : Block}
    (parts : AllPlaced (types.map .typeRef ++ [.block body]) before after) :
    AllPlaced [.handler (.mk (after.spanFrom before.here) types name body)] before after :=
  .enclose parts nofun rfl

@[grind .]
theorem Construct.AllPlaced.group {arrow : Bool} {labels : List SwitchLabel} {stmts : List Stmt}
    (parts : AllPlaced (labels.map .label ++ stmts.map .stmt) before after) :
    AllPlaced [.group (.mk (after.spanFrom before.here) arrow labels stmts)] before after :=
  .enclose parts nofun rfl

@[grind .]
theorem Construct.AllPlaced.labeled {token : Token} {rest : List Token} {body : Stmt}
    (order : before.IsOrdered) (head : before.rest = token :: rest)
    (placed : AllPlaced [.stmt body] before.tail after) :
    AllPlaced [.stmt (.labeled (after.spanFrom before.here) ⟨token.text, token.span⟩ body)]
      before after :=
  .stmt ((AllPlaced.token order head rfl rfl).append placed) rfl

theorem Construct.AllPlaced.jump {kind : JumpKind} {label : Option Name} (order : middle.IsOrdered)
    (earlier : before.Reaches middle) (later : middle.tail.Reaches after)
    (label_eq : label = middle.rest.head?.map fun token => ⟨token.text, token.span⟩) :
    AllPlaced [.stmt (.jump (after.spanFrom before.here) kind label)] before after := by
  refine .stmt ?_ rfl
  refine .widen ?_ earlier later
  obtain ⟨rest, behind⟩ := middle
  subst label_eq
  cases rest with
  | nil => exact .nil .refl
  | cons token rest => exact .token order rfl rfl rfl

grind_pattern Construct.AllPlaced.jump =>
  AllPlaced [.stmt (.jump (after.spanFrom before.here) kind label)] before after, middle.rest.head?

@[grind .]
theorem Construct.AllPlaced.defaultLabel (reaches : before.Reaches after) :
    AllPlaced [.label (.default (after.spanFrom before.here))] before after :=
  .enclose (.nil reaches) nofun rfl

end Places

/-- Whether constructs that were read after some others stand behind them. -/
def Construct.Appended {α : Type} (construct : α → Construct) (values : List α) (before : Cursor)
    (more : List α) (after : Cursor) : Prop :=
  before.Reaches after ∧ ∀ origin : Cursor, AllPlaced (values.map construct) origin before →
    AllPlaced (more.map construct) origin after

@[grind .]
theorem Construct.Appended.refl {α : Type} {construct : α → Construct} {values : List α}
    {before after : Cursor} (reaches : before.Reaches after) :
    Appended construct values before values after :=
  ⟨reaches, fun _ placed => placed.widen .refl reaches⟩

@[grind .]
theorem Construct.Appended.append {α : Type} {construct : α → Construct} {values : List α}
    {value : α} {before after : Cursor} (placed : AllPlaced [construct value] before after) :
    Appended construct values before (values ++ [value]) after := by
  refine ⟨placed.reaches, fun origin front => ?_⟩
  rw [List.map_append, List.map_singleton]
  exact front.append placed

namespace Parser

@[grind .]
theorem reaches_accept (kind : TokenKind) (cursor : Cursor) :
    cursor.Reaches (accept kind cursor).2 :=
  (passes_accept kind cursor).reaches

@[grind ←]
theorem reaches_accept_of_reaches {kind : TokenKind} {origin cursor : Cursor}
    (reaches : origin.Reaches cursor) : origin.Reaches (accept kind cursor).2 :=
  reaches.trans (reaches_accept kind cursor)

@[grind →]
theorem accept_of_isAt {kind : TokenKind} {cursor : Cursor} (found : cursor.isAt kind) :
    (accept kind cursor).2 = cursor.tail := by
  rw [accept, if_pos found]

@[spec high]
theorem place_accept_eq (kind : TokenKind) (before : Cursor) :
    ⦃before.place⦄ accept kind ⦃⇓ _ after =>
      ⌜before.Reaches after ∧ after = (accept kind before).2⌝⦄ := by
  refine triple_iff.mpr ?_
  rintro cursor rfl
  exact ⟨reaches_accept kind cursor, rfl⟩

@[spec high]
theorem place_advance_two (before : Cursor) :
    ⦃before.place⦄ advance 2 ⦃⇓ _ after => ⌜before.tail.Reaches after⌝⦄ := by
  refine triple_iff.mpr ?_
  rintro cursor rfl
  exact .tail .refl

/-- Constructs that a loop gathers are placed one after the other. -/
theorem placed_iterate {α : Type} (construct : α → Construct)
    {step : List α × Bool → Parser (Option (List α × Bool))}
    (appended : ∀ values (before : Cursor), before.IsOrdered → ⦃before.place⦄ step values
      ⦃⇓ result after => ⌜Appended construct values.1 before (result.getD values).1 after⌝⦄)
    (flag : Bool) (before : Cursor) (order : before.IsOrdered) :
    ⦃before.place⦄ iterate step ([], flag) ⦃⇓ values after =>
      ⌜AllPlaced (values.1.map construct) before after⌝⦄ := by
  refine triple_iff.mpr ?_
  rintro cursor rfl
  refine triple_iff.mp (iterate_invariant (fun (values : List α × Bool) =>
    AllPlaced (values.1.map construct) cursor) (fun values => ?_) ([], flag)) cursor (.nil .refl)
  refine triple_iff.mpr fun before front => ?_
  exact (triple_iff.mp (appended values before (order.reaches front.reaches)) before rfl).2 _ front

@[spec high]
theorem placed_iterateDeclarators {step : List Declarator × Bool →
      Parser (Option (List Declarator × Bool))}
    (appended : ∀ values (before : Cursor), before.IsOrdered → ⦃before.place⦄ step values
      ⦃⇓ result after => ⌜Appended .declarator values.1 before (result.getD values).1 after⌝⦄)
    (flag : Bool) (before : Cursor) (order : before.IsOrdered) :
    ⦃before.place⦄ iterate step ([], flag) ⦃⇓ values after =>
      ⌜AllPlaced (values.1.map .declarator) before after⌝⦄ :=
  placed_iterate .declarator appended flag before order

@[spec high]
theorem placed_iterateExprs {step : List Expr × Bool → Parser (Option (List Expr × Bool))}
    (appended : ∀ values (before : Cursor), before.IsOrdered → ⦃before.place⦄ step values
      ⦃⇓ result after => ⌜Appended .expr values.1 before (result.getD values).1 after⌝⦄)
    (flag : Bool) (before : Cursor) (order : before.IsOrdered) :
    ⦃before.place⦄ iterate step ([], flag) ⦃⇓ values after =>
      ⌜AllPlaced (values.1.map .expr) before after⌝⦄ :=
  placed_iterate .expr appended flag before order

@[spec high]
theorem placed_iterateLabels {step : List SwitchLabel × Bool →
      Parser (Option (List SwitchLabel × Bool))}
    (appended : ∀ values (before : Cursor), before.IsOrdered → ⦃before.place⦄ step values
      ⦃⇓ result after => ⌜Appended .label values.1 before (result.getD values).1 after⌝⦄)
    (flag : Bool) (before : Cursor) (order : before.IsOrdered) :
    ⦃before.place⦄ iterate step ([], flag) ⦃⇓ values after =>
      ⌜AllPlaced (values.1.map .label) before after⌝⦄ :=
  placed_iterate .label appended flag before order

@[spec high]
theorem place_next? (before : Cursor) :
    ⦃before.place⦄ next? ⦃⇓ token after =>
      ⌜token = before.rest.head? ∧ after = before.tail ∧ before.Reaches after⌝⦄ := by
  refine triple_iff.mpr ?_
  rintro cursor rfl
  exact ⟨rfl, rfl, .tail .refl⟩

/-- Constructs that are read one at a time, now and then none, are placed one after the other. -/
theorem placed_manyOptions {α : Type} (construct : α → Construct)
    {step : Parser (Option (Option α))} {origin : Cursor}
    (read : ∀ before : Cursor, origin.Reaches before → ⦃before.place⦄ step
      ⦃⇓ result after => ⌜Read? construct result.join before after⌝⦄) :
    ⦃origin.place⦄ many step ⦃⇓ values after =>
      ⌜AllPlaced ((values.filterMap id).map construct) origin after⌝⦄ := by
  have upTo (n : Nat) (before : Cursor) (reaches : origin.Reaches before) :
      ⦃before.place⦄ manyUpTo step n ⦃⇓ values after =>
        ⌜AllPlaced ((values.filterMap id).map construct) before after⌝⦄ := by
    induction n generalizing before with
    | zero =>
        mvcgen [manyUpTo]
        grind -ring -linarith
    | succ n induction => mvcgen [manyUpTo, read, induction] <;> grind -ring -linarith
  exact triple_iff.mpr fun cursor here =>
    triple_iff.mp (upTo (cursor.rest.length + 1) origin .refl) cursor here

@[spec high]
theorem placed_manyTypeRefs {step : Parser (Option (Option TypeRef))} (origin : Cursor)
    (read : ∀ before : Cursor, origin.Reaches before → ⦃before.place⦄ step
      ⦃⇓ result after => ⌜Read? .typeRef result.join before after⌝⦄) :
    ⦃origin.place⦄ many step ⦃⇓ types after =>
      ⌜AllPlaced ((types.filterMap id).map .typeRef) origin after⌝⦄ :=
  placed_manyOptions .typeRef read

@[spec high]
theorem placed_manyStmts {step : Parser (Option Stmt)} (origin : Cursor)
    (read : ∀ before : Cursor, origin.Reaches before → ⦃before.place⦄ step
      ⦃⇓ result after => ⌜Read? .stmt result before after⌝⦄) :
    ⦃origin.place⦄ many step ⦃⇓ stmts after => ⌜AllPlaced (stmts.map .stmt) origin after⌝⦄ :=
  placed_many .stmt read

@[spec high]
theorem placed_manyGroups {step : Parser (Option SwitchGroup)} (origin : Cursor)
    (read : ∀ before : Cursor, origin.Reaches before → ⦃before.place⦄ step
      ⦃⇓ result after => ⌜Read? .group result before after⌝⦄) :
    ⦃origin.place⦄ many step ⦃⇓ groups after => ⌜AllPlaced (groups.map .group) origin after⌝⦄ :=
  placed_many .group read

@[spec high]
theorem placed_manyHandlers {step : Parser (Option Handler)} (origin : Cursor)
    (read : ∀ before : Cursor, origin.Reaches before → ⦃before.place⦄ step
      ⦃⇓ result after => ⌜Read? .handler result before after⌝⦄) :
    ⦃origin.place⦄ many step
      ⦃⇓ handlers after => ⌜AllPlaced (handlers.map .handler) origin after⌝⦄ :=
  placed_many .handler read

@[spec high]
theorem placed_manySpans {step : Parser (Option Span)} (origin : Cursor)
    (read : ∀ before : Cursor, origin.Reaches before → ⦃before.place⦄ step
      ⦃⇓ result after => ⌜Read? .excerpt result before after⌝⦄) :
    ⦃origin.place⦄ many step ⦃⇓ spans after => ⌜AllPlaced (spans.map .excerpt) origin after⌝⦄ :=
  placed_many .excerpt read

@[spec high]
theorem placed_localType? {start : Nat} (before : Cursor) (here : before.here = start) :
    ⦃before.place⦄ localType? start ⦃⇓ result after =>
      ⌜result.elim (after = before) fun stmt => AllPlaced [.stmt stmt] before after⌝⦄ := by
  mvcgen [localType?, -laidOut_localType?] <;> grind -ring -linarith

@[spec high]
theorem placed_forEachHeader? (before : Cursor) (order : before.IsOrdered) :
    ⦃before.place⦄ forEachHeader? ⦃⇓ result after =>
      ⌜(result = none → after = before) ∧ Read? .parameter result before after⌝⦄ := by
  mvcgen [forEachHeader?, -onward_forEachHeader?] <;> grind -ring -linarith

@[spec high]
theorem placed_resources (before : Cursor) :
    ⦃before.place⦄ resources ⦃⇓ spans after =>
      ⌜AllPlaced (spans.map .excerpt) before after⌝⦄ := by
  mvcgen [resources, -onward_resources] <;> grind -ring -linarith

@[spec high]
theorem placed_caughtTypes (before : Cursor) (order : before.IsOrdered) :
    ⦃before.place⦄ caughtTypes ⦃⇓ types after =>
      ⌜AllPlaced (types.map .typeRef) before after⌝⦄ := by
  mvcgen [caughtTypes, -onward_caughtTypes] <;> grind -ring -linarith

/-- The statement of an expression is placed around it. -/
theorem placed_statementOf {expr : Expr} {before middle after : Cursor}
    (placed : AllPlaced [.expr expr] before middle) (reaches : middle.Reaches after) :
    AllPlaced [.stmt (statementOf (after.spanFrom before.here) expr)] before after := by
  have around := placed.widen .refl reaches
  -- A constructor call has the arguments of the call, but not its name.
  fun_cases statementOf (after.spanFrom before.here) expr with
  | case1 | case2 => exact .stmt (around.parts_of.sublist (List.sublist_cons_self _ _)) rfl
  | case4 | case5 =>
      exact .stmt (around.parts_of.sublist ((List.sublist_cons_self _ _).cons_cons _)) rfl
  | case3 | case6 | case7 => exact .stmt around rfl

section Rules

variable {rules : Rules} (placed : rules.Placed)

include placed

@[spec high]
theorem placed_conditionWith (before : Cursor) (order : before.IsOrdered) :
    ⦃before.place⦄ conditionWith rules ⦃⇓ expr after => ⌜AllPlaced [.expr expr] before after⌝⦄ := by
  mvcgen [conditionWith, -onward_conditionWith] <;> grind -ring -linarith

@[spec high]
theorem placed_declaratorsWith (before : Cursor) (order : before.IsOrdered) :
    ⦃before.place⦄ declaratorsWith rules ⦃⇓ declarators after =>
      ⌜AllPlaced (declarators.map .declarator) before after⌝⦄ := by
  mvcgen [declaratorsWith, -onward_declaratorsWith] <;> grind -ring -linarith

@[spec high]
theorem placed_variablesWith (before : Cursor) (order : before.IsOrdered) :
    ⦃before.place⦄ variablesWith rules ⦃⇓ result after =>
      ⌜(result = none → after = before) ∧ Read? .variables result before after⌝⦄ := by
  mvcgen [variablesWith, -place_variablesWith] <;> grind -ring -linarith

@[spec high]
theorem placed_exprStmtWith {start : Nat} (before : Cursor) (order : before.IsOrdered)
    (here : before.here = start) :
    ⦃before.place⦄ exprStmtWith rules start ⦃⇓ stmt after =>
      ⌜AllPlaced [.stmt stmt] before after⌝⦄ := by
  mvcgen [exprStmtWith, -laidOut_exprStmtWith] <;> grind -ring -linarith [placed_statementOf]

@[spec high]
theorem placed_declarationWith {start : Nat} (before : Cursor) (order : before.IsOrdered)
    (here : before.here = start) :
    ⦃before.place⦄ declarationWith rules start ⦃⇓ stmt after =>
      ⌜AllPlaced [.stmt stmt] before after⌝⦄ := by
  mvcgen [declarationWith, -laidOut_declarationWith] <;>
    grind -ring -linarith [→ of_elim_of_not_some]

@[spec high]
theorem placed_exprsWith (stop : TokenKind) (before : Cursor) (order : before.IsOrdered) :
    ⦃before.place⦄ exprsWith rules stop ⦃⇓ exprs after =>
      ⌜AllPlaced (exprs.map .expr) before after⌝⦄ := by
  mvcgen [exprsWith, -onward_exprsWith] <;> grind -ring -linarith

@[spec high]
theorem placed_caseValueWith (before : Cursor) (order : before.IsOrdered) :
    ⦃before.place⦄ caseValueWith rules ⦃⇓ expr after =>
      ⌜AllPlaced [.expr expr] before after⌝⦄ := by
  mvcgen [caseValueWith, -onward_caseValueWith] <;> grind -ring -linarith

@[spec high]
theorem placed_caseValuesWith (before : Cursor) (order : before.IsOrdered) :
    ⦃before.place⦄ caseValuesWith rules ⦃⇓ exprs after =>
      ⌜AllPlaced (exprs.map .expr) before after⌝⦄ := by
  mvcgen [caseValuesWith, -onward_caseValuesWith] <;> grind -ring -linarith

@[spec high]
theorem placed_labelWith (before : Cursor) (order : before.IsOrdered) :
    ⦃before.place⦄ labelWith rules ⦃⇓ label after =>
      ⌜AllPlaced [.label label.1] before after⌝⦄ := by
  mvcgen [labelWith, -spans_labelWith] <;> grind -ring -linarith

@[spec high]
theorem placed_labelsWith (before : Cursor) (order : before.IsOrdered) :
    ⦃before.place⦄ labelsWith rules ⦃⇓ labels after =>
      ⌜AllPlaced (labels.1.map .label) before after⌝⦄ := by
  mvcgen [labelsWith, -laidOut_labelsWith] <;> grind -ring -linarith

end Rules

section Statements

variable {stmt : Parser Stmt} {origin : Cursor}
  (places : ∀ before : Cursor, origin.Reaches before →
    ⦃before.place⦄ stmt ⦃⇓ stmt after => ⌜AllPlaced [.stmt stmt] before after⌝⦄)

include places

theorem placed_blockWith (before : Cursor)
    (reaches : origin.Reaches (accept .openBrace before).2) :
    ⦃before.place⦄ blockWith stmt ⦃⇓ block after => ⌜AllPlaced [.block block] before after⌝⦄ := by
  mvcgen [blockWith, places, -laidOut_blockWith] <;> clear places <;> grind -ring -linarith

theorem placed_handlerWith (before : Cursor) (order : before.IsOrdered)
    (reaches : origin.Reaches before) :
    ⦃before.place⦄ handlerWith stmt
      ⦃⇓ result after => ⌜Read? .handler result before after⌝⦄ := by
  have blocks := placed_blockWith places
  mvcgen [handlerWith, blocks, -laidOut_handlerWith, -laidOut_blockWith] <;>
    clear places blocks <;> grind -ring -linarith

theorem placed_tryWith {start : Nat} (before : Cursor) (order : before.IsOrdered)
    (here : before.here = start) (reaches : origin.Reaches before.tail) :
    ⦃before.place⦄ tryWith stmt start ⦃⇓ stmt after => ⌜AllPlaced [.stmt stmt] before after⌝⦄ := by
  have blocks := placed_blockWith places
  have handlers := placed_handlerWith places
  mvcgen [tryWith, blocks, handlers, -laidOut_tryWith, -laidOut_blockWith, -laidOut_handlerWith] <;>
    clear places blocks handlers <;> grind -ring -linarith

variable {rules : Rules} (placed : rules.Placed)

include placed

theorem placed_forWith {start : Nat} (before : Cursor) (order : before.IsOrdered)
    (here : before.here = start) (reaches : origin.Reaches before.tail) :
    ⦃before.place⦄ forWith rules stmt start
      ⦃⇓ stmt after => ⌜AllPlaced [.stmt stmt] before after⌝⦄ := by
  mvcgen [forWith, places, -laidOut_forWith] <;> clear places <;> grind -ring -linarith

theorem placed_groupWith (before : Cursor) (order : before.IsOrdered)
    (reaches : origin.Reaches before) :
    ⦃before.place⦄ groupWith rules stmt
      ⦃⇓ group after => ⌜AllPlaced [.group group] before after⌝⦄ := by
  mvcgen [groupWith, places, -laidOut_groupWith] <;> clear places <;> grind -ring -linarith

theorem placed_switchWith {start : Nat} (before : Cursor) (order : before.IsOrdered)
    (here : before.here = start) (reaches : origin.Reaches before.tail) :
    ⦃before.place⦄ switchWith rules stmt start
      ⦃⇓ stmt after => ⌜AllPlaced [.stmt stmt] before after⌝⦄ := by
  have groups := placed_groupWith places placed
  mvcgen [switchWith, groups, -laidOut_switchWith, -laidOut_groupWith] <;>
    clear places groups <;> grind -ring -linarith

theorem placed_stmtAtWith {before : Cursor} (order : before.IsOrdered) {token : Token}
    {rest : List Token} (head : before.rest = token :: rest)
    (reaches : origin.Reaches before.tail) :
    ⦃before.place⦄ stmtAtWith rules stmt token
      ⦃⇓ stmt after => ⌜AllPlaced [.stmt stmt] before after⌝⦄ := by
  have blocks := placed_blockWith places
  have tries := @placed_tryWith stmt origin places
  have loops := @placed_forWith stmt origin places rules placed
  have switches := @placed_switchWith stmt origin places rules placed
  mvcgen [stmtAtWith, places, blocks, tries, loops, switches, -laidOut_blockWith,
    -laidOut_tryWith, -laidOut_forWith, -laidOut_switchWith]
  all_goals clear places blocks tries loops switches
  all_goals grind -ring -linarith

end Statements

/-- A statement is placed, if as many statements may be nested in it as there are tokens. -/
theorem placed_stmtUpTo {n : Nat} (before : Cursor) (order : before.IsOrdered)
    (enough : before.rest.length < n) :
    ⦃before.place⦄ stmtUpTo n ⦃⇓ stmt after => ⌜AllPlaced [.stmt stmt] before after⌝⦄ := by
  induction n generalizing before with
  | zero => omega
  | succ n induction =>
      refine triple_iff.mpr ?_
      rintro ⟨rest, behind⟩ rfl
      cases rest with
      | nil => exact .point order rfl nofun rfl
      | cons token rest =>
          refine triple_iff.mp (placed_stmtAtWith (fun before reaches => ?_)
            (placed_rules (n + 1)) order rfl .refl) _ rfl
          have length_le := reaches.length_le
          simp only [Cursor.tail, List.length_cons] at length_le enough
          exact induction before (order.reaches (.trans (.tail .refl) reaches)) (by omega)

theorem placed_block (before : Cursor) (order : before.IsOrdered) :
    ⦃before.place⦄ block ⦃⇓ block after => ⌜AllPlaced [.block block] before after⌝⦄ := by
  have places (cursor : Cursor) (reaches : before.Reaches cursor) :
      ⦃cursor.place⦄ stmtUpTo (before.rest.length + 1)
        ⦃⇓ stmt after => ⌜AllPlaced [.stmt stmt] cursor after⌝⦄ :=
    placed_stmtUpTo cursor (order.reaches reaches) (Nat.lt_succ_of_le reaches.length_le)
  refine triple_iff.mpr ?_
  rintro cursor rfl
  exact triple_iff.mp (placed_blockWith places cursor (reaches_accept _ _)) cursor rfl

end Parser

end JavaOutline
