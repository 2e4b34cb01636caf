import Mathlib
import JavaOutline.Proofs.Reading.Filled

/-!
# What an outline cites

An outline has the labels and the resources of statements in its values as they are written. The
label of a labeled statement is the token that the statement begins with, the label of a jump is a
token, too, and no resource of a `try` is empty.
-/

set_option mvcgen.warning false

open Std.Do

namespace JavaOutline

/-- Whether a name is one of some tokens. -/
def Name.IsToken (tokens : List Token) (name : Name) : Prop :=
  ∃ token ∈ tokens, name = ⟨token.text, token.span⟩

mutual

/-- Whether the labels of a statement and of the statements inside it are among some tokens, a
labeled statement begins with its label, and the resources are not empty. -/
def Stmt.Cites (tokens : List Token) : Stmt → Prop
  | .jump _ _ (some label) => label.IsToken tokens
  | .labeled span label body =>
    label.IsToken tokens ∧ label.span.start = span.start ∧ body.Cites tokens
  | .conditional _ _ whenTrue none => whenTrue.Cites tokens
  | .conditional _ _ whenTrue (some whenFalse) =>
    whenTrue.Cites tokens ∧ whenFalse.Cites tokens
  | .whileLoop _ _ body | .doLoop _ body _ | .forLoop _ _ _ _ body | .forEach _ _ _ body =>
    body.Cites tokens
  | .switch _ _ groups => SwitchGroup.AllCite tokens groups
  | .synchronized _ _ body => body.Cites tokens
  | .tries _ resources body handlers cleanup =>
    (∀ span ∈ resources, span.start < span.stop) ∧ body.Cites tokens ∧
      Handler.AllCite tokens handlers ∧ Block.CleanupCites tokens cleanup
  | .block inner => inner.Cites tokens
  | _ => True

/-- Whether some statements cite from some tokens. -/
def Stmt.AllCite (tokens : List Token) : List Stmt → Prop
  | [] => True
  | stmt :: stmts => stmt.Cites tokens ∧ Stmt.AllCite tokens stmts

/-- Whether the statements of a block cite from some tokens. -/
def Block.Cites (tokens : List Token) : Block → Prop
  | .mk _ statements => Stmt.AllCite tokens statements

/-- Whether the statements of a group cite from some tokens. -/
def SwitchGroup.Cites (tokens : List Token) : SwitchGroup → Prop
  | .mk _ _ _ statements => Stmt.AllCite tokens statements

/-- Whether the statements of some groups cite from some tokens. -/
def SwitchGroup.AllCite (tokens : List Token) : List SwitchGroup → Prop
  | [] => True
  | group :: groups => group.Cites tokens ∧ SwitchGroup.AllCite tokens groups

/-- Whether the statements of a `catch` clause cite from some tokens. -/
def Handler.Cites (tokens : List Token) : Handler → Prop
  | .mk _ _ _ body => body.Cites tokens

/-- Whether the statements of some `catch` clauses cite from some tokens. -/
def Handler.AllCite (tokens : List Token) : List Handler → Prop
  | [] => True
  | handler :: handlers => handler.Cites tokens ∧ Handler.AllCite tokens handlers

/-- Whether the statements of a `finally` clause, if there is one, cite from some tokens. -/
def Block.CleanupCites (tokens : List Token) : Option Block → Prop
  | none => True
  | some body => body.Cites tokens

end

/-- A token that is read after a place is among the tokens from the place on. -/
theorem Name.isToken_of_head? {origin before : Cursor} {token : Token}
    (reaches : origin.Reaches before) (head : before.rest.head? = some token) :
    Name.IsToken origin.rest ⟨token.text, token.span⟩ :=
  ⟨token, reaches.suffix.subset (List.mem_of_head? head), rfl⟩

grind_pattern Name.isToken_of_head? => origin.Reaches before,
  Name.IsToken origin.rest ⟨token.text, token.span⟩

/-- The label of a jump may be the token at any place. -/
theorem Stmt.cites_jump {origin before : Cursor} {label : Option Token} {span : Span}
    {kind : JumpKind} {name : Token → Name} (name_eq : name = fun token => ⟨token.text, token.span⟩)
    (reaches : origin.Reaches before) (label_eq : label = before.rest.head?) :
    (Stmt.jump span kind (label.map name)).Cites origin.rest := by
  rw [name_eq]
  cases label with
  | none => trivial
  | some token => exact Name.isToken_of_head? reaches label_eq.symm

grind_pattern Stmt.cites_jump => origin.Reaches before, Stmt.jump span kind (label.map name)

namespace Parser

variable {origin before : Cursor}

/-- What is read one at a time cites from the tokens, if each does. -/
theorem cites_many {α : Type} {step : Parser (Option α)} {one : α → Prop} (all : List α → Prop)
    (nil : all []) (cons : ∀ {value values}, one value → all values → all (value :: values))
    (read : ∀ before : Cursor, origin.Reaches before → ⦃before.place⦄ step ⦃⇓ result after =>
      ⌜before.Reaches after ∧ ∀ value, result = some value → one value⌝⦄)
    (before : Cursor) (reaches : origin.Reaches before) :
    ⦃before.place⦄ many step ⦃⇓ values after => ⌜before.Reaches after ∧ all values⌝⦄ := by
  have upTo (n : Nat) (before : Cursor) (reaches : origin.Reaches before) :
      ⦃before.place⦄ manyUpTo step n ⦃⇓ values after => ⌜before.Reaches after ∧ all values⌝⦄ := by
    induction n generalizing before with
    | zero =>
        mvcgen [manyUpTo]
        grind -ring -linarith
    | succ n induction => mvcgen [manyUpTo, read, induction] <;> grind -ring -linarith
  exact triple_iff.mpr fun cursor here =>
    triple_iff.mp (upTo (cursor.rest.length + 1) before reaches) cursor here

theorem cites_manyStmts {step : Parser (Option Stmt)}
    (read : ∀ before : Cursor, origin.Reaches before → ⦃before.place⦄ step ⦃⇓ result after =>
      ⌜before.Reaches after ∧ ∀ stmt, result = some stmt → stmt.Cites origin.rest⌝⦄)
    (before : Cursor) (reaches : origin.Reaches before) :
    ⦃before.place⦄ many step ⦃⇓ stmts after =>
      ⌜before.Reaches after ∧ Stmt.AllCite origin.rest stmts⌝⦄ :=
  cites_many (Stmt.AllCite origin.rest) trivial And.intro read before reaches

theorem cites_manyGroups {step : Parser (Option SwitchGroup)}
    (read : ∀ before : Cursor, origin.Reaches before → ⦃before.place⦄ step ⦃⇓ result after =>
      ⌜before.Reaches after ∧ ∀ group, result = some group → group.Cites origin.rest⌝⦄)
    (before : Cursor) (reaches : origin.Reaches before) :
    ⦃before.place⦄ many step ⦃⇓ groups after =>
      ⌜before.Reaches after ∧ SwitchGroup.AllCite origin.rest groups⌝⦄ :=
  cites_many (SwitchGroup.AllCite origin.rest) trivial And.intro read before reaches

theorem cites_manyHandlers {step : Parser (Option Handler)}
    (read : ∀ before : Cursor, origin.Reaches before → ⦃before.place⦄ step ⦃⇓ result after =>
      ⌜before.Reaches after ∧ ∀ handler, result = some handler → handler.Cites origin.rest⌝⦄)
    (before : Cursor) (reaches : origin.Reaches before) :
    ⦃before.place⦄ many step ⦃⇓ handlers after =>
      ⌜before.Reaches after ∧ Handler.AllCite origin.rest handlers⌝⦄ :=
  cites_many (Handler.AllCite origin.rest) trivial And.intro read before reaches

/-- The resources of a `try` are not empty. -/
theorem solid_resources (before : Cursor) :
    ⦃before.place⦄ resources ⦃⇓ spans after =>
      ⌜before.Reaches after ∧ ∀ span ∈ spans, span.start < span.stop⌝⦄ := by
  mvcgen [resources, -placed_resources, -onward_resources] <;>
    grind -ring -linarith [Span.isEmpty]

section Statements

variable {stmt : Parser Stmt}
  (cites : ∀ before : Cursor, origin.Reaches before → ⦃before.place⦄ stmt
    ⦃⇓ stmt after => ⌜before.Reaches after ∧ stmt.Cites origin.rest⌝⦄)

include cites

theorem cites_blockWith (before : Cursor) (reaches : origin.Reaches before) :
    ⦃before.place⦄ blockWith stmt
      ⦃⇓ block after => ⌜before.Reaches after ∧ block.Cites origin.rest⌝⦄ := by
  have loop := @cites_manyStmts origin
  mvcgen [blockWith, cites, loop, -laidOut_blockWith, -laidOut_manyStmts, -placed_manyStmts] <;>
    clear loop cites <;> grind -ring -linarith [Block.Cites]

theorem cites_handlerWith (before : Cursor) (reaches : origin.Reaches before) :
    ⦃before.place⦄ handlerWith stmt ⦃⇓ result after =>
      ⌜before.Reaches after ∧
        ∀ handler, result = some handler → handler.Cites origin.rest⌝⦄ := by
  have blocks := cites_blockWith cites
  mvcgen [handlerWith, blocks, -laidOut_handlerWith, -laidOut_blockWith, -placed_caughtTypes] <;>
    clear blocks cites <;> grind -ring -linarith [Handler.Cites]

theorem cites_tryWith (start : Nat) (before : Cursor) (reaches : origin.Reaches before) :
    ⦃before.place⦄ tryWith stmt start
      ⦃⇓ stmt _ => ⌜stmt.Cites origin.rest⌝⦄ := by
  have blocks := cites_blockWith cites
  have handlers := cites_handlerWith cites
  have loop := @cites_manyHandlers origin
  mvcgen [tryWith, solid_resources, blocks, handlers, loop, -laidOut_tryWith, -laidOut_handlerWith,
    -laidOut_manyHandlers, -placed_manyHandlers, -laidOut_blockWith, -placed_resources,
    -onward_resources] <;>
    clear blocks handlers loop cites <;>
    grind -ring -linarith [Stmt.Cites, Block.CleanupCites]

variable {rules : Rules} (reads : rules.Reads) (order : origin.IsOrdered)

include reads order

theorem cites_forWith (start : Nat) (before : Cursor) (reaches : origin.Reaches before) :
    ⦃before.place⦄ forWith rules stmt start
      ⦃⇓ stmt _ => ⌜stmt.Cites origin.rest⌝⦄ := by
  have onward := reads.onward
  have placed := reads.placed
  mvcgen [forWith, cites, -laidOut_forWith] <;>
    clear cites <;> grind -ring -linarith [Stmt.Cites]

theorem cites_groupWith (before : Cursor) (reaches : origin.Reaches before) :
    ⦃before.place⦄ groupWith rules stmt
      ⦃⇓ group after => ⌜before.Reaches after ∧ group.Cites origin.rest⌝⦄ := by
  have onward := reads.onward
  have placed := reads.placed
  have loop := @cites_manyStmts origin
  mvcgen [groupWith, cites, loop, -laidOut_groupWith, -laidOut_manyStmts, -placed_manyStmts] <;>
    clear loop cites <;> grind -ring -linarith [SwitchGroup.Cites, Stmt.AllCite]

theorem cites_switchWith (start : Nat) (before : Cursor) (reaches : origin.Reaches before) :
    ⦃before.place⦄ switchWith rules stmt start
      ⦃⇓ stmt _ => ⌜stmt.Cites origin.rest⌝⦄ := by
  have onward := reads.onward
  have placed := reads.placed
  have groups := cites_groupWith cites reads order
  have loop := @cites_manyGroups origin
  mvcgen [switchWith, groups, loop, -laidOut_switchWith, -laidOut_groupWith,
    -laidOut_manyGroups, -placed_manyGroups] <;>
    clear groups loop cites <;> grind -ring -linarith [Stmt.Cites]

omit cites order in
theorem cites_exprStmtWith (tokens : List Token) (start : Nat) (before : Cursor) :
    ⦃before.place⦄ exprStmtWith rules start ⦃⇓ stmt _ => ⌜stmt.Cites tokens⌝⦄ := by
  have call (span : Span) (expr : Expr) : (statementOf span expr).Cites tokens := by
    fun_cases statementOf span expr <;> trivial
  have onward := reads.onward
  mvcgen [exprStmtWith, -Rules.Placed.expr, -laidOut_exprStmtWith, -placed_exprStmtWith] <;>
    grind -ring -linarith [Stmt.Cites]

omit cites order in
theorem cites_declarationWith (tokens : List Token) (start : Nat) (before : Cursor) :
    ⦃before.place⦄ declarationWith rules start ⦃⇓ stmt _ => ⌜stmt.Cites tokens⌝⦄ := by
  have onward := reads.onward
  have expr := cites_exprStmtWith reads tokens
  mvcgen [declarationWith, localType?, expr, -laidOut_localType?, -placed_localType?,
    -placed_variablesWith, -laidOut_exprStmtWith, -placed_exprStmtWith, -laidOut_declarationWith,
    -placed_declarationWith] <;>
    clear expr <;> grind -ring -linarith [Stmt.Cites]

theorem cites_stmtAtWith {token : Token} {rest : List Token} (reaches : origin.Reaches before)
    (head : before.rest = token :: rest) :
    ⦃before.place⦄ stmtAtWith rules stmt token
      ⦃⇓ stmt _ => ⌜stmt.Cites origin.rest⌝⦄ := by
  have onward := reads.onward
  have placed := reads.placed
  have blocks := cites_blockWith cites
  have tries := cites_tryWith cites
  have loops := cites_forWith cites reads order
  have switches := cites_switchWith cites reads order
  have declaration := cites_declarationWith reads origin.rest
  have expr := cites_exprStmtWith reads origin.rest
  mvcgen [stmtAtWith, cites, blocks, tries, loops, switches, declaration, expr,
    -laidOut_blockWith, -laidOut_forWith, -laidOut_switchWith, -laidOut_tryWith,
    -laidOut_exprStmtWith, -placed_exprStmtWith, -laidOut_declarationWith,
    -placed_declarationWith]
  all_goals clear blocks tries loops switches declaration expr cites
  all_goals grind -ring -linarith [Stmt.Cites, Cursor.spanFrom]

end Statements

/-- A statement cites from the tokens from any place before it on. -/
theorem cites_stmtUpTo (n : Nat) (order : origin.IsOrdered) (before : Cursor)
    (reaches : origin.Reaches before) :
    ⦃before.place⦄ stmtUpTo n
      ⦃⇓ stmt after => ⌜before.Reaches after ∧ stmt.Cites origin.rest⌝⦄ := by
  induction n generalizing before with
  | zero => exact triple_iff.mpr fun cursor here => here ▸ ⟨.refl, trivial⟩
  | succ n induction =>
      refine triple_iff.mpr ?_
      rintro cursor rfl
      have laidOut := triple_iff.mp (laidOut_stmtUpTo (n + 1) cursor) cursor rfl
      refine ⟨laidOut.reaches, ?_⟩
      obtain ⟨rest, behind⟩ := cursor
      cases rest with
      | nil => trivial
      | cons token rest =>
          exact triple_iff.mp
            (cites_stmtAtWith induction (reads_rules (n + 1)) order reaches rfl) _ rfl

/-- A block cites from the tokens from any place before it on. -/
theorem cites_block (order : origin.IsOrdered) (reaches : origin.Reaches before) :
    (block before).1.Cites origin.rest := by
  have cites := cites_blockWith (cites_stmtUpTo (before.rest.length + 1) order) before reaches
  exact (triple_iff.mp cites before rfl).2

end Parser

end JavaOutline
