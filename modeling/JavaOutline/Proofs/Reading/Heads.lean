import Mathlib
import JavaOutline.Proofs.Reading.Citations
import JavaOutline.Proofs.Reading.ExprReadings

/-!
# The expressions in the heads of statements

The value of a node shows the condition, the collection, the selector or the lock of its statement.
All of these are read as their readings say, from tokens of the source that stand one after the
other.
-/

set_option mvcgen.warning false

open Std.Do

namespace JavaOutline

mutual

/-- Whether something is true of all expressions in the heads of a statement and of the statements
inside it. -/
def Stmt.AllHeads (holds : Expr → Prop) : Stmt → Prop
  | .assertion _ condition none => holds condition
  | .assertion _ condition (some message) => holds condition ∧ holds message
  | .conditional _ condition whenTrue none => holds condition ∧ whenTrue.AllHeads holds
  | .conditional _ condition whenTrue (some whenFalse) =>
    holds condition ∧ whenTrue.AllHeads holds ∧ whenFalse.AllHeads holds
  | .whileLoop _ condition body | .doLoop _ body condition | .forEach _ _ condition body
  | .forLoop _ _ (some condition) _ body => holds condition ∧ body.AllHeads holds
  | .forLoop _ _ none _ body | .labeled _ _ body => body.AllHeads holds
  | .switch _ selector groups => holds selector ∧ SwitchGroup.AllHeads holds groups
  | .synchronized _ lock body => holds lock ∧ body.AllHeads holds
  | .tries _ _ body handlers cleanup =>
    body.AllHeads holds ∧ Handler.AllHeads holds handlers ∧ Block.CleanupHeads holds cleanup
  | .block inner => inner.AllHeads holds
  | _ => True

/-- Whether something is true of all expressions in the heads of some statements. -/
def Stmt.EachHead (holds : Expr → Prop) : List Stmt → Prop
  | [] => True
  | stmt :: stmts => stmt.AllHeads holds ∧ Stmt.EachHead holds stmts

/-- Whether something is true of all expressions in the heads of the statements of a block. -/
def Block.AllHeads (holds : Expr → Prop) : Block → Prop
  | .mk _ statements => Stmt.EachHead holds statements

/-- Whether something is true of all expressions in the heads of the statements of some groups. -/
def SwitchGroup.AllHeads (holds : Expr → Prop) : List SwitchGroup → Prop
  | [] => True
  | .mk _ _ _ statements :: groups =>
    Stmt.EachHead holds statements ∧ SwitchGroup.AllHeads holds groups

/-- Whether something is true of all expressions in the heads of the statements of some `catch`
clauses. -/
def Handler.AllHeads (holds : Expr → Prop) : List Handler → Prop
  | [] => True
  | .mk _ _ _ body :: handlers => body.AllHeads holds ∧ Handler.AllHeads holds handlers

/-- Whether something is true of all expressions in the heads of the statements of a `finally`
clause, if there is one. -/
def Block.CleanupHeads (holds : Expr → Prop) : Option Block → Prop
  | none => True
  | some body => body.AllHeads holds

end

theorem Stmt.allHeads_forLoop {holds : Expr → Prop} {span : Span} {init : ForInit}
    {condition : Option Expr} {update : List Expr} {body : Stmt} :
    (Stmt.forLoop span init condition update body).AllHeads holds ↔
      (∀ expr, condition = some expr → holds expr) ∧ body.AllHeads holds := by
  cases condition <;> simp [Stmt.AllHeads]

/-- Whether an expression is missing or was read behind a place as one of its readings says. -/
def Expr.IsReadFrom (origin : Cursor) (expr : Expr) : Prop :=
  expr = .missing expr.span ∨ ∃ first last : Cursor, origin.Reaches first ∧
    first.Takes expr.reading last ∧ expr.span = ⟨first.here, last.behind⟩ ∧ first.here < last.behind

theorem Expr.Accounts.isReadFrom {expr : Expr} {origin before after : Cursor}
    (accounts : expr.Accounts before after) (reaches : origin.Reaches before) :
    expr.IsReadFrom origin := by
  obtain ⟨first, last, leads, reads, -, missing | ⟨span_eq, start_lt⟩⟩ := accounts
  · exact .inl missing
  · exact .inr ⟨first, last, reaches.trans leads.reaches, reads, span_eq, start_lt⟩

namespace Parser

variable {origin : Cursor}

/-- Whether what a parser reads, if it reads something, is read as its readings say. -/
def ReadsFrom (origin : Cursor) (parser : Parser (Option Expr)) : Prop :=
  ∀ before : Cursor, origin.Reaches before → ⦃before.place⦄ parser ⦃⇓ result after =>
    ⌜before.Reaches after ∧ ∀ expr, result = some expr → expr.IsReadFrom origin⌝⦄

/-- Rules that may call each other more often than there are tokens read as the readings say. -/
theorem readsFrom_rules {n : Nat} (scanned : origin.IsScanned) (enough : origin.rest.length < n) :
    ReadsFrom origin (rules n).expr := by
  intro before reaches
  refine triple_iff.mpr ?_
  rintro cursor rfl
  have scanned := scanned.reaches reaches
  have short := Nat.lt_of_le_of_lt reaches.length_le enough
  have read := triple_iff.mp ((account_shortRules n).expr cursor scanned) cursor rfl
  rw [(shortRules_eq scanned.exists_inOrder short short).expr] at read
  cases result_eq : ((rules n).expr cursor).1 with
  | none =>
      rw [result_eq] at read
      exact ⟨read, nofun⟩
  | some expr =>
      rw [result_eq] at read
      have accounts := Expr.OperandAccounts.accounts read.toOperandAccounts
      refine ⟨accounts.reaches, ?_⟩
      rintro _ ⟨rfl⟩
      exact accounts.isReadFrom reaches

theorem isReadFrom_orMissing {parser : Parser (Option Expr)} (reads : ReadsFrom origin parser)
    (before : Cursor) (reaches : origin.Reaches before) :
    ⦃before.place⦄ orMissing parser
      ⦃⇓ expr after => ⌜before.Reaches after ∧ expr.IsReadFrom origin⌝⦄ := by
  unfold ReadsFrom at reads
  mvcgen [orMissing, reads, place_missing_exact, -onward_orMissing, -onward_missing,
    -placed_orMissing, -placed_missing] <;> grind -ring -linarith [Expr.IsReadFrom, Expr.span]

theorem isReadFrom_conditionWith {rules : Rules} (reads : ReadsFrom origin rules.expr)
    (before : Cursor) (reaches : origin.Reaches before) :
    ⦃before.place⦄ conditionWith rules
      ⦃⇓ expr after => ⌜before.Reaches after ∧ expr.IsReadFrom origin⌝⦄ := by
  have condition := isReadFrom_orMissing reads
  mvcgen [conditionWith, condition, -onward_conditionWith, -placed_conditionWith,
    -onward_orMissing, -placed_orMissing]
  all_goals clear condition
  all_goals grind -ring -linarith

section Statements

variable {holds : Expr → Prop}

theorem heads_manyStmts {step : Parser (Option Stmt)}
    (read : ∀ before : Cursor, origin.Reaches before → ⦃before.place⦄ step ⦃⇓ result after =>
      ⌜before.Reaches after ∧ ∀ stmt, result = some stmt → stmt.AllHeads holds⌝⦄)
    (before : Cursor) (reaches : origin.Reaches before) :
    ⦃before.place⦄ many step ⦃⇓ stmts after =>
      ⌜before.Reaches after ∧ Stmt.EachHead holds stmts⌝⦄ :=
  cites_many (Stmt.EachHead holds) trivial And.intro read before reaches

theorem heads_manyGroups {step : Parser (Option SwitchGroup)}
    (read : ∀ before : Cursor, origin.Reaches before → ⦃before.place⦄ step ⦃⇓ result after =>
      ⌜before.Reaches after ∧
        ∀ group, result = some group → SwitchGroup.AllHeads holds [group]⌝⦄)
    (before : Cursor) (reaches : origin.Reaches before) :
    ⦃before.place⦄ many step ⦃⇓ groups after =>
      ⌜before.Reaches after ∧ SwitchGroup.AllHeads holds groups⌝⦄ := by
  refine cites_many (SwitchGroup.AllHeads holds) trivial ?_ read before reaches
  rintro ⟨_, _, _, _⟩ groups ⟨here, -⟩ later
  exact ⟨here, later⟩

theorem heads_manyHandlers {step : Parser (Option Handler)}
    (read : ∀ before : Cursor, origin.Reaches before → ⦃before.place⦄ step ⦃⇓ result after =>
      ⌜before.Reaches after ∧ ∀ handler, result = some handler → Handler.AllHeads holds [handler]⌝⦄)
    (before : Cursor) (reaches : origin.Reaches before) :
    ⦃before.place⦄ many step ⦃⇓ handlers after =>
      ⌜before.Reaches after ∧ Handler.AllHeads holds handlers⌝⦄ := by
  refine cites_many (Handler.AllHeads holds) trivial ?_ read before reaches
  rintro ⟨_, _, _, _⟩ handlers ⟨here, -⟩ later
  exact ⟨here, later⟩

variable {stmt : Parser Stmt}
  (heads : ∀ before : Cursor, origin.Reaches before → ⦃before.place⦄ stmt
    ⦃⇓ stmt after => ⌜before.Reaches after ∧ stmt.AllHeads (·.IsReadFrom origin)⌝⦄)

include heads

theorem heads_blockWith (before : Cursor) (reaches : origin.Reaches before) :
    ⦃before.place⦄ blockWith stmt ⦃⇓ block after =>
      ⌜before.Reaches after ∧ block.AllHeads (·.IsReadFrom origin)⌝⦄ := by
  have loop := @heads_manyStmts origin (·.IsReadFrom origin)
  mvcgen [blockWith, heads, loop, -laidOut_blockWith, -laidOut_manyStmts, -placed_manyStmts] <;>
    clear loop heads <;> grind -ring -linarith [Block.AllHeads]

theorem heads_handlerWith (before : Cursor) (reaches : origin.Reaches before) :
    ⦃before.place⦄ handlerWith stmt ⦃⇓ result after => ⌜before.Reaches after ∧
      ∀ handler, result = some handler → Handler.AllHeads (·.IsReadFrom origin) [handler]⌝⦄ := by
  have blocks := heads_blockWith heads
  mvcgen [handlerWith, blocks, -laidOut_handlerWith, -laidOut_blockWith, -placed_caughtTypes] <;>
    clear blocks heads <;> grind -ring -linarith [Handler.AllHeads]

theorem heads_tryWith (start : Nat) (before : Cursor) (reaches : origin.Reaches before) :
    ⦃before.place⦄ tryWith stmt start
      ⦃⇓ stmt _ => ⌜stmt.AllHeads (·.IsReadFrom origin)⌝⦄ := by
  have blocks := heads_blockWith heads
  have handlers := heads_handlerWith heads
  have loop := @heads_manyHandlers origin (·.IsReadFrom origin)
  mvcgen [tryWith, solid_resources, blocks, handlers, loop, -laidOut_tryWith, -laidOut_handlerWith,
    -laidOut_manyHandlers, -placed_manyHandlers, -laidOut_blockWith, -placed_resources,
    -onward_resources] <;>
    clear blocks handlers loop heads <;>
    grind -ring -linarith [Stmt.AllHeads, Block.CleanupHeads]

variable {rules : Rules} (reads : ReadsFrom origin rules.expr) (account : rules.Reads)
  (order : origin.IsOrdered)

include reads account order

theorem heads_forWith (start : Nat) (before : Cursor) (reaches : origin.Reaches before) :
    ⦃before.place⦄ forWith rules stmt start
      ⦃⇓ stmt _ => ⌜stmt.AllHeads (·.IsReadFrom origin)⌝⦄ := by
  have onward := account.onward
  have placed := account.placed
  have collection := isReadFrom_orMissing reads
  unfold ReadsFrom at reads
  mvcgen [forWith, heads, reads, collection, -laidOut_forWith, -onward_orMissing,
    -placed_orMissing, -Rules.Placed.expr, -Rules.Onward.expr] <;>
    clear heads reads collection <;> grind -ring -linarith [Stmt.AllHeads, Stmt.allHeads_forLoop]

omit reads in
theorem heads_groupWith (before : Cursor) (reaches : origin.Reaches before) :
    ⦃before.place⦄ groupWith rules stmt ⦃⇓ group after => ⌜before.Reaches after ∧
      SwitchGroup.AllHeads (·.IsReadFrom origin) [group]⌝⦄ := by
  have onward := account.onward
  have placed := account.placed
  have loop := @heads_manyStmts origin (·.IsReadFrom origin)
  mvcgen [groupWith, heads, loop, -laidOut_groupWith, -laidOut_manyStmts, -placed_manyStmts] <;>
    clear loop heads <;> grind -ring -linarith [SwitchGroup.AllHeads, Stmt.EachHead]

theorem heads_switchWith (start : Nat) (before : Cursor) (reaches : origin.Reaches before) :
    ⦃before.place⦄ switchWith rules stmt start
      ⦃⇓ stmt _ => ⌜stmt.AllHeads (·.IsReadFrom origin)⌝⦄ := by
  have onward := account.onward
  have placed := account.placed
  have condition := isReadFrom_conditionWith reads
  have groups := heads_groupWith heads account order
  have loop := @heads_manyGroups origin (·.IsReadFrom origin)
  mvcgen [switchWith, condition, groups, loop, -laidOut_switchWith, -laidOut_groupWith,
    -laidOut_manyGroups, -placed_manyGroups, -placed_conditionWith, -onward_conditionWith] <;>
    clear condition groups loop heads <;> grind -ring -linarith [Stmt.AllHeads]

omit heads reads order in
theorem heads_exprStmtWith (start : Nat) (before : Cursor) :
    ⦃before.place⦄ exprStmtWith rules start
      ⦃⇓ stmt _ => ⌜stmt.AllHeads (·.IsReadFrom origin)⌝⦄ := by
  have call (span : Span) (expr : Expr) :
      (statementOf span expr).AllHeads (·.IsReadFrom origin) := by
    fun_cases statementOf span expr <;> trivial
  have onward := account.onward
  mvcgen [exprStmtWith, -Rules.Placed.expr, -laidOut_exprStmtWith, -placed_exprStmtWith] <;>
    grind -ring -linarith [Stmt.AllHeads]

omit heads reads order in
theorem heads_declarationWith (start : Nat) (before : Cursor) :
    ⦃before.place⦄ declarationWith rules start
      ⦃⇓ stmt _ => ⌜stmt.AllHeads (·.IsReadFrom origin)⌝⦄ := by
  have onward := account.onward
  have expr := @heads_exprStmtWith origin rules account
  mvcgen [declarationWith, localType?, expr, -laidOut_localType?, -placed_localType?,
    -placed_variablesWith, -laidOut_exprStmtWith, -placed_exprStmtWith, -laidOut_declarationWith,
    -placed_declarationWith] <;>
    clear expr <;> grind -ring -linarith [Stmt.AllHeads]

theorem heads_stmtAtWith (token : Token) (before : Cursor) (reaches : origin.Reaches before) :
    ⦃before.place⦄ stmtAtWith rules stmt token
      ⦃⇓ stmt _ => ⌜stmt.AllHeads (·.IsReadFrom origin)⌝⦄ := by
  have onward := account.onward
  have placed := account.placed
  have condition := isReadFrom_conditionWith reads
  have optional := isReadFrom_orMissing reads
  have blocks := heads_blockWith heads
  have tries := heads_tryWith heads
  have loops := heads_forWith heads reads account order
  have switches := heads_switchWith heads reads account order
  have declaration := @heads_declarationWith origin rules account
  have expr := @heads_exprStmtWith origin rules account
  mvcgen [stmtAtWith, heads, condition, optional, blocks, tries, loops, switches, declaration, expr,
    -laidOut_blockWith, -laidOut_forWith, -laidOut_switchWith, -laidOut_tryWith,
    -laidOut_exprStmtWith, -placed_exprStmtWith, -laidOut_declarationWith,
    -placed_declarationWith, -placed_conditionWith, -onward_conditionWith, -placed_orMissing,
    -onward_orMissing]
  all_goals
    clear condition optional blocks tries loops switches declaration expr heads reads
  all_goals grind -ring -linarith [Stmt.AllHeads]

end Statements

theorem laidOut_stmtOver (m n : Nat) (before : Cursor) :
    ⦃before.place⦄ stmtOver (rules m) (stmtUpTo 0) n
      ⦃⇓ stmt after => ⌜stmt.LaidOut before after⌝⦄ := by
  induction n generalizing before with
  | zero => exact laidOut_stmtUpTo 0 before
  | succ n induction =>
      have onward := onward_rules (m + (n + 1))
      rw [← rulesOver_add] at onward
      exact laidOut_stmtWith induction onward before

/-- The heads in a statement are read as their readings say. -/
theorem heads_stmtOver {m : Nat} (n : Nat) (scanned : origin.IsScanned)
    (enough : origin.rest.length < m) (before : Cursor) (reaches : origin.Reaches before) :
    ⦃before.place⦄ stmtOver (rules m) (stmtUpTo 0) n
      ⦃⇓ stmt after => ⌜before.Reaches after ∧ stmt.AllHeads (·.IsReadFrom origin)⌝⦄ := by
  induction n generalizing before with
  | zero => exact triple_iff.mpr fun cursor here => here ▸ ⟨.refl, trivial⟩
  | succ n induction =>
      refine triple_iff.mpr ?_
      rintro cursor rfl
      have laidOut := triple_iff.mp (laidOut_stmtOver m (n + 1) cursor) cursor rfl
      refine ⟨laidOut.reaches, ?_⟩
      obtain ⟨rest, behind⟩ := cursor
      cases rest with
      | nil => trivial
      | cons token rest =>
          have reads := readsFrom_rules scanned (Nat.lt_add_right (n + 1) enough)
          have account := reads_rules (m + (n + 1))
          rw [← rulesOver_add] at reads account
          exact triple_iff.mp
            (heads_stmtAtWith induction reads account scanned.exists_inOrder token _ reaches) _ rfl

/-- The heads in a block are read as their readings say. -/
theorem heads_block {before : Cursor} (scanned : origin.IsScanned)
    (reaches : origin.Reaches before) : (block before).1.AllHeads (·.IsReadFrom origin) := by
  have order := (scanned.reaches reaches).exists_inOrder
  have enough := Nat.lt_succ_self before.rest.length
  have enough' := Nat.lt_succ_self origin.rest.length
  have heads :=
    heads_blockWith (heads_stmtOver (before.rest.length + 1) scanned enough') before reaches
  rw [← blockWith_eq_block order (rules (origin.rest.length + 1)) (stmtUpTo 0) enough]
  exact (triple_iff.mp heads before rfl).2

end Parser

end JavaOutline
