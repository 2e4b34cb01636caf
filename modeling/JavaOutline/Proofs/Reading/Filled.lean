import Mathlib
import JavaOutline.Proofs.Reading.Progress
import JavaOutline.Proofs.Reading.Spans

/-!
# Statements that are not empty

A statement that was read holds at least one token, unless it is left unparsed, and so do its labels
and its `catch` clauses. Only the block of a `try` or of a `finally` clause may hold none, and only
where the text ends.
-/

set_option mvcgen.warning false

open Std.Do

namespace JavaOutline

/-- Whether an expression is a pattern. -/
def Expr.isPattern : Expr → Bool
  | .excerpt _ .pattern => true
  | _ => false

/-- Whether a statement holds at least one token, unless an outline passes over it, looks at what is
inside it only, or rejects it. -/
def Stmt.Spread : Stmt → Prop
  | .block _ | .empty _ | .unparsed _ => True
  | stmt => stmt.span.start < stmt.span.stop

/-- Whether a block holds at least one token, or stands empty where the text ends. -/
def Block.Spread (limit : Nat) (block : Block) : Prop :=
  block.span.start < block.span.stop ∨ block = .mk (.point limit) []

mutual

/-- Whether what is inside a statement is not empty, in a text that ends at `limit`. -/
def Stmt.Filled (limit : Nat) : Stmt → Prop
  | .conditional _ _ whenTrue none => whenTrue.Spread ∧ whenTrue.Filled limit
  | .conditional _ _ whenTrue (some whenFalse) =>
    (whenTrue.Spread ∧ whenTrue.Filled limit) ∧ whenFalse.Spread ∧ whenFalse.Filled limit
  | .whileLoop _ _ body | .doLoop _ body _ | .forLoop _ _ _ _ body | .forEach _ _ _ body
  | .labeled _ _ body => body.Spread ∧ body.Filled limit
  | .switch _ _ groups => SwitchGroup.AllFilled limit groups
  | .synchronized _ _ body => body.Filled limit
  | .tries _ _ body handlers cleanup =>
    (body.Spread limit ∧ body.Filled limit) ∧ Handler.AllFilled limit handlers ∧
      Block.CleanupFilled limit cleanup
  | .block inner => inner.Filled limit
  | .returns _ (some value) => value.isPattern = false
  | .throws _ value => value.isPattern = false
  | _ => True

/-- Whether some statements and what is inside them is not empty. -/
def Stmt.AllFilled (limit : Nat) : List Stmt → Prop
  | [] => True
  | stmt :: stmts => (stmt.Spread ∧ stmt.Filled limit) ∧ Stmt.AllFilled limit stmts

/-- Whether the statements of a block and what is inside them is not empty. -/
def Block.Filled (limit : Nat) : Block → Prop
  | .mk _ statements => Stmt.AllFilled limit statements

/-- Whether the labels and statements of a group and what is inside them is not empty. -/
def SwitchGroup.Filled (limit : Nat) : SwitchGroup → Prop
  | .mk _ _ labels statements =>
    (∀ label ∈ labels, label.span.start < label.span.stop) ∧ Stmt.AllFilled limit statements

/-- Whether some groups are not empty. -/
def SwitchGroup.AllFilled (limit : Nat) : List SwitchGroup → Prop
  | [] => True
  | group :: groups => group.Filled limit ∧ SwitchGroup.AllFilled limit groups

/-- Whether a `catch` clause and what is inside it is not empty. -/
def Handler.Filled (limit : Nat) : Handler → Prop
  | .mk span _ _ body => span.start < span.stop ∧ body.Filled limit

/-- Whether some `catch` clauses are not empty. -/
def Handler.AllFilled (limit : Nat) : List Handler → Prop
  | [] => True
  | handler :: handlers => handler.Filled limit ∧ Handler.AllFilled limit handlers

/-- Whether the block of a `finally` clause, if there is one, and what is inside it is not empty. -/
def Block.CleanupFilled (limit : Nat) : Option Block → Prop
  | none => True
  | some body => body.Spread limit ∧ body.Filled limit

end

namespace Cursor

variable {before after : Cursor} {bound limit : Nat}

/-- Where the last token ends; after it, where it ended. -/
def finish (cursor : Cursor) : Nat :=
  (cursor.rest.getLast?.map (·.span.stop)).getD cursor.behind

theorem finish_tail (cursor : Cursor) : cursor.tail.finish = cursor.finish := by
  obtain ⟨rest, behind⟩ := cursor
  cases rest with
  | nil => rfl
  | cons token rest =>
      cases rest with
      | nil => rfl
      | cons next rest =>
          rw [finish, finish, tail, List.getLast?_cons_cons,
            List.getLast?_eq_some_getLast (List.cons_ne_nil next rest)]
          rfl

theorem Reaches.finish_eq (reaches : before.Reaches after) : after.finish = before.finish := by
  induction reaches with
  | refl => rfl
  | tail _ induction => rw [finish_tail, induction]

/-- Whether fewer than `bound` tokens are left, which are in order and end at `limit`. -/
structure Ready (bound limit : Nat) (cursor : Cursor) : Prop where
  short : cursor.rest.length < bound
  order : cursor.IsOrdered
  finish_eq : cursor.finish = limit

attribute [grind →] Ready.order

@[grind →]
theorem Ready.reaches (ready : before.Ready bound limit) (reaches : before.Reaches after) :
    after.Ready bound limit :=
  ⟨reaches.lt ready.short, ready.order.reaches reaches, reaches.finish_eq.trans ready.finish_eq⟩

attribute [grind →] Ready.order

@[grind →]
theorem Ready.reachesOn (ready : before.Ready (bound + 1) limit)
    (reachesOn : before.ReachesOn after) : after.Ready bound limit :=
  ⟨Nat.lt_of_lt_of_le reachesOn.length_lt (Nat.le_of_lt_succ ready.short),
    ready.order.reaches reachesOn.reaches, reachesOn.reaches.finish_eq.trans ready.finish_eq⟩

theorem Reaches.reachesOn_of_length_lt (reaches : before.Reaches after)
    (shorter : after.rest.length < before.rest.length) : before.ReachesOn after := by
  induction reaches with
  | refl => exact absurd shorter (Nat.lt_irrefl _)
  | @tail cursor reaches induction =>
      obtain ⟨rest, behind⟩ := cursor
      cases rest with
      | nil => exact induction shorter
      | cons token rest => exact ⟨_, reaches, List.cons_ne_nil _ _, .refl⟩

/-- A span over at least one token is not empty. -/
theorem Spans.start_lt_stop {span : Span} (spans : before.Spans span after)
    (reachesOn : before.ReachesOn after) (order : before.IsOrdered) : span.start < span.stop := by
  obtain ⟨source, order⟩ := order
  have here_lt := reachesOn.here_lt_behind order
  rw [spans.2, spanFrom]
  exact lt_max_of_lt_left here_lt

@[grind →]
theorem Ready.start_lt_stop (ready : before.Ready bound limit)
    (reachesOn : before.ReachesOn after) :
    (after.spanFrom before.here).start < (after.spanFrom before.here).stop :=
  Spans.start_lt_stop ⟨reachesOn.reaches, rfl⟩ reachesOn ready.order

end Cursor

/-- A statement that was read over at least one token is not empty. -/
theorem Stmt.LaidOut.spread {stmt : Stmt} {before after : Cursor}
    (laidOut : stmt.LaidOut before after) (reachesOn : before.ReachesOn after)
    (order : before.IsOrdered) : stmt.Spread := by
  cases stmt with
  | block | empty | unparsed => trivial
  | conditional span condition whenTrue whenFalse =>
      cases whenFalse with
      | none => exact laidOut.1.start_lt_stop reachesOn order
      | some whenFalse => exact laidOut.1.start_lt_stop reachesOn order
  | locals | localType | expr | constructorCall | assertion | jump | returns | throws =>
      exact Cursor.Spans.start_lt_stop laidOut reachesOn order
  | _ => exact laidOut.1.start_lt_stop reachesOn order

namespace Parser

open Construct

variable {before : Cursor} {bound limit : Nat}

/-! ## Expressions -/

theorem isPattern_of_isSolid {expr : Expr} (solid : (Construct.expr expr).isSolid) :
    expr.isPattern = false := by
  unfold Expr.isPattern
  split
  · cases solid
  · rfl

theorem unpatterned_missing (before : Cursor) :
    ⦃before.place⦄ missing ⦃⇓ expr _ => ⌜expr.isPattern = false⌝⦄ :=
  triple_iff.mpr fun _ _ => rfl

theorem unpatterned_exprWith {rules : Rules} (placed : rules.Placed) (before : Cursor)
    (order : before.IsOrdered) :
    ⦃before.place⦄ exprWith rules
      ⦃⇓ result _ => ⌜∀ expr, result = some expr → expr.isPattern = false⌝⦄ := by
  mvcgen [exprWith, lambdaWith, excerptFrom, unpatterned_missing, -onward_exprWith,
    -placed_exprWith, -onward_lambdaWith, -placed_lambdaWith, -onward_excerptFrom,
    -onward_missing, -placed_missing] <;>
    grind -ring -linarith [Expr.isPattern, → isPattern_of_isSolid]

theorem unpatterned_expr (n : Nat) (before : Cursor) (order : before.IsOrdered) :
    ⦃before.place⦄ (rules n).expr
      ⦃⇓ result _ => ⌜∀ expr, result = some expr → expr.isPattern = false⌝⦄ := by
  cases n with
  | zero => exact triple_iff.mpr fun _ _ => nofun
  | succ n => exact unpatterned_exprWith (placed_rules n) before order

/-- An expression that is read or missing is no pattern. -/
theorem unpatterned_orMissing {rules : Rules} (onward : rules.Onward)
    (unpatterned : ∀ before : Cursor, before.IsOrdered → ⦃before.place⦄ rules.expr
      ⦃⇓ result _ => ⌜∀ expr, result = some expr → expr.isPattern = false⌝⦄)
    (before : Cursor) (order : before.IsOrdered) :
    ⦃before.place⦄ orMissing rules.expr
      ⦃⇓ expr after => ⌜before.Reaches after ∧ expr.isPattern = false⌝⦄ := by
  refine triple_iff.mpr ?_
  rintro cursor rfl
  have reaches : cursor.Reaches (rules.expr cursor).2 :=
    triple_iff.mp (onward.expr cursor) cursor .refl
  have plain := triple_iff.mp (unpatterned cursor order) cursor rfl
  cases found : (rules.expr cursor).1 with
  | none =>
      rw [orMissing, bind_of_eq found]
      exact ⟨reaches, rfl⟩
  | some expr =>
      rw [orMissing, bind_of_eq found]
      exact ⟨reaches, plain expr found⟩

/-! ## Blocks -/

/-- Whether statements are read that are not empty, where fewer than `bound` tokens are left and the
text ends at `limit`. -/
structure Fills (stmt : Parser Stmt) (bound limit : Nat) : Prop where
  laysOut (before : Cursor) :
    ⦃before.place⦄ stmt ⦃⇓ stmt after => ⌜stmt.LaidOut before after⌝⦄
  reads (positive : 0 < bound) (before : Cursor) (order : before.IsOrdered)
    (more : before.atEnd = false) :
    ⦃before.place⦄ stmt ⦃⇓ _ after => ⌜before.ReachesOn after⌝⦄
  fills (before : Cursor) :
    ⦃before.place⦄ stmt ⦃⇓ stmt after => ⌜stmt.LaidOut before after ∧
      (before.Ready bound limit → stmt.Spread ∧ stmt.Filled limit)⌝⦄

theorem place_and {α : Type} {p : Parser α} {Q R : α → Cursor → Prop}
    (first : ⦃before.place⦄ p ⦃⇓ value after => ⌜Q value after⌝⦄)
    (second : ⦃before.place⦄ p ⦃⇓ value after => ⌜R value after⌝⦄) :
    ⦃before.place⦄ p ⦃⇓ value after => ⌜Q value after ∧ R value after⌝⦄ :=
  triple_iff.mpr fun cursor placed =>
    ⟨triple_iff.mp first cursor placed, triple_iff.mp second cursor placed⟩

/-- What is read one at a time is not empty, if each is not. -/
theorem filled_many {α : Type} {step : Parser (Option α)} {one : α → Prop} (all : List α → Prop)
    (nil : all []) (cons : ∀ {value values}, one value → all values → all (value :: values))
    (read : ∀ before : Cursor, ⦃before.place⦄ step ⦃⇓ result after =>
      ⌜result.elim (after = before) fun value => before.Reaches after ∧
        (before.Ready bound limit → one value)⌝⦄)
    (before : Cursor) :
    ⦃before.place⦄ many step ⦃⇓ values after => ⌜before.Reaches after ∧
      (before.Ready bound limit → all values)⌝⦄ := by
  refine place_many
    (fun value before after => before.Reaches after ∧ (before.Ready bound limit → one value))
    (fun values before after => before.Reaches after ∧ (before.Ready bound limit → all values))
    (fun _ => ⟨.refl, fun _ => nil⟩) ?_ read before
  rintro value values before middle after ⟨reaches, first⟩ ⟨reaches', later⟩
  exact ⟨reaches.trans reaches', fun ready => cons (first ready) (later (ready.reaches reaches))⟩

theorem filled_manyStmts {step : Parser (Option Stmt)}
    (read : ∀ before : Cursor, ⦃before.place⦄ step ⦃⇓ result after =>
      ⌜result.elim (after = before) fun stmt => before.Reaches after ∧
        (before.Ready bound limit → stmt.Spread ∧ stmt.Filled limit)⌝⦄)
    (before : Cursor) :
    ⦃before.place⦄ many step ⦃⇓ stmts after => ⌜before.Reaches after ∧
      (before.Ready bound limit → Stmt.AllFilled limit stmts)⌝⦄ :=
  filled_many (Stmt.AllFilled limit) trivial And.intro read before

theorem filled_manyGroups {step : Parser (Option SwitchGroup)}
    (read : ∀ before : Cursor, ⦃before.place⦄ step ⦃⇓ result after =>
      ⌜result.elim (after = before) fun group => before.Reaches after ∧
        (before.Ready bound limit → group.Filled limit)⌝⦄)
    (before : Cursor) :
    ⦃before.place⦄ many step ⦃⇓ groups after => ⌜before.Reaches after ∧
      (before.Ready bound limit → SwitchGroup.AllFilled limit groups)⌝⦄ :=
  filled_many (SwitchGroup.AllFilled limit) trivial And.intro read before

theorem filled_manyHandlers {step : Parser (Option Handler)}
    (read : ∀ before : Cursor, ⦃before.place⦄ step ⦃⇓ result after =>
      ⌜result.elim (after = before) fun handler => before.Reaches after ∧
        (before.Ready bound limit → handler.Filled limit)⌝⦄)
    (before : Cursor) :
    ⦃before.place⦄ many step ⦃⇓ handlers after => ⌜before.Reaches after ∧
      (before.Ready bound limit → Handler.AllFilled limit handlers)⌝⦄ :=
  filled_many (Handler.AllFilled limit) trivial And.intro read before

theorem blockWith_nil (stmt : Parser Stmt) (behind : Nat) :
    (blockWith stmt ⟨[], behind⟩).1 = .mk (.point behind) [] := by
  change Block.mk ⟨behind, max behind behind⟩ [] = _
  rw [Nat.max_self]
  rfl

section Fills

variable {stmt : Parser Stmt} (fills : Fills stmt bound limit)

include fills

/-- A block reads a token, unless there is none. -/
theorem reads_blockWith_of_more (ready : before.Ready bound limit) (more : before.rest ≠ []) :
    before.ReachesOn (blockWith stmt before).2 := by
  obtain ⟨reaches, ends⟩ :=
    ends_statementsWith ready.order (fills.reads (Nat.zero_lt_of_lt ready.short))
  rw [blockWith_apply]
  generalize (statementsWith stmt before).2 = last at reaches ends
  rcases ends with ended | closes
  · have rest_eq : last.rest = [] := List.isEmpty_iff.mp ended
    have shorter : last.rest.length < before.rest.length := by
      rw [rest_eq]
      exact List.length_pos_iff.mpr more
    exact (reaches.reachesOn_of_length_lt shorter).trans (reaches_accept .closeBrace last)
  · rw [accept, if_pos closes]
    exact reaches.reachesOn_tail (by rwa [Cursor.atEnd, List.isEmpty_eq_false_iff])

theorem spread_blockWith (ready : before.Ready bound limit) :
    (blockWith stmt before).1.Spread limit := by
  by_cases more : before.rest = []
  · obtain ⟨rest, behind⟩ := before
    obtain rfl : rest = [] := more
    have finish_eq : behind = limit := ready.finish_eq
    exact .inr (by rw [blockWith_nil, finish_eq])
  · have laidOut := triple_iff.mp (laidOut_blockWith fills.laysOut before) before rfl
    generalize read : blockWith stmt before = result at laidOut
    obtain ⟨⟨span, statements⟩, after⟩ := result
    have reachesOn := reads_blockWith_of_more fills ready more
    rw [read] at reachesOn
    exact .inl (laidOut.1.start_lt_stop reachesOn ready.order)

theorem filled_blockWith (before : Cursor) :
    ⦃before.place⦄ blockWith stmt ⦃⇓ block after => ⌜before.Reaches after ∧
      (before.Ready bound limit → block.Spread limit ∧ block.Filled limit) ∧
        (before.isAt .openBrace → before.tail.Ready bound limit → block.Filled limit)⌝⦄ := by
  have stmts := fills.fills
  have loop := @filled_manyStmts bound limit
  have opens (before : Cursor) : ⦃before.place⦄ accept .openBrace
      ⦃⇓ _ after => ⌜after = (accept .openBrace before).2⌝⦄ :=
    triple_iff.mpr fun cursor placed => by rw [placed]
  have filled : ⦃before.place⦄ blockWith stmt ⦃⇓ block after => ⌜before.Reaches after ∧
      ((accept .openBrace before).2.Ready bound limit → block.Filled limit)⌝⦄ := by
    mvcgen [blockWith, stmts, loop, opens, -place_accept_found, -laidOut_blockWith,
      -laidOut_manyStmts, -placed_manyStmts] <;>
      clear stmts loop opens <;> grind -ring -linarith [Block.Filled]
  refine triple_iff.mpr ?_
  rintro cursor rfl
  obtain ⟨reaches, filled⟩ := triple_iff.mp filled cursor rfl
  refine ⟨reaches, fun ready => ⟨spread_blockWith fills ready, ?_⟩, fun found ready => filled ?_⟩
  · exact filled (ready.reaches (reaches_accept .openBrace cursor))
  · rwa [accept, if_pos found]

theorem filled_handlerWith (before : Cursor) :
    ⦃before.place⦄ handlerWith stmt ⦃⇓ result after =>
      ⌜result.elim (after = before) fun handler => before.Reaches after ∧
        (before.Ready bound limit → handler.Filled limit)⌝⦄ := by
  have blocks := filled_blockWith fills
  mvcgen [handlerWith, blocks, -laidOut_handlerWith, -laidOut_blockWith, -placed_caughtTypes] <;>
    clear blocks <;> grind -ring -linarith [Handler.Filled]

theorem filled_tryWith (start : Nat) (ready : before.tail.Ready bound limit) :
    ⦃before.place⦄ tryWith stmt start ⦃⇓ stmt _ => ⌜stmt.Filled limit⌝⦄ := by
  have blocks := filled_blockWith fills
  have handlers := filled_handlerWith fills
  have loop := @filled_manyHandlers bound limit
  mvcgen [tryWith, blocks, handlers, loop, -laidOut_tryWith, -laidOut_handlerWith,
    -laidOut_manyHandlers, -placed_manyHandlers, -laidOut_blockWith] <;>
    clear blocks handlers loop <;> grind -ring -linarith [Stmt.Filled, Block.CleanupFilled]

variable {rules : Rules} (reads : rules.Reads)

include reads

theorem filled_forWith (start : Nat) (ready : before.tail.Ready bound limit) :
    ⦃before.place⦄ forWith rules stmt start ⦃⇓ stmt _ => ⌜stmt.Filled limit⌝⦄ := by
  have onward := reads.onward
  have placed := reads.placed
  have stmts := fills.fills
  mvcgen [forWith, stmts, -laidOut_forWith] <;>
    clear stmts <;> grind -ring -linarith [Stmt.Filled]

omit fills in
theorem filled_labelsWith (before : Cursor) :
    ⦃before.place⦄ labelsWith rules ⦃⇓ labels after => ⌜before.Reaches after ∧
      (before.IsOrdered → ∀ label ∈ labels.1, label.span.start < label.span.stop)⌝⦄ := by
  refine triple_iff.mpr ?_
  rintro cursor rfl
  refine triple_iff.mp (iterate_invariant (fun (labels : List SwitchLabel × Bool) after =>
    cursor.Reaches after ∧ (cursor.IsOrdered →
      ∀ label ∈ labels.1, label.span.start < label.span.stop)) (fun labels => ?_) _)
    cursor ⟨.refl, fun _ => nofun⟩
  have label (before : Cursor) (found : before.isAtLabel) := place_and
    (reads_labelWith reads before found) (spans_labelWith reads.onward before)
  mvcgen [label, -spans_labelWith, -placed_labelWith] <;> clear label <;>
    grind -ring -linarith [Cursor.Spans.start_lt_stop]

theorem filled_groupWith (before : Cursor) :
    ⦃before.place⦄ groupWith rules stmt ⦃⇓ group after => ⌜before.Reaches after ∧
      (before.Ready bound limit → group.Filled limit)⌝⦄ := by
  have stmts := fills.fills
  have labels := filled_labelsWith reads
  have loop := @filled_manyStmts bound limit
  mvcgen [groupWith, stmts, labels, loop, -laidOut_groupWith, -laidOut_labelsWith,
    -placed_labelsWith, -laidOut_manyStmts, -placed_manyStmts] <;>
    clear stmts labels loop <;> grind -ring -linarith [SwitchGroup.Filled, Stmt.AllFilled]

theorem filled_switchWith (start : Nat) (ready : before.tail.Ready bound limit) :
    ⦃before.place⦄ switchWith rules stmt start ⦃⇓ stmt _ => ⌜stmt.Filled limit⌝⦄ := by
  have onward := reads.onward
  have placed := reads.placed
  have groups := filled_groupWith fills reads
  have loop := @filled_manyGroups bound limit
  mvcgen [switchWith, groups, loop, -laidOut_switchWith, -laidOut_groupWith,
    -laidOut_manyGroups, -placed_manyGroups] <;>
    clear groups loop <;> grind -ring -linarith [Stmt.Filled]

omit fills in
theorem filled_exprStmtWith (start : Nat) (before : Cursor) :
    ⦃before.place⦄ exprStmtWith rules start ⦃⇓ stmt _ => ⌜stmt.Filled limit⌝⦄ := by
  have onward := reads.onward
  have call (span : Span) (expr : Expr) : (statementOf span expr).Filled limit := by
    fun_cases statementOf span expr <;> trivial
  mvcgen [exprStmtWith, -Rules.Placed.expr, -laidOut_exprStmtWith, -placed_exprStmtWith] <;>
    grind -ring -linarith [Stmt.Filled]

omit fills in
theorem filled_declarationWith (start : Nat) (before : Cursor) :
    ⦃before.place⦄ declarationWith rules start ⦃⇓ stmt _ => ⌜stmt.Filled limit⌝⦄ := by
  have onward := reads.onward
  have expr := @filled_exprStmtWith limit rules reads
  mvcgen [declarationWith, localType?, expr, -laidOut_localType?, -placed_localType?,
    -placed_variablesWith, -laidOut_exprStmtWith, -placed_exprStmtWith, -laidOut_declarationWith,
    -placed_declarationWith] <;>
    clear expr <;> grind -ring -linarith [Stmt.Filled]

variable (unpatterned : ∀ before : Cursor, before.IsOrdered → ⦃before.place⦄ rules.expr
  ⦃⇓ result _ => ⌜∀ expr, result = some expr → expr.isPattern = false⌝⦄)

include unpatterned

theorem filled_stmtAtWith {token : Token} {rest : List Token}
    (head : before.rest = token :: rest) (ready : before.tail.Ready bound limit) :
    ⦃before.place⦄ stmtAtWith rules stmt token ⦃⇓ stmt _ => ⌜stmt.Filled limit⌝⦄ := by
  have onward := reads.onward
  have placed := reads.placed
  have stmts := fills.fills
  have blocks := filled_blockWith fills
  have tries (start : Nat) (ready : before.tail.Ready bound limit) :=
    filled_tryWith fills start ready
  have loops (start : Nat) (ready : before.tail.Ready bound limit) :=
    filled_forWith fills reads start ready
  have switches (start : Nat) (ready : before.tail.Ready bound limit) :=
    filled_switchWith fills reads start ready
  have values := unpatterned_orMissing onward unpatterned
  have declaration := @filled_declarationWith limit rules reads
  have expr := @filled_exprStmtWith limit rules reads
  mvcgen [stmtAtWith, stmts, blocks, tries, loops, switches, values, declaration, expr,
    -laidOut_blockWith, -laidOut_forWith, -laidOut_switchWith, -laidOut_tryWith,
    -laidOut_exprStmtWith, -placed_exprStmtWith, -laidOut_declarationWith,
    -placed_declarationWith, -placed_orMissing, -onward_orMissing]
  all_goals clear stmts blocks tries loops switches values declaration expr unpatterned
  all_goals grind -ring -linarith [Stmt.Filled]

end Fills

/-- Where there are enough statements to nest, a statement is not empty. -/
theorem fills_stmtUpTo (n limit : Nat) : Fills (stmtUpTo n) n limit := by
  induction n with
  | zero =>
      refine ⟨laidOut_stmtUpTo 0, nofun, fun before => ?_⟩
      refine triple_iff.mpr ?_
      rintro cursor rfl
      exact ⟨.refl, fun ready => absurd ready.short (Nat.not_lt_zero _)⟩
  | succ n induction =>
      refine ⟨laidOut_stmtUpTo (n + 1), fun _ before _ => reads_stmtUpTo n before, fun before => ?_⟩
      refine triple_iff.mpr ?_
      rintro cursor rfl
      have laidOut := triple_iff.mp (laidOut_stmtUpTo (n + 1) cursor) cursor rfl
      refine ⟨laidOut, fun ready => ?_⟩
      obtain ⟨rest, behind⟩ := cursor
      cases rest with
      | nil => exact ⟨trivial, trivial⟩
      | cons token rest =>
          have reachesOn := triple_iff.mp (reads_stmtUpTo n ⟨token :: rest, behind⟩ rfl) _ rfl
          refine ⟨laidOut.spread reachesOn ready.order, ?_⟩
          have ready_tail := ready.reachesOn (Cursor.reachesOn_tail rfl)
          exact triple_iff.mp (filled_stmtAtWith induction (reads_rules (n + 1))
            (unpatterned_expr (n + 1)) rfl ready_tail) _ rfl

/-- The statements of a block are not empty. -/
theorem filled_block {cursor : Cursor} (order : cursor.IsOrdered) :
    (block cursor).1.Filled cursor.finish :=
  ((triple_iff.mp (filled_blockWith (fills_stmtUpTo _ cursor.finish) cursor) cursor rfl).2.1
    ⟨Nat.lt_succ_self _, order, rfl⟩).2

end Parser

end JavaOutline
