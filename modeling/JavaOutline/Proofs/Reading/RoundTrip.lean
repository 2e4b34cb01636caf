import JavaOutline.Proofs.Reading.RenderedOperations
import JavaOutline.Proofs.Token.Order

/-!
# Rendering is unambiguous

The rendering of a writable expression, put into the condition of an `if` statement and read as a
block, gives the expression back, up to spans and parentheses. So two writable expressions with one
rendering are the same expression.
-/

namespace JavaOutline

open Token (Scans Ends spelled)

namespace Parser

mutual

/-- Every writable expression is read as an operand. -/
theorem readsOperand_of_writable : ∀ expr : Expr, expr.Writable → ReadsOperand expr
  | .name _ _, identifier => readsOperand_name identifier
  | .literal _ _ _, written => readsOperand_literal written
  | .this _, _ => readsOperand_this
  | .super _, _ => readsOperand_super
  | .fieldAccess _ receiver _, ⟨writable, _, identifier⟩ =>
      readsOperand_fieldAccess (readsOperand_of_writable receiver writable) identifier
  | .arrayAccess _ array index, ⟨array_writable, index_writable⟩ =>
      readsOperand_arrayAccess (readsOperand_of_writable array array_writable)
        (readsOperand_of_writable index index_writable)
        (index.isOperand_of_mem_spelling index_writable)
  | .call _ _ arguments, ⟨named, writable⟩ =>
      readsOperand_call named (readAll_of_writable arguments writable)
  | .memberCall _ receiver _ arguments, ⟨writable, _, identifier, all_writable⟩ =>
      readsOperand_memberCall (readsOperand_of_writable receiver writable) identifier
        (readAll_of_writable arguments all_writable)
  | .creation _ _ arguments _, ⟨_, writable, no_body⟩ => by
      subst no_body
      exact readsOperand_creation (readAll_of_writable arguments writable)
  | .innerCreation _ outer _ arguments _, ⟨writable, _, _, all_writable, no_body⟩ => by
      subst no_body
      exact readsOperand_innerCreation (readsOperand_of_writable outer writable)
        (readAll_of_writable arguments all_writable)
  | .unary _ _ operand, writable =>
      readsOperand_unary (readsOperand_of_writable operand writable)
        (operand.isOperand_of_mem_spelling writable)
  | .update _ _ operand, writable =>
      readsOperand_update (readsOperand_of_writable operand writable)
        (operand.isOperand_of_mem_spelling writable)
  | .binary _ _ left right, ⟨left_writable, right_writable⟩ =>
      readsOperand_binary (readsOperand_of_writable left left_writable)
        (left.isOperand_of_mem_spelling left_writable)
        (readsOperand_of_writable right right_writable)
        (right.isOperand_of_mem_spelling right_writable)
  | .instanceOf _ operand _ _, ⟨writable, _, identifier⟩ =>
      readsOperand_instanceOf (readsOperand_of_writable operand writable)
        (operand.isOperand_of_mem_spelling writable) identifier
  | .conditional _ condition whenTrue whenFalse, ⟨writable, true_writable, false_writable⟩ =>
      readsOperand_conditional (readsOperand_of_writable condition writable)
        (condition.isOperand_of_mem_spelling writable)
        (readsOperand_of_writable whenTrue true_writable)
        (whenTrue.isOperand_of_mem_spelling true_writable)
        (readsOperand_of_writable whenFalse false_writable)
        (whenFalse.isOperand_of_mem_spelling false_writable)
  | .assignment _ _ target value, ⟨target_writable, value_writable⟩ =>
      readsOperand_assignment (readsOperand_of_writable target target_writable)
        (target.isOperand_of_mem_spelling target_writable)
        (readsOperand_of_writable value value_writable)
        (value.isOperand_of_mem_spelling value_writable)
  | .cast _ _ operand, ⟨_, writable⟩ =>
      readsOperand_cast (readsOperand_of_writable operand writable)
        (operand.isOperand_of_mem_spelling writable)
  | .parenthesized _ inner, writable =>
      readsOperand_parenthesized (readsOperand_of_writable inner writable)
        (inner.isOperand_of_mem_spelling writable)

theorem readAll_of_writable : ∀ exprs : List Expr, Expr.AllWritable exprs → ReadAll exprs
  | [], _ => fun _ member => by cases member
  | expr :: exprs, ⟨writable, all_writable⟩ =>
      List.forall_mem_cons.mpr
        ⟨⟨readsOperand_of_writable expr writable, expr.isOperand_of_mem_spelling writable⟩,
          readAll_of_writable exprs all_writable⟩

end

/-- Reads a statement of a block, unless the block ends. -/
def stmtOrEnd (stmt : Parser Stmt) : Parser (Option Stmt) := do
  let cursor ← get
  if cursor.atEnd || cursor.isAt .closeBrace then return none
  return some (← stmt)

/-- A block in braces is read from the statements in it. -/
theorem blockWith_of_many {stmt : Parser Stmt} {statements : List Stmt} {opening closing : Span}
    {rest later : List Token} {last : Nat}
    (read : many (stmtOrEnd stmt) ⟨rest, opening.stop⟩ =
      (statements, ⟨⟨.closeBrace, "\x7d", closing⟩ :: later, last⟩)) (behind : Nat) :
    blockWith stmt ⟨⟨.openBrace, "\x7b", opening⟩ :: rest, behind⟩ =
      (.mk (Cursor.spanFrom ⟨later, closing.stop⟩ opening.start) statements,
        ⟨later, closing.stop⟩) := by
  have unfolded : blockWith stmt = (do
      let start := (← get).here
      discard <| accept .openBrace
      let statements ← many (stmtOrEnd stmt)
      discard <| accept .closeBrace
      return .mk (← spanFrom start) statements : Parser Block) := rfl
  simp [unfolded, accept_apply, read]

theorem stmtOrEnd_of_closed (stmt : Parser Stmt) (closing : Span) (rest : List Token)
    (behind : Nat) :
    stmtOrEnd stmt ⟨⟨.closeBrace, "\x7d", closing⟩ :: rest, behind⟩ =
      (none, ⟨⟨.closeBrace, "\x7d", closing⟩ :: rest, behind⟩) := by
  simp [stmtOrEnd]

theorem stmtOrEnd_of_stmt {stmt : Parser Stmt} {cursor after : Cursor} {statement : Stmt}
    (left : cursor.atEnd = false) (inside : cursor.isAt .closeBrace = false)
    (read : stmt cursor = (statement, after)) :
    stmtOrEnd stmt cursor = (some statement, after) := by
  simp [stmtOrEnd, left, inside, read]

/-- A conditional statement around an operand, with an empty block to choose, is read as such. -/
theorem exists_stmtUpTo_conditional {expr : Expr} (writable : expr.Writable)
    {tokens : List Token} (member : tokens ∈ expr.spelling) {n : Nat} (fuel : tokens.length ≤ n)
    (word opening closing brace brace' : Span) (rest : List Token) (plain : Token.AllPlain rest)
    (no_else : Cursor.isAtWord ⟨rest, brace'.stop⟩ "else" = false) (behind : Nat) :
    ∃ spans span condition, condition.strip = expr.strip ∧
      stmtUpTo (n + 2) ⟨⟨.word, "if", word⟩ :: ⟨.openParen, "(", opening⟩ ::
        (tokens ++ ⟨.closeParen, ")", closing⟩ :: ⟨.openBrace, "\x7b", brace⟩ ::
          ⟨.closeBrace, "\x7d", brace'⟩ :: rest), behind⟩ =
      (.conditional spans condition (.block (.mk span [])) none, ⟨rest, brace'.stop⟩) := by
  have closed : Closed (⟨.closeParen, ")", closing⟩ :: ⟨.openBrace, "\x7b", brace⟩ ::
      ⟨.closeBrace, "\x7d", brace'⟩ :: rest) :=
    ⟨plain_cons (plain_cons (plain_cons plain (by simp)) (by simp)) (by simp), closing, _, rfl⟩
  obtain ⟨condition, behind', read_eq, strip_eq⟩ :=
    (readsOperand_of_writable expr writable).whole member
      (expr.isOperand_of_mem_spelling writable tokens member) (Nat.le_succ_of_le fuel)
      closed.closes opening.stop
  refine ⟨Cursor.spanFrom ⟨rest, brace'.stop⟩ word.start,
    Cursor.spanFrom ⟨rest, brace'.stop⟩ brace.start, condition, strip_eq, ?_⟩
  have condition_eq : orMissing (rules (n + 2)).expr ⟨tokens ++ _, opening.stop⟩ =
      (condition, _) := orMissing_of_some read_eq
  have empty := (Repeats.stop (stmtOrEnd_of_closed (stmtUpTo n) brace' rest brace.stop)).many_eq
  simp [stmtUpTo, stmtWith, stmtAtWith, conditionWith, accept_apply, condition_eq,
    blockWith_of_many empty, acceptWord_apply, no_else]

/-- The whole block around a rendered condition is read. -/
theorem exists_block_conditional {expr : Expr} (writable : expr.Writable) {tokens : List Token}
    (member : tokens ∈ expr.spelling)
    (outer word opening closing brace brace' outer' : Span) :
    ∃ span spans span' condition, condition.strip = expr.strip ∧
      (block (.start (⟨.openBrace, "\x7b", outer⟩ :: ⟨.word, "if", word⟩ ::
        ⟨.openParen, "(", opening⟩ :: (tokens ++ ⟨.closeParen, ")", closing⟩ ::
          ⟨.openBrace, "\x7b", brace⟩ :: ⟨.closeBrace, "\x7d", brace'⟩ ::
          [⟨.closeBrace, "\x7d", outer'⟩])))).1 =
        .mk span [.conditional spans condition (.block (.mk span' [])) none] := by
  have plain : Token.AllPlain [⟨.closeBrace, "\x7d", outer'⟩] :=
    plain_cons (by simp [Token.AllPlain]) (by simp)
  obtain ⟨spans, span', condition, strip_eq, read_eq⟩ := exists_stmtUpTo_conditional writable
    member (Nat.le_add_right _ 6) word opening closing brace brace' _ plain rfl outer.stop
  refine ⟨⟨outer.start, max outer'.stop outer.start⟩, spans, span', condition, strip_eq, ?_⟩
  have statements := Repeats.next (stmtOrEnd_of_stmt rfl rfl read_eq) (by simp)
    (.stop (stmtOrEnd_of_closed _ outer' [] brace'.stop))
  simp [block, Cursor.start, blockWith_of_many statements.many_eq, Cursor.spanFrom]

end Parser

/-- The text of a block with one conditional statement, whose condition is a given text. -/
def conditionText (text : String) : String :=
  "\x7b if (" ++ text ++ ") \x7b\x7d \x7d"

namespace Token

theorem scans_if : Scans "\x7b if (" (fun _ => True)
    (spelled [(.openBrace, "\x7b")] * wordSpelling "if" * spelled [(.openParen, "(")]) := by
  have brace : Scans "\x7b" (fun _ => True) (spelled [(.openBrace, "\x7b")]) :=
    fun _ _ _ => ⟨[⟨_, _, _⟩], ⟨rfl, .singleton _⟩, rfl⟩
  have word : Scans "if" (Ends true) (wordSpelling "if") := scans_word (by decide)
  exact (((brace.append_blank fun _ => trivial).append word fun _ _ => trivial).append_blank
    (Ends.before (by decide))).append scans_openParen fun _ _ => trivial

theorem exists_scanFrom_end (offset : Nat) : ∃ closing brace brace' outer' : Span,
    scanFrom 0 offset ") \x7b\x7d \x7d".toList =
      [⟨.closeParen, ")", closing⟩, ⟨.openBrace, "\x7b", brace⟩, ⟨.closeBrace, "\x7d", brace'⟩,
        ⟨.closeBrace, "\x7d", outer'⟩] :=
  ⟨⟨offset, offset + 1⟩, ⟨offset + 2, offset + 3⟩, ⟨offset + 3, offset + 4⟩,
    ⟨offset + 5, offset + 6⟩, rfl⟩

/-- The tokens of a rendered condition with the block around it. -/
theorem scan_conditionText {text : String} {next : List Char → Prop} {spelling : Language Token}
    (scans : Scans text next spelling) (allows : ∀ rest, next (')' :: rest)) :
    ∃ outer word opening tokens closing brace brace' outer', tokens ∈ spelling ∧
      scan 0 (conditionText text).toList = ⟨.openBrace, "\x7b", outer⟩ :: ⟨.word, "if", word⟩ ::
        ⟨.openParen, "(", opening⟩ :: (tokens ++ ⟨.closeParen, ")", closing⟩ ::
          ⟨.openBrace, "\x7b", brace⟩ :: ⟨.closeBrace, "\x7d", brace'⟩ ::
          [⟨.closeBrace, "\x7d", outer'⟩]) := by
  obtain ⟨_, member, scan_eq⟩ := (scans_if.append scans fun _ _ => trivial) 0
    (") \x7b\x7d \x7d".toList) (allows _)
  obtain ⟨_, before_mem, tokens, tokens_mem, rfl⟩ := Language.mem_mul.mp member
  obtain ⟨_, word_mem, _, paren_mem, rfl⟩ := Language.mem_mul.mp before_mem
  obtain ⟨_, brace_mem, _, if_mem, rfl⟩ := Language.mem_mul.mp word_mem
  obtain ⟨outer, rfl⟩ := mem_spelled_singleton.mp brace_mem
  obtain ⟨word, rfl⟩ := mem_spelled_singleton.mp if_mem
  obtain ⟨opening, rfl⟩ := mem_spelled_singleton.mp paren_mem
  obtain ⟨closing, brace, brace', outer', end_eq⟩ :=
    exists_scanFrom_end (0 + byteLength ("\x7b if (" ++ text).toList)
  refine ⟨outer, word, opening, tokens, closing, brace, brace', outer', tokens_mem, ?_⟩
  rw [scan, conditionText, String.toList_append, scan_eq, end_eq]
  simp

end Token

theorem Token.scan?_eq_ok {source : Source} (bounded : source.size < offsetBound) :
    scan? 0 source.chars = .ok (scan 0 source.chars) := by
  have within : (scan 0 source.chars).all (·.span.stop < offsetBound) = true := by
    rw [List.all_eq_true]
    intro token member
    have stop_le := ((inOrder_scan source).isBoundary_stop member).le_size
    simpa using Nat.lt_of_le_of_lt stop_le bounded
  simp [scan?, within]

/-- The rendering of a writable expression, put into a block as a condition, is read as the one
condition of that block. -/
theorem exists_block_of_render {expr : Expr} (writable : expr.Writable) {source : Source}
    {text : String} (render_eq : expr.render source = .ok text) :
    ∃ span spans span' condition, condition.strip = expr.strip ∧
      (Parser.block (.start (Token.scan 0 (conditionText text).toList))).1 =
        .mk span [.conditional spans condition (.block (.mk span' [])) none] := by
  obtain ⟨text', render_eq', scans⟩ := expr.exists_scans_render source writable
  obtain rfl : text' = text := Except.ok.inj (render_eq'.symm.trans render_eq)
  obtain ⟨outer, word, opening, tokens, closing, brace, brace', outer', member, scan_eq⟩ :=
    Token.scan_conditionText scans (Ends.before (by decide))
  rw [scan_eq]
  exact Parser.exists_block_conditional writable member outer word opening closing brace brace'
    outer'

/-- Rendering is unambiguous. A writable expression has a rendering; as the condition of a block it
is read as that expression, without its spans and parentheses; and no other expression has it. -/
theorem Block.read_conditionText_render (source : Source) {expr : Expr}
    (writable : expr.Writable) :
    ∃ text, expr.render source = .ok text ∧
      (byteLength (conditionText text).toList < offsetBound →
        ∃ span spans span' condition,
          Block.read (.ofString (conditionText text)) 0 =
            .ok (.mk span [.conditional spans condition (.block (.mk span' [])) none]) ∧
          condition.strip = expr.strip) ∧
      ∀ (source' : Source) (other : Expr), other.Writable → other.render source' = .ok text →
        other.strip = expr.strip := by
  obtain ⟨text, render_eq, -⟩ := expr.exists_scans_render source writable
  obtain ⟨span, spans, span', condition, strip_eq, block_eq⟩ :=
    exists_block_of_render writable render_eq
  refine ⟨text, render_eq, fun bounded => ?_, fun source' other other_writable other_eq => ?_⟩
  · refine ⟨span, spans, span', condition, ?_, strip_eq⟩
    have scanned : Token.scan? 0 (Source.ofString (conditionText text)).chars = .ok _ :=
      Token.scan?_eq_ok bounded
    rw [Block.read, scanned, ← block_eq]
    rfl
  · obtain ⟨_, _, _, condition', strip_eq', block_eq'⟩ :=
      exists_block_of_render other_writable other_eq
    -- Both conditions are the one that is read from the text they have in common.
    have same := block_eq.symm.trans block_eq'
    simp only [Block.mk.injEq, List.cons.injEq, Stmt.conditional.injEq] at same
    rw [← strip_eq', ← strip_eq, same.2.1.2.1]

/-- The comparison of a name with the cast of a number. -/
def castComparison : Expr :=
  .binary default .less (.name default "a")
    (.cast default ⟨"int", default⟩ (.literal default .integer "1"))

theorem Block.read_castComparison : ∃ span spans span' condition,
    Block.read (.ofString "\x7b if ((a < ((int) 1))) \x7b\x7d \x7d") 0 =
      .ok (.mk span [.conditional spans condition (.block (.mk span' [])) none]) ∧
    condition.strip = castComparison := by
  have writable : castComparison.Writable := by
    have name : isIdentifier "a" = true := by decide
    have number : LiteralKind.isWritten .integer "1" = true := by decide
    exact ⟨name, ⟨"int", [], 0, .inr ⟨by decide, rfl⟩, rfl⟩, number⟩
  obtain ⟨text, render_eq, read, -⟩ := Block.read_conditionText_render (.ofString "") writable
  obtain rfl : "(a < ((int) 1))" = text := Except.ok.inj render_eq
  exact read (by decide)

end JavaOutline
