import JavaOutline.Proofs.Java.Structured
import JavaOutline.Proofs.Reading.RoundTrip

/-!
# Reading structured statements

Structured statements that are written in braces are read as themselves, up to spans and
parentheses. The induction is on the statements. A statement is read whatever follows it, as long
as that does not go on with it: an `else` would belong to a statement that ends open, and `catch`
and `finally` to a `try`.
-/

namespace JavaOutline

open Token (AllPlain)
open Piece (Spells spells_append)

namespace Piece

/-- The tokens of sound pieces are plain. -/
theorem plain_of_spells {pieces : List Piece} (sound : ∀ piece ∈ pieces, piece.IsSound)
    {tokens : List Token} (spells : Spells pieces tokens) : AllPlain tokens := by
  induction pieces generalizing tokens with
  | nil =>
      obtain rfl : tokens = [] := spells
      exact nofun
  | cons piece pieces induction =>
      have first_sound := sound piece List.mem_cons_self
      have later_sound : ∀ other ∈ pieces, other.IsSound :=
        fun other member => sound other (List.mem_cons_of_mem piece member)
      cases piece with
      | lexeme kind text =>
          obtain ⟨span, rest, rfl, spells⟩ := spells
          apply Parser.plain_cons (induction later_sound spells)
          rcases first_sound with ⟨rfl, -⟩ | mark
          · simp
          · have checked : ∀ lexeme ∈ marks, lexeme.1 ∉ [.arrow, .atSign, .less] := by decide
            exact checked (kind, text) mark
      | expr value =>
          obtain ⟨front, rest, rfl, member, spells⟩ := spells
          exact (value.isOperand_of_mem_spelling first_sound front member).plain.append
            (induction later_sound spells)

end Piece

theorem Stmt.plain_of_spells {stmt : Stmt} (structured : stmt.IsStructured) {tokens : List Token}
    (spells : Spells stmt.pieces tokens) : AllPlain tokens :=
  Piece.plain_of_spells (stmt.isSound_pieces structured) spells

theorem Block.plain_of_spells {block : Block} (structured : block.IsStructured)
    {tokens : List Token} (spells : Spells block.pieces tokens) : AllPlain tokens :=
  Piece.plain_of_spells (block.isSound_pieces structured) spells

namespace Parser

/-! ## What follows a statement -/

/-- Plain tokens that do not go on with the statement before them; `isOpen` tells whether an `else`
would go on with it. -/
structure Resumes (isOpen : Bool) (tail : List Token) : Prop where
  plain : AllPlain tail
  no_handler : ∀ behind, Cursor.isAtWord ⟨tail, behind⟩ "catch" = false
  no_cleanup : ∀ behind, Cursor.isAtWord ⟨tail, behind⟩ "finally" = false
  no_else : isOpen = true → ∀ behind, Cursor.isAtWord ⟨tail, behind⟩ "else" = false

theorem Resumes.mono {isOpen isOpen' : Bool} {tail : List Token} (resumes : Resumes isOpen tail)
    (implies : isOpen' = true → isOpen = true) : Resumes isOpen' tail :=
  { resumes with no_else := fun isOpen => resumes.no_else (implies isOpen) }

theorem resumes_cons {token : Token} {rest : List Token} (plain : AllPlain (token :: rest))
    (other : token.kind = .word → token.text ∉ ["else", "catch", "finally"]) (isOpen : Bool) :
    Resumes isOpen (token :: rest) := by
  have differs : ∀ word ∈ ["else", "catch", "finally"], ∀ behind,
      Cursor.isAtWord ⟨token :: rest, behind⟩ word = false := by
    intro word member behind
    rw [Cursor.isAtWord_cons, Token.isWord]
    by_contra is_word
    obtain ⟨kind, rfl⟩ : token.kind = .word ∧ token.text = word := by simpa using is_word
    exact other kind member
  exact ⟨plain, differs "catch" (by decide), differs "finally" (by decide),
    fun _ => differs "else" (by decide)⟩

theorem resumes_of_beginsStmt {token : Token} {rest : List Token}
    (plain : AllPlain (token :: rest)) (begins : token.kind.beginsStmt token.text = true)
    (isOpen : Bool) : Resumes isOpen (token :: rest) := by
  apply resumes_cons plain
  intro kind member
  have excluded : ∀ word ∈ ["else", "catch", "finally"],
      TokenKind.word.beginsStmt word = false := by
    decide
  rw [kind, excluded token.text member] at begins
  cases begins

/-- Whether a parser reads a value, up to what `strip` removes, from tokens in front of others. -/
def Reads {α : Type} (strip : α → α) (parser : Parser α) (value : α) (tokens tail : List Token) :
    Prop :=
  ∀ behind, ∃ found behind',
    parser ⟨tokens ++ tail, behind⟩ = (found, ⟨tail, behind'⟩) ∧ strip found = strip value

/-- Whether a statement is read from its tokens. -/
def ReadsStmt (stmt : Stmt) : Prop :=
  ∀ tokens, Spells stmt.pieces tokens → ∀ n, tokens.length ≤ n → ∀ tail,
    Resumes stmt.endsOpen tail → Reads Stmt.strip (stmtUpTo n) stmt tokens tail

/-- Whether a block is read from its tokens. -/
def ReadsBlock (block : Block) : Prop :=
  ∀ tokens, Spells block.pieces tokens → ∀ n, tokens.length ≤ n + 1 → ∀ tail, AllPlain tail →
    Reads Block.strip (blockWith (stmtUpTo n)) block tokens tail

theorem stmtUpTo_succ_cons (n : Nat) (token : Token) (rest : List Token) (behind : Nat) :
    stmtUpTo (n + 1) ⟨token :: rest, behind⟩ =
      stmtAtWith (rules (n + 1)) (stmtUpTo n) token ⟨token :: rest, behind⟩ :=
  rfl

/-! ## Expressions in statements -/

section

variable {value : Expr} {tokens tail : List Token} {n : Nat}

theorem readsExpr_of_writable (writable : value.Writable) (member : tokens ∈ value.spelling)
    (fuel : tokens.length ≤ n) (closes : Closes tail) :
    ReadsExpr (rules (n + 1)).expr value tokens tail :=
  (readsOperand_of_writable value writable).whole member
    (value.isOperand_of_mem_spelling writable tokens member) fuel closes

theorem reads_orMissing (writable : value.Writable) (member : tokens ∈ value.spelling)
    (fuel : tokens.length ≤ n) (closes : Closes tail) :
    Reads Expr.strip (orMissing (rules (n + 1)).expr) value tokens tail := by
  intro behind
  obtain ⟨found, behind', read_eq, strip_eq⟩ :=
    readsExpr_of_writable writable member fuel closes behind
  exact ⟨found, behind', orMissing_of_some read_eq, strip_eq⟩

theorem closes_semicolon (plain : AllPlain tail) (span : Span) :
    Closes (⟨.semicolon, ";", span⟩ :: tail) := by
  refine ⟨plain_cons plain (by simp), ?_⟩
  rintro _ ⟨rfl⟩
  simp

theorem closes_colon (plain : AllPlain tail) (span : Span) :
    Closes (⟨.colon, ":", span⟩ :: tail) := by
  refine ⟨plain_cons plain (by simp), ?_⟩
  rintro _ ⟨rfl⟩
  simp

/-- A writable expression in parentheses is read. -/
theorem reads_conditionWith (writable : value.Writable)
    (spells : Spells (Piece.inParens [.expr value]) tokens) (fuel : tokens.length ≤ n)
    (plain : AllPlain tail) :
    Reads Expr.strip (conditionWith (rules (n + 1))) value tokens tail := by
  obtain ⟨opening, _, rfl, front, _, rfl, member, closing, _, rfl, rfl⟩ := spells
  simp only [List.length_cons, List.length_append] at fuel
  have closed : Closed (⟨.closeParen, ")", closing⟩ :: tail) :=
    ⟨plain_cons plain (by simp), closing, tail, rfl⟩
  have front_fuel : front.length ≤ n := by omega
  obtain ⟨found, behind', read_eq, strip_eq⟩ :=
    reads_orMissing writable member front_fuel closed.closes opening.stop
  intro behind
  refine ⟨found, closing.stop, ?_, strip_eq⟩
  simp [conditionWith, accept_apply, read_eq]

end

/-! ## Statements one by one -/

section

variable {span : Span} {condition : Expr} {body : Stmt}

theorem readsStmt_empty : ReadsStmt (.empty span) := by
  rintro _ ⟨semicolon, _, rfl, rfl⟩ n fuel tail resumes behind
  obtain ⟨n, rfl⟩ : ∃ m, n = m + 1 := ⟨n - 1, by simp at fuel; omega⟩
  refine ⟨.empty (Cursor.spanFrom ⟨tail, semicolon.stop⟩ semicolon.start), semicolon.stop, ?_, rfl⟩
  simp [stmtUpTo_succ_cons, stmtAtWith]

theorem readsStmt_block {inner : Block} (reads : ReadsBlock inner) : ReadsStmt (.block inner) := by
  intro tokens spells n fuel tail resumes behind
  have spells' : Spells inner.pieces tokens := spells
  obtain ⟨span, statements⟩ := inner
  obtain ⟨opening, rest, rfl, -⟩ := spells
  obtain ⟨n, rfl⟩ : ∃ m, n = m + 1 := ⟨n - 1, by simp at fuel; omega⟩
  obtain ⟨found, behind', read_eq, strip_eq⟩ := reads _ spells' n fuel tail resumes.plain behind
  refine ⟨.block found, behind', ?_, by simp [Stmt.strip, strip_eq]⟩
  rw [List.cons_append] at read_eq ⊢
  simp [stmtUpTo_succ_cons, stmtAtWith, read_eq]

theorem readsStmt_whileLoop (structured : (Stmt.whileLoop span condition body).IsStructured)
    (reads : ReadsStmt body) : ReadsStmt (.whileLoop span condition body) := by
  rintro _ ⟨word, _, rfl, spells⟩ n fuel tail resumes behind
  obtain ⟨test, rest, rfl, test_spells, body_spells⟩ := spells_append.mp spells
  simp only [List.length_cons, List.length_append] at fuel
  obtain ⟨n, rfl⟩ : ∃ m, n = m + 1 := ⟨n - 1, by omega⟩
  have test_fuel : test.length ≤ n := by omega
  have body_fuel : rest.length ≤ n := by omega
  have plain := (Stmt.plain_of_spells structured.2 body_spells).append resumes.plain
  obtain ⟨found, behind', test_eq, test_strip⟩ :=
    reads_conditionWith structured.1 test_spells test_fuel plain word.stop
  obtain ⟨inner, behind'', body_eq, body_strip⟩ :=
    reads rest body_spells n body_fuel tail resumes behind'
  refine ⟨.whileLoop (Cursor.spanFrom ⟨tail, behind''⟩ word.start) found inner, behind'', ?_,
    by simp [Stmt.strip, test_strip, body_strip]⟩
  simp [stmtUpTo_succ_cons, stmtAtWith, test_eq, body_eq]

theorem readsStmt_doLoop (structured : (Stmt.doLoop span body condition).IsStructured)
    (reads : ReadsStmt body) : ReadsStmt (.doLoop span body condition) := by
  rintro _ ⟨word, _, rfl, spells⟩ n fuel tail resumes behind
  obtain ⟨front, _, rfl, body_spells, loop, _, rfl, ending⟩ := spells_append.mp spells
  obtain ⟨test, _, rfl, test_spells, semicolon, _, rfl, rfl⟩ := spells_append.mp ending
  simp only [List.length_cons, List.length_append] at fuel
  obtain ⟨n, rfl⟩ : ∃ m, n = m + 1 := ⟨n - 1, by omega⟩
  have body_fuel : front.length ≤ n := by omega
  have test_fuel : test.length ≤ n := by omega
  have closed : AllPlain (⟨.semicolon, ";", semicolon⟩ :: tail) :=
    plain_cons resumes.plain (by simp)
  have test_plain := Piece.plain_of_spells (Piece.isSound_condition structured.2) test_spells
  obtain ⟨inner, behind', body_eq, body_strip⟩ := reads front body_spells n body_fuel
    (⟨.word, "while", loop⟩ :: (test ++ ⟨.semicolon, ";", semicolon⟩ :: tail))
    (resumes_cons (plain_cons (test_plain.append closed) (by simp)) (by simp) _) word.stop
  obtain ⟨found, behind'', test_eq, test_strip⟩ :=
    reads_conditionWith structured.2 test_spells test_fuel closed loop.stop
  refine ⟨.doLoop (Cursor.spanFrom ⟨tail, semicolon.stop⟩ word.start) inner found, semicolon.stop,
    ?_, by simp [Stmt.strip, test_strip, body_strip]⟩
  simp [stmtUpTo_succ_cons, stmtAtWith, body_eq, acceptWord_apply, Token.isWord, test_eq,
    accept_apply]

theorem readsStmt_if {whenTrue : Stmt}
    (structured : (Stmt.conditional span condition whenTrue none).IsStructured)
    (reads : ReadsStmt whenTrue) : ReadsStmt (.conditional span condition whenTrue none) := by
  rintro _ ⟨word, _, rfl, spells⟩ n fuel tail resumes behind
  obtain ⟨test, rest, rfl, test_spells, body_spells⟩ := spells_append.mp spells
  simp only [List.length_cons, List.length_append] at fuel
  obtain ⟨n, rfl⟩ : ∃ m, n = m + 1 := ⟨n - 1, by omega⟩
  have test_fuel : test.length ≤ n := by omega
  have body_fuel : rest.length ≤ n := by omega
  have plain := (Stmt.plain_of_spells structured.2 body_spells).append resumes.plain
  obtain ⟨found, behind', test_eq, test_strip⟩ :=
    reads_conditionWith structured.1 test_spells test_fuel plain word.stop
  obtain ⟨inner, behind'', body_eq, body_strip⟩ :=
    reads rest body_spells n body_fuel tail (resumes.mono fun _ => rfl) behind'
  refine ⟨.conditional (Cursor.spanFrom ⟨tail, behind''⟩ word.start) found inner none, behind'', ?_,
    by simp [Stmt.strip, test_strip, body_strip]⟩
  have no_else := resumes.no_else rfl behind''
  simp [stmtUpTo_succ_cons, stmtAtWith, test_eq, body_eq, acceptWord_apply, no_else]

theorem readsStmt_ifElse {whenTrue whenFalse : Stmt}
    (structured : (Stmt.conditional span condition whenTrue (some whenFalse)).IsStructured)
    (reads : ReadsStmt whenTrue) (reads' : ReadsStmt whenFalse) :
    ReadsStmt (.conditional span condition whenTrue (some whenFalse)) := by
  rintro _ ⟨word, _, rfl, spells⟩ n fuel tail resumes behind
  obtain ⟨test, _, rfl, test_spells, branches⟩ := spells_append.mp spells
  obtain ⟨front, _, rfl, true_spells, other, rest, rfl, false_spells⟩ := spells_append.mp branches
  obtain ⟨test_writable, ⟨true_structured, closed⟩, false_structured⟩ := structured
  simp only [List.length_cons, List.length_append] at fuel
  obtain ⟨n, rfl⟩ : ∃ m, n = m + 1 := ⟨n - 1, by omega⟩
  have test_fuel : test.length ≤ n := by omega
  have true_fuel : front.length ≤ n := by omega
  have false_fuel : rest.length ≤ n := by omega
  have else_plain : AllPlain (⟨.word, "else", other⟩ :: (rest ++ tail)) :=
    plain_cons ((Stmt.plain_of_spells false_structured false_spells).append resumes.plain) (by simp)
  have ends : Resumes whenTrue.endsOpen (⟨.word, "else", other⟩ :: (rest ++ tail)) := by
    refine ⟨else_plain, fun _ => rfl, fun _ => rfl, fun isOpen => ?_⟩
    rw [closed] at isOpen
    cases isOpen
  obtain ⟨found, behind', test_eq, test_strip⟩ := reads_conditionWith test_writable test_spells
    test_fuel ((Stmt.plain_of_spells true_structured true_spells).append else_plain) word.stop
  obtain ⟨chosen, behind'', true_eq, true_strip⟩ :=
    reads front true_spells n true_fuel _ ends behind'
  obtain ⟨rejected, last, false_eq, false_strip⟩ :=
    reads' rest false_spells n false_fuel tail resumes other.stop
  refine ⟨.conditional (Cursor.spanFrom ⟨tail, last⟩ word.start) found chosen (some rejected),
    last, ?_, by simp [Stmt.strip, test_strip, true_strip, false_strip]⟩
  simp [stmtUpTo_succ_cons, stmtAtWith, test_eq, true_eq, acceptWord_apply, Token.isWord, false_eq]

theorem readsStmt_returns {value : Option Expr}
    (structured : (Stmt.returns span value).IsStructured) : ReadsStmt (.returns span value) := by
  intro tokens spells n fuel tail resumes behind
  obtain ⟨word, rest, rfl, spells⟩ := spells
  simp only [List.length_cons] at fuel
  obtain ⟨n, rfl⟩ : ∃ m, n = m + 1 := ⟨n - 1, by omega⟩
  cases value with
  | none =>
      obtain ⟨semicolon, _, rfl, rfl⟩ := spells
      refine ⟨.returns (Cursor.spanFrom ⟨tail, semicolon.stop⟩ word.start) none, semicolon.stop, ?_,
        rfl⟩
      simp [stmtUpTo_succ_cons, stmtAtWith, accept_apply]
  | some value =>
      obtain ⟨front, _, rfl, member, semicolon, _, rfl, rfl⟩ := spells
      have writable : value.Writable := structured value rfl
      have front_fuel : front.length ≤ n := by simp at fuel; omega
      obtain ⟨found, behind', read_eq, strip_eq⟩ := reads_orMissing writable member front_fuel
        (closes_semicolon resumes.plain semicolon) word.stop
      refine ⟨.returns (Cursor.spanFrom ⟨tail, semicolon.stop⟩ word.start) (some found),
        semicolon.stop, ?_, by simp [Stmt.strip, strip_eq]⟩
      have begins := isAt_eq_false_of_leads
        (value.isOperand_of_mem_spelling writable front member).leads .semicolon (by decide)
      simp [stmtUpTo_succ_cons, stmtAtWith, begins, read_eq, accept_apply]

theorem readsStmt_throws {value : Expr} (writable : value.Writable) :
    ReadsStmt (.throws span value) := by
  rintro _ ⟨word, _, rfl, front, _, rfl, member, semicolon, _, rfl, rfl⟩ n fuel tail resumes behind
  simp only [List.length_cons, List.length_append] at fuel
  obtain ⟨n, rfl⟩ : ∃ m, n = m + 1 := ⟨n - 1, by omega⟩
  have front_fuel : front.length ≤ n := by omega
  obtain ⟨found, behind', read_eq, strip_eq⟩ := reads_orMissing writable member front_fuel
    (closes_semicolon resumes.plain semicolon) word.stop
  refine ⟨.throws (Cursor.spanFrom ⟨tail, semicolon.stop⟩ word.start) found, semicolon.stop, ?_,
    by simp [Stmt.strip, strip_eq]⟩
  simp [stmtUpTo_succ_cons, stmtAtWith, read_eq, accept_apply]

theorem readsStmt_jump {kind : JumpKind} {label : Option Name}
    (structured : (Stmt.jump span kind label).IsStructured) :
    ReadsStmt (.jump span kind label) := by
  intro tokens spells n fuel tail resumes behind
  obtain ⟨word, rest, rfl, spells⟩ := spells
  simp only [List.length_cons] at fuel
  obtain ⟨n, rfl⟩ : ∃ m, n = m + 1 := ⟨n - 1, by omega⟩
  cases label with
  | none =>
      obtain ⟨semicolon, _, rfl, rfl⟩ := spells
      refine ⟨.jump (Cursor.spanFrom ⟨tail, semicolon.stop⟩ word.start) kind none, semicolon.stop,
        ?_, rfl⟩
      cases kind <;> simp [stmtUpTo_succ_cons, stmtAtWith, JumpKind.word, accept_apply]
  | some label =>
      obtain ⟨target, _, rfl, semicolon, _, rfl, rfl⟩ := spells
      have free := isReserved_eq_false (structured label rfl)
      refine ⟨.jump (Cursor.spanFrom ⟨tail, semicolon.stop⟩ word.start) kind
        (some ⟨label.text, target⟩), semicolon.stop, ?_, rfl⟩
      cases kind <;> simp [stmtUpTo_succ_cons, stmtAtWith, JumpKind.word, accept_apply, free]

theorem readsStmt_synchronized {lock : Expr} {inner : Block}
    (structured : (Stmt.synchronized span lock inner).IsStructured) (reads : ReadsBlock inner) :
    ReadsStmt (.synchronized span lock inner) := by
  rintro _ ⟨word, _, rfl, spells⟩ n fuel tail resumes behind
  obtain ⟨test, rest, rfl, test_spells, body_spells⟩ := spells_append.mp spells
  simp only [List.length_cons, List.length_append] at fuel
  obtain ⟨n, rfl⟩ : ∃ m, n = m + 1 := ⟨n - 1, by omega⟩
  have test_fuel : test.length ≤ n := by omega
  have body_fuel : rest.length ≤ n + 1 := by omega
  have plain := (Block.plain_of_spells structured.2 body_spells).append resumes.plain
  obtain ⟨found, behind', test_eq, test_strip⟩ :=
    reads_conditionWith structured.1 test_spells test_fuel plain word.stop
  obtain ⟨body, behind'', body_eq, body_strip⟩ :=
    reads rest body_spells n body_fuel tail resumes.plain behind'
  refine ⟨.synchronized (Cursor.spanFrom ⟨tail, behind''⟩ word.start) found body, behind'', ?_,
    by simp [Stmt.strip, test_strip, body_strip]⟩
  obtain ⟨opening, more, rfl, -⟩ := test_spells
  rw [List.cons_append] at test_eq
  simp [stmtUpTo_succ_cons, stmtAtWith, test_eq, body_eq]

/-- A word that is not reserved begins a statement with a label, a declaration or an expression. -/
theorem stmtAtWith_of_isIdentifier {text : String} (identifier : isIdentifier text = true)
    (rules : Rules) (stmt : Parser Stmt) (span : Span) :
    stmtAtWith rules stmt ⟨.word, text, span⟩ = (do
      let cursor ← get
      if cursor.isAtIdentifier && cursor.isAhead 1 [.colon] then
        advance 2
        let body ← stmt
        return .labeled (← spanFrom span.start) ⟨text, span⟩ body
      else declarationWith rules span.start) := by
  have differs : ∀ word, isReserved word = true → text ≠ word :=
    fun _ => ne_of_isIdentifier identifier
  simp [stmtAtWith, differs "if" (by decide), differs "while" (by decide), differs "do" (by decide),
    differs "for" (by decide), differs "try" (by decide), differs "return" (by decide),
    differs "throw" (by decide), differs "assert" (by decide), differs "break" (by decide),
    differs "continue" (by decide), differs "switch" (by decide),
    differs "synchronized" (by decide)]

theorem readsStmt_labeled {label : Name}
    (structured : (Stmt.labeled span label body).IsStructured) (reads : ReadsStmt body) :
    ReadsStmt (.labeled span label body) := by
  rintro _ ⟨word, _, rfl, colon, rest, rfl, spells⟩ n fuel tail resumes behind
  simp only [List.length_cons] at fuel
  obtain ⟨n, rfl⟩ : ∃ m, n = m + 1 := ⟨n - 1, by omega⟩
  have body_fuel : rest.length ≤ n := by omega
  obtain ⟨inner, behind', body_eq, body_strip⟩ :=
    reads rest spells n body_fuel tail resumes colon.stop
  refine ⟨.labeled (Cursor.spanFrom ⟨tail, behind'⟩ word.start) ⟨label.text, word⟩ inner, behind',
    ?_, by simp [Stmt.strip, Name.strip, body_strip]⟩
  have free := isReserved_eq_false structured.1
  simp [stmtUpTo_succ_cons, stmtAtWith_of_isIdentifier structured.1, free, advance, body_eq]

end

/-! ## Expressions that are statements -/

section

variable {text : String} {span : Span} {next : Token} {rest : List Token}

theorem skipVariableModifiers_eq {token : Token} (plain : AllPlain (token :: rest))
    (other : token.isWord "final" = false) (behind : Nat) :
    skipVariableModifiers ⟨token :: rest, behind⟩ = ((), ⟨token :: rest, behind⟩) := by
  have no_sign : token.kind ≠ .atSign := (plain token List.mem_cons_self).atSign
  exact repeatWhile_of_false (by simp [no_sign, atAnnotation, acceptWord_apply, other])

theorem typeRef?_of_isIdentifier (identifier : isIdentifier text = true)
    (plain : AllPlain (next :: rest)) (ends : next.kind ∉ [.less, .dot, .openBracket])
    (behind : Nat) :
    typeRef? ⟨⟨.word, text, span⟩ :: next :: rest, behind⟩ =
      (some ⟨text, Cursor.spanFrom ⟨next :: rest, span.stop⟩ span.start⟩,
        ⟨next :: rest, span.stop⟩) := by
  simp only [List.mem_cons, List.not_mem_nil, or_false, not_or] at ends
  have begins : Token.beginsType ⟨.word, text, span⟩ = true := by
    simp [Token.beginsType, isReserved_eq_false identifier]
  have type_eq : Cursor.typeRest? 0 text span.stop (next :: rest) =
      some (text, ⟨next :: rest, span.stop⟩) := by
    rw [Cursor.typeRest?.eq_def]
    simp [ends]
  have brackets_eq : Cursor.afterBrackets span.stop (next :: rest) =
      (0, ⟨next :: rest, span.stop⟩) := by
    cases rest with
    | nil => rfl
    | cons => simp [Cursor.afterBrackets, ends]
  have all_plain : AllPlain (⟨.word, text, span⟩ :: next :: rest) := plain_cons plain (by simp)
  simp only [typeRef?_cons (all_plain ⟨.word, text, span⟩ (by simp)).atSign, begins, if_true,
    type_eq, brackets_eq]
  rfl

/-- What looks like a type in front of an assignment or a call begins no declaration. -/
theorem variablesWith_eq_none (identifier : isIdentifier text = true)
    (plain : AllPlain (next :: rest)) (kind : next.kind = .openParen ∨ next.kind = .assign)
    (rules : Rules) (behind : Nat) :
    variablesWith rules ⟨⟨.word, text, span⟩ :: next :: rest, behind⟩ =
      (none, ⟨⟨.word, text, span⟩ :: next :: rest, behind⟩) := by
  have all_plain : AllPlain (⟨.word, text, span⟩ :: next :: rest) := plain_cons plain (by simp)
  have not_final : Token.isWord ⟨.word, text, span⟩ "final" = false := by
    simp [Token.isWord, ne_of_isIdentifier identifier (by decide : isReserved "final" = true)]
  have ends : next.kind ∉ [.less, .dot, .openBracket] := by
    rcases kind with kind | kind <;> simp [kind]
  have no_word : next.kind ≠ .word := by
    rcases kind with kind | kind <;> simp [kind]
  simp [variablesWith, skipVariableModifiers_eq all_plain not_final,
    typeRef?_of_isIdentifier identifier plain ends, no_word]

theorem repeatWhile_of_true {step : Parser Bool} {cursor middle after : Cursor}
    (first : step cursor = (true, middle)) (stop : step middle = (false, after))
    (reads : middle.rest.length < cursor.rest.length) : repeatWhile step cursor = ((), after) := by
  have repeats : Repeats (do return if ← step then some () else none) cursor [()] after := by
    refine .next (?_ : _ = (some (), middle)) reads (.stop ?_)
    · simp [first]
    · simp [stop]
  simp only [repeatWhile, discard_apply, repeats.many_eq]

/-- Nor do they begin the declaration of a type. The word may be `sealed`, which is a modifier, but
no type follows it. -/
theorem localType?_eq_none (identifier : isIdentifier text = true)
    (kind : next.kind = .openParen ∨ next.kind = .assign) (start behind : Nat) :
    localType? start ⟨⟨.word, text, span⟩ :: next :: rest, behind⟩ =
      (none, ⟨⟨.word, text, span⟩ :: next :: rest, behind⟩) := by
  have differs : ∀ word, isReserved word = true → text ≠ word :=
    fun _ => ne_of_isIdentifier identifier
  have no_word : next.kind ≠ .word ∧ next.kind ≠ .minus ∧ next.kind ≠ .atSign := by
    rcases kind with kind | kind <;> simp [kind]
  have skipped : ∃ after, skipModifiers ⟨⟨.word, text, span⟩ :: next :: rest, behind⟩ =
      ((), after) ∧ after.typeKind? = none := by
    by_cases modifier : text ∈ modifierWords
    · refine ⟨⟨next :: rest, span.stop⟩,
        repeatWhile_of_true (?_ : _ = (true, (⟨next :: rest, span.stop⟩ : Cursor))) ?_ (by simp),
        ?_⟩
      · simp [atModifier, atAnnotation, modifier, no_word, differs "static" (by decide),
          differs "default" (by decide), Token.isWord]
      · simp [atModifier, atAnnotation, no_word, Token.isWord]
      · simp [Cursor.typeKind?, no_word, Token.isWord]
    · refine ⟨⟨⟨.word, text, span⟩ :: next :: rest, behind⟩, repeatWhile_of_false ?_, ?_⟩
      · simp [atModifier, atAnnotation, modifier, no_word, Token.isWord]
      · simp [Cursor.typeKind?, no_word, Token.isWord, differs "class" (by decide),
          differs "interface" (by decide), differs "enum" (by decide)]
  obtain ⟨after, skip_eq, no_kind⟩ := skipped
  simp [localType?, skip_eq, no_kind]

end

/-- A statement that consists of an expression is told from the expression it is read from. -/
theorem strip_statementOf {value found : Expr} (statement : value.IsStatement)
    (strip_eq : found.strip = value.strip) (span span' : Span) :
    (statementOf span found).strip = (Stmt.expr span' value).strip := by
  cases found with
  | call callSpan method arguments =>
      cases value with
      | call valueSpan named values =>
          have differs : ∀ word, isReserved word = true → method.text ≠ word := by
            have text_eq : method.text = named.text := by simp_all [Expr.strip]
            exact text_eq ▸ fun _ => ne_of_isIdentifier statement.1
          simp [statementOf, differs "this" (by decide), differs "super" (by decide), Stmt.strip,
            strip_eq]
      | assignment => simp [Expr.strip] at strip_eq
      | _ => exact statement.elim
  | memberCall =>
      cases value with
      | call | assignment => simp [Expr.strip] at strip_eq
      | _ => exact statement.elim
  | _ => simp [statementOf, Stmt.strip, strip_eq]

section

variable {value : Expr} {tokens tail : List Token} {n : Nat}

/-- The tokens of a statement that consists of an expression, without the semicolon, are read as
that expression. -/
theorem readsExpr_of_isStatement (statement : value.IsStatement)
    (spells : Spells value.statementPieces tokens) (fuel : tokens.length ≤ n)
    (closes : Closes tail) :
    ReadsExpr (rules (n + 1)).expr value tokens tail ∧
      ∃ text span next rest, tokens = ⟨.word, text, span⟩ :: next :: rest ∧
        isIdentifier text = true ∧ (next.kind = .openParen ∨ next.kind = .assign) ∧
        AllPlain (next :: rest) := by
  cases value with
  | call span method arguments =>
      obtain ⟨identifier, rfl⟩ := statement
      obtain ⟨word, _, rfl, opening, _, rfl, closing, _, rfl, rfl⟩ := spells
      refine ⟨readsExpr_of_writable ⟨.inl identifier, trivial⟩ ?_ fuel closes, _, _, _, _, rfl,
        identifier, .inl rfl, ?_⟩
      · exact Language.mem_mul.mpr ⟨_, Token.mem_spelled_singleton.mpr ⟨word, rfl⟩, _,
          mem_inParens.mpr ⟨opening, [], closing, rfl, rfl⟩, rfl⟩
      · exact plain_cons (plain_cons nofun (by simp)) (by simp)
  | assignment span op target value =>
      obtain ⟨rfl, ⟨span', name, rfl, identifier⟩, writable⟩ := statement
      obtain ⟨word, _, rfl, sign, _, rfl, front, _, rfl, member, rfl⟩ := spells
      rw [List.append_nil] at fuel ⊢
      have target : (Expr.name span' name).Writable := identifier
      have operand := value.isOperand_of_mem_spelling writable
      refine ⟨?_, _, _, _, _, rfl, identifier, .inr rfl,
        plain_cons (operand front member).plain (by simp)⟩
      refine readsExpr_assignment (readsOperand_of_writable _ target)
        (Expr.isOperand_of_mem_spelling _ target) (readsOperand_of_writable value writable) operand
        ?_ fuel closes
      rw [mul_assoc]
      exact Language.mem_mul.mpr ⟨_, Token.mem_spelled_singleton.mpr ⟨word, rfl⟩, _,
        Language.mem_mul.mpr ⟨_, Token.mem_spelled_singleton.mpr ⟨sign, rfl⟩, front, member, rfl⟩,
        rfl⟩
  | _ => exact statement.elim

end

theorem readsStmt_expr {span : Span} {value : Expr} (statement : value.IsStatement) :
    ReadsStmt (.expr span value) := by
  intro tokens spells n fuel tail resumes behind
  obtain ⟨front, _, rfl, front_spells, semicolon, _, rfl, rfl⟩ := spells_append.mp spells
  simp only [List.length_append, List.length_cons] at fuel
  obtain ⟨n, rfl⟩ : ∃ m, n = m + 1 := ⟨n - 1, by omega⟩
  have front_fuel : front.length ≤ n := by omega
  obtain ⟨reads, text, word, next, rest, rfl, identifier, kind, plain⟩ :=
    readsExpr_of_isStatement statement front_spells front_fuel
      (closes_semicolon resumes.plain semicolon)
  obtain ⟨found, behind', read_eq, strip_eq⟩ := reads behind
  refine ⟨statementOf (Cursor.spanFrom ⟨tail, semicolon.stop⟩ word.start) found, semicolon.stop, ?_,
    strip_statementOf statement strip_eq _ _⟩
  have later_plain : AllPlain (next :: (rest ++ ⟨.semicolon, ";", semicolon⟩ :: tail)) :=
    plain.append (closes_semicolon resumes.plain semicolon).plain
  have no_colon : next.kind ≠ .colon := by
    rcases kind with kind | kind <;> simp [kind]
  rw [List.cons_append, List.cons_append] at read_eq
  simp [stmtUpTo_succ_cons, stmtAtWith_of_isIdentifier identifier, no_colon, declarationWith,
    localType?_eq_none identifier kind, variablesWith_eq_none identifier later_plain kind,
    exprStmtWith, read_eq, accept_apply]

/-! ## Loops with a header -/

/-- No variable begins at a semicolon. -/
theorem forEachHeader?_eq_none {span : Span} {rest : List Token}
    (plain : AllPlain (⟨.semicolon, ";", span⟩ :: rest)) (behind : Nat) :
    forEachHeader? ⟨⟨.semicolon, ";", span⟩ :: rest, behind⟩ =
      (none, ⟨⟨.semicolon, ";", span⟩ :: rest, behind⟩) := by
  simp [forEachHeader?, skipVariableModifiers_eq plain, Token.isWord, parameter?,
    typeRef?_cons (plain ⟨.semicolon, ";", span⟩ (by simp)).atSign, Token.beginsType]

theorem readsStmt_forLoop {span : Span} {init : ForInit} {condition : Option Expr}
    {update : List Expr} {body : Stmt}
    (structured : (Stmt.forLoop span init condition update body).IsStructured)
    (reads : ReadsStmt body) : ReadsStmt (.forLoop span init condition update body) := by
  obtain ⟨rfl, ⟨value, rfl, writable⟩, rfl, body_structured⟩ := structured
  rintro _ ⟨word, _, rfl, spells⟩ n fuel tail resumes behind
  obtain ⟨_, rest, rfl, header_spells, body_spells⟩ := spells_append.mp spells
  obtain ⟨opening, _, rfl, first, _, rfl, front, _, rfl, member, second, _, rfl, closing, _, rfl,
    rfl⟩ := header_spells
  simp only [List.length_cons, List.length_append] at fuel
  obtain ⟨n, rfl⟩ : ∃ m, n = m + 1 := ⟨n - 1, by omega⟩
  have front_fuel : front.length ≤ n := by omega
  have body_fuel : rest.length ≤ n := by omega
  have operand := value.isOperand_of_mem_spelling writable front member
  have later_plain : AllPlain (⟨.closeParen, ")", closing⟩ :: (rest ++ tail)) :=
    plain_cons ((Stmt.plain_of_spells body_structured body_spells).append resumes.plain) (by simp)
  have closes := closes_semicolon later_plain second
  have header_plain : AllPlain (⟨.semicolon, ";", first⟩ :: (front ++
      ⟨.semicolon, ";", second⟩ :: ⟨.closeParen, ")", closing⟩ :: (rest ++ tail))) :=
    plain_cons (operand.plain.append closes.plain) (by simp)
  obtain ⟨found, behind', read_eq, strip_eq⟩ :=
    readsExpr_of_writable writable member front_fuel closes first.stop
  obtain ⟨inner, behind'', body_eq, body_strip⟩ :=
    reads rest body_spells n body_fuel tail resumes closing.stop
  refine ⟨.forLoop (Cursor.spanFrom ⟨tail, behind''⟩ word.start) .nothing (some found) [] inner,
    behind'', ?_, by simp [Stmt.strip, strip_eq, body_strip]⟩
  have begins := isAt_eq_false_of_leads operand.leads .semicolon (by decide)
  simp [stmtUpTo_succ_cons, stmtAtWith, forWith, accept_apply, forEachHeader?_eq_none header_plain,
    begins, read_eq, exprsWith, iterate, iterateUpTo, body_eq]

end Parser

end JavaOutline
