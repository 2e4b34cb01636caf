import JavaOutline.Proofs.Reading.Spelled
import JavaOutline.Reading.Declaration

/-!
# Reading rendered expressions

The rendering of a writable expression is read as that expression, up to spans and parentheses.
The induction is on the expression. Selections are nested to the left, but read from left to right
by repetition, so what is carried through the induction says how reading goes on: an operand is
read so that any repetition of selectors that can follow it follows.
-/

namespace JavaOutline

open Token (AllPlain IsOperand Leads spelled)

namespace Cursor

variable (token : Token) (rest : List Token) (behind : Nat)

@[simp] theorem tail_cons : tail ⟨token :: rest, behind⟩ = ⟨rest, token.span.stop⟩ := rfl

@[simp] theorem here_cons : here ⟨token :: rest, behind⟩ = token.span.start := rfl

@[simp] theorem atEnd_cons : atEnd ⟨token :: rest, behind⟩ = false := rfl

@[simp] theorem isAt_cons (kind : TokenKind) :
    isAt ⟨token :: rest, behind⟩ kind = decide (token.kind = kind) := rfl

@[simp] theorem isAtWord_cons (word : String) :
    isAtWord ⟨token :: rest, behind⟩ word = token.isWord word := rfl

@[simp] theorem isAtIdentifier_cons : isAtIdentifier ⟨token :: rest, behind⟩ =
    (token.kind = .word && !isReserved token.text) := rfl

@[simp] theorem kindAhead?_zero_cons : kindAhead? ⟨token :: rest, behind⟩ 0 = some token.kind := rfl

@[simp] theorem isAhead_zero_cons (kinds : List TokenKind) :
    isAhead ⟨token :: rest, behind⟩ 0 kinds = kinds.contains token.kind := rfl

@[simp] theorem isAhead_one_cons (kinds : List TokenKind) :
    isAhead ⟨token :: rest, behind⟩ 1 kinds = isAhead ⟨rest, behind⟩ 0 kinds := by
  cases rest <;> rfl

theorem isAt_eq_false_of_isAt {cursor : Cursor} {kind : TokenKind}
    (at_kind : cursor.isAt kind = true) (other : TokenKind) (differs : kind ≠ other) :
    cursor.isAt other = false := by
  obtain ⟨rest, behind⟩ := cursor
  cases rest with
  | nil => rfl
  | cons token rest =>
      obtain rfl : token.kind = kind := by simpa using at_kind
      simpa using differs

theorem isAhead_zero_singleton (cursor : Cursor) (kind : TokenKind) :
    cursor.isAhead 0 [kind] = cursor.isAt kind := by
  obtain ⟨rest, behind⟩ := cursor
  cases rest with
  | nil => rfl
  | cons token rest => simp

end Cursor

namespace Parser

variable {α : Type}

/-- The repetition of a step that leads from one value and place to another, reading a token each
time. -/
inductive Iterates (step : α → Parser (Option α)) : α → Cursor → α → Cursor → Prop
  | stop {value : α} {cursor after : Cursor} (none_eq : step value cursor = (none, after)) :
      Iterates step value cursor value after
  | next {value following result : α} {cursor middle after : Cursor}
      (some_eq : step value cursor = (some following, middle))
      (reads : middle.rest.length < cursor.rest.length)
      (later : Iterates step following middle result after) :
      Iterates step value cursor result after

theorem Iterates.iterate_eq {step : α → Parser (Option α)} {value result : α}
    {cursor after : Cursor} (iterates : Iterates step value cursor result after) :
    iterate step value cursor = (result, after) := by
  have upTo : ∀ n, cursor.rest.length < n → iterateUpTo step n value cursor = (result, after) := by
    induction iterates with
    | stop none_eq =>
        intro n bound
        obtain ⟨n, rfl⟩ : ∃ m, n = m + 1 := ⟨n - 1, by omega⟩
        simp [iterateUpTo, none_eq]
    | next some_eq reads _ induction =>
        intro n bound
        obtain ⟨n, rfl⟩ : ∃ m, n = m + 1 := ⟨n - 1, by omega⟩
        simp [iterateUpTo, some_eq, induction n (by omega)]
  exact upTo _ (Nat.lt_succ_self _)

/-- The results of a step that is repeated until it gives none, reading a token each time. -/
inductive Repeats (step : Parser (Option α)) : Cursor → List α → Cursor → Prop
  | stop {cursor after : Cursor} (none_eq : step cursor = (none, after)) :
      Repeats step cursor [] after
  | next {value : α} {values : List α} {cursor middle after : Cursor}
      (some_eq : step cursor = (some value, middle))
      (reads : middle.rest.length < cursor.rest.length)
      (later : Repeats step middle values after) :
      Repeats step cursor (value :: values) after

theorem Repeats.many_eq {step : Parser (Option α)} {values : List α}
    {cursor after : Cursor} (repeats : Repeats step cursor values after) :
    many step cursor = (values, after) := by
  have upTo : ∀ n, cursor.rest.length < n → manyUpTo step n cursor = (values, after) := by
    induction repeats with
    | stop none_eq =>
        intro n bound
        obtain ⟨n, rfl⟩ : ∃ m, n = m + 1 := ⟨n - 1, by omega⟩
        simp [manyUpTo, none_eq]
    | next some_eq reads _ induction =>
        intro n bound
        obtain ⟨n, rfl⟩ : ∃ m, n = m + 1 := ⟨n - 1, by omega⟩
        simp [manyUpTo, some_eq, induction n (by omega)]
  exact upTo _ (Nat.lt_succ_self _)

theorem advance_append (tokens rest : List Token) (behind : Nat) :
    ∃ behind', advance tokens.length ⟨tokens ++ rest, behind⟩ = ((), ⟨rest, behind'⟩) := by
  induction tokens generalizing behind with
  | nil => exact ⟨behind, rfl⟩
  | cons token tokens induction => exact induction token.span.stop

end Parser

/-! ## What follows an operand -/

/-- Whether a token may come after an operand: it begins no other operand, no arguments and no
body. -/
def Token.endsOperand (token : Token) : Bool :=
  match token.kind with
  | .word => token.text = "instanceof"
  | .openParen | .openBrace | .bang | .tilde => false
  | kind => !kind.isLiteral

/-- Plain tokens that may come after an operand. -/
structure Follows (tail : List Token) : Prop where
  plain : AllPlain tail
  ends : ∀ token ∈ tail.head?, token.endsOperand = true

namespace Follows

variable {tail : List Token}

theorem isAtOperand_eq (follows : Follows tail) (behind : Nat) :
    Cursor.isAtOperand ⟨tail, behind⟩ = false := by
  cases tail with
  | nil => rfl
  | cons token tail =>
      have ends := follows.ends token rfl
      cases kind_eq : token.kind with
      | word => simp_all [Token.endsOperand, Cursor.isAtOperand]; decide
      | _ => simp_all [Token.endsOperand, Cursor.isAtOperand, TokenKind.isLiteral]

theorem isAt_eq (follows : Follows tail) {kind : TokenKind}
    (opens : kind = .openParen ∨ kind = .openBrace) (behind : Nat) :
    Cursor.isAt ⟨tail, behind⟩ kind = false := by
  cases tail with
  | nil => rfl
  | cons token tail =>
      have ends := follows.ends token rfl
      rcases opens with rfl | rfl <;> cases kind_eq : token.kind <;>
        simp_all [Token.endsOperand]

end Follows

namespace Parser

/-- Whether no selector comes next, whatever it would select from. -/
def StopsSelection (tail : List Token) : Prop :=
  ∀ n operand behind,
    selectorWith (rules n) operand ⟨tail, behind⟩ = (none, ⟨tail, behind⟩)

/-- Whether no operator comes next that joins two operands. -/
def StopsOperation (tail : List Token) : Prop :=
  ∀ n least left behind,
    binaryStepWith (rules n) least left ⟨tail, behind⟩ = (none, ⟨tail, behind⟩)

/-- Whether a parser reads an expression, up to spans and parentheses, from tokens in front of
others. -/
def ReadsExpr (parser : Parser (Option Expr)) (expr : Expr) (tokens tail : List Token) : Prop :=
  ∀ behind, ∃ found behind',
    parser ⟨tokens ++ tail, behind⟩ = (some found, ⟨tail, behind'⟩) ∧ found.strip = expr.strip

/-- Whether an expression is read as an operand: any selectors after it are read on from the
expression. -/
def ReadsOperand (expr : Expr) : Prop :=
  ∀ tokens ∈ expr.spelling, ∀ n, tokens.length ≤ n → ∀ tail, Follows tail → ∀ behind,
    ∃ found behind', found.strip = expr.strip ∧ ∀ result after,
      Iterates (selectorWith (rules n)) found ⟨tail, behind'⟩ result after →
        operandWith (rules n) ⟨tokens ++ tail, behind⟩ = (some result, after)

/-- Without an operator and a parenthesis before it, an operand is read without a cast. -/
theorem unaryWith_of_kind {token : Token}
    (kind_ne : token.kind ∉ [.plus, .minus, .bang, .tilde, .increment, .decrement, .openParen])
    (rules : Rules) (rest : List Token) (behind : Nat) :
    unaryWith rules ⟨token :: rest, behind⟩ = operandWith rules ⟨token :: rest, behind⟩ := by
  simp only [List.mem_cons, List.not_mem_nil, or_false, not_or] at kind_ne
  have no_op : Cursor.unaryOp? ⟨token :: rest, behind⟩ = none := by
    simp only [Cursor.unaryOp?, Cursor.kindAhead?_zero_cons]
    split <;> simp_all
  simp [unaryWith, no_op, kind_ne]

theorem unaryWith_of_beginsOperand {token : Token} (begins : token.beginsOperand = true)
    (rules : Rules) (rest : List Token) (behind : Nat) :
    unaryWith rules ⟨token :: rest, behind⟩ = operandWith rules ⟨token :: rest, behind⟩ := by
  apply unaryWith_of_kind
  intro kind_mem
  simp only [List.mem_cons, List.not_mem_nil, or_false] at kind_mem
  rcases kind_mem with kind | kind | kind | kind | kind | kind | kind <;>
    simp [Token.beginsOperand, kind, TokenKind.isLiteral] at begins

/-- What leads as an operand does is read as one. -/
theorem unaryWith_of_leads {tokens tail : List Token} (leads : Leads tokens)
    (plain : AllPlain tokens) (follows : Follows tail) (rules : Rules) (behind : Nat) :
    unaryWith rules ⟨tokens ++ tail, behind⟩ = operandWith rules ⟨tokens ++ tail, behind⟩ := by
  cases leads with
  | operand begins => exact unaryWith_of_beginsOperand begins rules _ behind
  | @group opening closing inner selectors opens closes regular named selects =>
      have whole_plain := plain.append follows.plain
      rw [List.cons_append, List.append_assoc, List.cons_append] at whole_plain ⊢
      have ends : ∀ offset, Cursor.isAtOperand ⟨selectors ++ tail, offset⟩ = false := by
        cases selectors with
        | nil => exact follows.isAtOperand_eq
        | cons selector selectors =>
            intro offset
            rcases selects selector rfl with dot | bracket
            · simp [Cursor.isAtOperand, dot, TokenKind.isLiteral]
            · simp [Cursor.isAtOperand, bracket, TokenKind.isLiteral]
      have no_cast :
          castWith rules ⟨opening :: (inner ++ closing :: (selectors ++ tail)), behind⟩ = _ :=
        castWith_eq_none rules closes
          (fun token member => whole_plain token (List.mem_cons_of_mem _ member)) regular.opens
          named ends
      simp [unaryWith, Cursor.unaryOp?, opens, no_cast]

section

variable {expr : Expr} {tokens tail : List Token} {n : Nat}

/-- An operand is read with the operators before it; there are none. -/
theorem ReadsOperand.unary (reads : ReadsOperand expr) (member : tokens ∈ expr.spelling)
    (operand : IsOperand tokens) (fuel : tokens.length ≤ n) (follows : Follows tail)
    (stops : StopsSelection tail) : ReadsExpr (unaryWith (rules n)) expr tokens tail := by
  intro behind
  obtain ⟨found, behind', strip_eq, goes_on⟩ := reads tokens member n fuel tail follows behind
  refine ⟨found, behind', ?_, strip_eq⟩
  rw [unaryWith_of_leads operand.leads operand.plain follows]
  exact goes_on found ⟨tail, behind'⟩ (.stop (stops n found behind'))

/-- Operands that no operator joins to others. -/
theorem ReadsExpr.binary (reads : ReadsExpr (unaryWith (rules n)) expr tokens tail)
    (ends : StopsOperation tail) (least : Nat) :
    ReadsExpr (binaryWith (rules n) least) expr tokens tail := by
  intro behind
  obtain ⟨found, behind', read_eq, strip_eq⟩ := reads behind
  refine ⟨found, behind', ?_, strip_eq⟩
  have alone := (Iterates.stop (ends n least found behind')).iterate_eq
  simp [binaryWith, read_eq, alone]

end

/-- Plain tokens that begin with one that closes an expression. -/
structure Closes (tail : List Token) : Prop where
  plain : AllPlain tail
  closes : ∀ token ∈ tail.head?,
    token.kind ∈ [.closeParen, .closeBracket, .comma, .colon, .semicolon]

namespace Closes

variable {tail : List Token}

theorem follows (closes : Closes tail) : Follows tail := by
  refine ⟨closes.plain, fun token first => ?_⟩
  have kind_mem := closes.closes token first
  simp only [List.mem_cons, List.not_mem_nil, or_false] at kind_mem
  rcases kind_mem with kind_eq | kind_eq | kind_eq | kind_eq | kind_eq <;>
    simp [Token.endsOperand, kind_eq, TokenKind.isLiteral]

theorem stopsSelection (closes : Closes tail) : StopsSelection tail := by
  intro n operand behind
  cases tail with
  | nil => rfl
  | cons token tail =>
      have kind_mem := closes.closes token rfl
      simp only [List.mem_cons, List.not_mem_nil, or_false] at kind_mem
      rcases kind_mem with kind_eq | kind_eq | kind_eq | kind_eq | kind_eq <;>
        simp [selectorWith, Cursor.updateOp?, kind_eq]

theorem stopsOperation (closes : Closes tail) : StopsOperation tail := by
  intro n least left behind
  cases tail with
  | nil => rfl
  | cons token tail =>
      have kind_mem := closes.closes token rfl
      simp only [List.mem_cons, List.not_mem_nil, or_false] at kind_mem
      rcases kind_mem with kind_eq | kind_eq | kind_eq | kind_eq | kind_eq <;>
        simp [binaryStepWith, Cursor.binaryOp?, kind_eq, Token.isWord]

theorem isAt_question (closes : Closes tail) (behind : Nat) :
    Cursor.isAt ⟨tail, behind⟩ .question = false := by
  cases tail with
  | nil => rfl
  | cons token tail =>
      have kind_mem := closes.closes token rfl
      simp only [List.mem_cons, List.not_mem_nil, or_false] at kind_mem
      rcases kind_mem with kind_eq | kind_eq | kind_eq | kind_eq | kind_eq <;> simp [kind_eq]

theorem assignOp?_eq (closes : Closes tail) (behind : Nat) :
    Cursor.assignOp? ⟨tail, behind⟩ = none := by
  cases tail with
  | nil => rfl
  | cons token tail =>
      have kind_mem := closes.closes token rfl
      simp only [List.mem_cons, List.not_mem_nil, or_false] at kind_mem
      rcases kind_mem with kind_eq | kind_eq | kind_eq | kind_eq | kind_eq <;>
        simp [Cursor.assignOp?, kind_eq]

end Closes

section

variable {expr : Expr} {tokens tail : List Token} {n : Nat}

/-- What is read as operands joined by operators is a conditional expression, if no question mark
follows. -/
theorem ReadsExpr.conditional (reads : ReadsExpr (binaryWith (rules n) 0) expr tokens tail)
    (ends : ∀ behind, Cursor.isAt ⟨tail, behind⟩ .question = false) :
    ReadsExpr (conditionalWith (rules n)) expr tokens tail := by
  intro behind
  obtain ⟨found, behind', read_eq, strip_eq⟩ := reads behind
  refine ⟨found, behind', ?_, strip_eq⟩
  simp [conditionalWith, read_eq, accept_apply, ends]

/-- What is read as a conditional expression, and closed then, is an expression. -/
theorem ReadsExpr.whole (reads : ReadsExpr (conditionalWith (rules n)) expr tokens tail)
    (plain : AllPlain tokens) (closes : Closes tail) :
    ReadsExpr (exprWith (rules n)) expr tokens tail := by
  intro behind
  obtain ⟨found, behind', read_eq, strip_eq⟩ := reads behind
  refine ⟨found, behind', ?_, strip_eq⟩
  have no_lambda : Cursor.isAtLambda ⟨tokens ++ tail, behind⟩ = false :=
    Cursor.isAtLambda_eq_false (plain.append closes.plain)
  simp [exprWith, no_lambda, read_eq, closes.assignOp?_eq]

/-- An operand that is closed then is an expression. -/
theorem ReadsOperand.whole (reads : ReadsOperand expr) (member : tokens ∈ expr.spelling)
    (operand : IsOperand tokens) (fuel : tokens.length ≤ n) (closes : Closes tail) :
    ReadsExpr (exprWith (rules n)) expr tokens tail :=
  (((reads.unary member operand fuel closes.follows closes.stopsSelection).binary
    closes.stopsOperation 0).conditional closes.isAt_question).whole operand.plain closes

end

/-! ## Operands -/

theorem operandWith_eq {rules : Rules} {cursor middle after : Cursor} {first result : Expr}
    (primary : primaryWith rules cursor = (some first, middle))
    (selects : Iterates (selectorWith rules) first middle result after) :
    operandWith rules cursor = (some result, after) := by
  simp [operandWith, primary, selects.iterate_eq]

theorem orMissing_of_some {parser : Parser (Option Expr)} {cursor after : Cursor} {expr : Expr}
    (read : parser cursor = (some expr, after)) : orMissing parser cursor = (expr, after) := by
  simp [orMissing, read]

/-- Plain tokens that begin with a closing parenthesis. -/
structure Closed (tail : List Token) : Prop where
  plain : AllPlain tail
  closed : ∃ span more, tail = ⟨.closeParen, ")", span⟩ :: more

theorem Closed.closes {tail : List Token} (closed : Closed tail) : Closes tail := by
  obtain ⟨span, more, rfl⟩ := closed.closed
  refine ⟨closed.plain, ?_⟩
  rintro _ ⟨rfl⟩
  simp

theorem plain_cons {token : Token} {tail : List Token} (plain : AllPlain tail)
    (kind : token.kind ∉ [.arrow, .atSign, .less]) : AllPlain (token :: tail) := by
  simp only [List.mem_cons, List.not_mem_nil, or_false, not_or] at kind
  intro found member
  rcases List.mem_cons.mp member with rfl | member
  · exact ⟨kind.1, kind.2.1, fun less => absurd less kind.2.2⟩
  · exact plain found member

/-- A group is read as an operand if what stands in it is read as an expression. -/
theorem readsOperand_of_group {expr : Expr} {inner : Language Token}
    (spelling_eq : expr.spelling = inParens inner)
    (reads : ∀ tokens ∈ inner, ∀ n, tokens.length ≤ n → ∀ tail, Closed tail →
      ReadsExpr (exprWith (rules n)) expr tokens tail) : ReadsOperand expr := by
  intro tokens member n fuel tail follows behind
  rw [spelling_eq] at member
  obtain ⟨span, middle, span', middle_mem, rfl⟩ := mem_inParens.mp member
  rw [List.length_cons, List.length_append, List.length_singleton] at fuel
  obtain ⟨n, rfl⟩ : ∃ m, n = m + 1 := ⟨n - 1, by omega⟩
  have closed : Closed (⟨.closeParen, ")", span'⟩ :: tail) :=
    ⟨plain_cons follows.plain (by simp), span', tail, rfl⟩
  obtain ⟨found, behind', read_eq, strip_eq⟩ :=
    reads middle middle_mem n (by omega) _ closed span.stop
  refine ⟨.parenthesized ⟨span.start, max span'.stop span.start⟩ found, span'.stop, strip_eq, ?_⟩
  intro result after selects
  refine operandWith_eq ?_ selects
  have inner_eq : orMissing (rules (n + 1)).expr
      ⟨middle ++ ⟨.closeParen, ")", span'⟩ :: tail, span.stop⟩ = (found, _) :=
    orMissing_of_some read_eq
  simp [primaryWith, inner_eq, accept_apply, Cursor.spanFrom]

/-- A literal or a word that is read as it stands. -/
theorem readsOperand_of_token {expr : Expr} {kind : TokenKind} {text : String}
    (spelling_eq : expr.spelling = spelled [(kind, text)])
    (primary : ∀ n span tail, Follows tail → ∀ behind, ∃ found behind',
      primaryWith (rules n) ⟨⟨kind, text, span⟩ :: tail, behind⟩ = (some found, ⟨tail, behind'⟩) ∧
        found.strip = expr.strip) : ReadsOperand expr := by
  intro tokens member n fuel tail follows behind
  rw [spelling_eq] at member
  obtain ⟨span, rfl⟩ := Token.mem_spelled_singleton.mp member
  obtain ⟨found, behind', read_eq, strip_eq⟩ := primary n span tail follows behind
  exact ⟨found, behind', strip_eq, fun result after selects => operandWith_eq read_eq selects⟩

theorem isReserved_eq_false {text : String} (identifier : isIdentifier text = true) :
    isReserved text = false := by
  simp only [isIdentifier, Bool.and_eq_true, Bool.not_eq_true'] at identifier
  exact identifier.2

theorem ne_of_not_isReserved {text word : String} (free : isReserved text = false)
    (reserved : isReserved word = true) : text ≠ word := by
  rintro rfl
  rw [reserved] at free
  cases free

theorem ne_of_isIdentifier {text word : String} (identifier : isIdentifier text = true)
    (reserved : isReserved word = true) : text ≠ word :=
  ne_of_not_isReserved (isReserved_eq_false identifier) reserved

theorem isPrimitive_eq_false {text : String} (free : isReserved text = false) :
    isPrimitive text = false := by
  have reserved : ∀ word ∈ primitiveTypes, isReserved word = true := by decide
  by_contra primitive
  have member : text ∈ primitiveTypes := by simpa [isPrimitive] using primitive
  exact ne_of_not_isReserved free (reserved text member) rfl

/-- A word that is not reserved is read as a name, or with the arguments after it as a call. -/
theorem wordWith_of_not_isReserved {text : String} (free : isReserved text = false)
    (rules : Rules) (span : Span) :
    wordWith rules ⟨.word, text, span⟩ = (do
      advance 1
      if (← get).isAt .openParen then
        let arguments ← argumentsWith rules
        return some (.call (← spanFrom span.start) ⟨text, span⟩ arguments)
      return some (.name span text)) := by
  have differs : ∀ word, isReserved word = true → text ≠ word :=
    fun _ => ne_of_not_isReserved free
  simp [wordWith, differs "true" (by decide), differs "false" (by decide),
    differs "null" (by decide), differs "this" (by decide), differs "super" (by decide),
    differs "new" (by decide), differs "switch" (by decide), free, isPrimitive_eq_false free]

theorem readsOperand_name {span : Span} {text : String} (identifier : isIdentifier text = true) :
    ReadsOperand (.name span text) := by
  refine readsOperand_of_token rfl fun n span' tail follows behind => ?_
  refine ⟨.name span' text, span'.stop, ?_, rfl⟩
  have word_eq := wordWith_of_not_isReserved (isReserved_eq_false identifier)
  simp [primaryWith, word_eq, follows.isAt_eq (.inl rfl)]

theorem readsOperand_literal {span : Span} {kind : LiteralKind} {text : String}
    (written : kind.isWritten text = true) : ReadsOperand (.literal span kind text) := by
  refine readsOperand_of_token rfl fun n span' tail follows behind => ?_
  refine ⟨.literal span' kind text, span'.stop, ?_, rfl⟩
  cases kind with
  | boolean =>
      simp only [LiteralKind.isWritten, Bool.or_eq_true, decide_eq_true_eq] at written
      simp [primaryWith, LiteralKind.tokenKind, wordWith, written]
  | null =>
      simp only [LiteralKind.isWritten, decide_eq_true_eq] at written
      simp [primaryWith, LiteralKind.tokenKind, wordWith, written]
  | _ => simp [primaryWith, LiteralKind.tokenKind]

theorem readsOperand_this {span : Span} : ReadsOperand (.this span) := by
  refine readsOperand_of_token rfl fun n span' tail follows behind => ?_
  refine ⟨.this span', span'.stop, ?_, rfl⟩
  simp [primaryWith, wordWith, follows.isAt_eq (.inl rfl)]

theorem readsOperand_super {span : Span} : ReadsOperand (.super span) := by
  refine readsOperand_of_token rfl fun n span' tail follows behind => ?_
  refine ⟨.super span', span'.stop, ?_, rfl⟩
  simp [primaryWith, wordWith, follows.isAt_eq (.inl rfl)]

/-! ## Arguments -/

/-- Reads one argument, and the comma after it. -/
def argumentWith (rules : Rules) : Parser (Option Expr) := do
  let cursor ← get
  if cursor.atEnd || cursor.isAt .closeParen then return none
  let argument ← rules.expr
  let argument ← match argument with
    | some argument => pure argument
    | none => do
      let argument ← missing
      advance 1
      pure argument
  unless ← accept .comma do
    unless (← get).isAt .closeParen do
      skipTo [.comma, .closeParen]
      discard <| accept .comma
  return some argument

theorem argumentsWith_eq (rules : Rules) : argumentsWith rules = (do
    discard <| accept .openParen
    let arguments ← many (argumentWith rules)
    discard <| accept .closeParen
    return arguments) :=
  rfl

/-- Reads on from an argument to the next one. -/
def afterArgument (argument : Expr) : Parser (Option Expr) := do
  unless ← accept .comma do
    unless (← get).isAt .closeParen do
      skipTo [.comma, .closeParen]
      discard <| accept .comma
  return some argument

/-- Whether the expressions of a list are all read as operands. -/
def ReadAll (exprs : List Expr) : Prop :=
  ∀ expr ∈ exprs, ReadsOperand expr ∧ ∀ tokens ∈ expr.spelling, IsOperand tokens

theorem ReadAll.plain {exprs : List Expr} (all : ReadAll exprs) {tokens : List Token}
    (member : tokens ∈ withCommas (Expr.spellings exprs)) : AllPlain tokens := by
  refine plain_of_mem_withCommas (fun spelling spelling_mem tokens member => ?_) tokens member
  obtain ⟨expr, expr_mem, rfl⟩ := Expr.exists_of_mem_spellings spelling_mem
  exact ((all expr expr_mem).2 tokens member).plain

/-- An operand begins with a word, a literal or an opening parenthesis. -/
theorem isAt_eq_false_of_leads {tokens : List Token} (leads : Leads tokens) (kind : TokenKind)
    (other : kind ≠ .word ∧ kind.isLiteral = false ∧ kind ≠ .openParen) (tail : List Token)
    (behind : Nat) :
    Cursor.isAt ⟨tokens ++ tail, behind⟩ kind = false ∧
      Cursor.atEnd ⟨tokens ++ tail, behind⟩ = false := by
  refine ⟨?_, by cases leads <;> rfl⟩
  cases leads with
  | operand begins =>
      rw [List.cons_append, Cursor.isAt_cons]
      apply decide_eq_false
      rintro rfl
      unfold Token.beginsOperand at begins
      split at begins <;> simp_all
  | group opens =>
      rw [List.cons_append, Cursor.isAt_cons, opens]
      simpa using other.2.2.symm

section

variable {expr : Expr} {tokens tail : List Token} {n : Nat}

theorem argumentWith_comma {span : Span}
    (reads : ReadsExpr (exprWith (rules n)) expr tokens (⟨.comma, ",", span⟩ :: tail))
    (leads : Leads tokens) (behind : Nat) :
    ∃ found, argumentWith (rules (n + 1)) ⟨tokens ++ ⟨.comma, ",", span⟩ :: tail, behind⟩ =
      (some found, ⟨tail, span.stop⟩) ∧ found.strip = expr.strip := by
  obtain ⟨found, behind', read_eq, strip_eq⟩ := reads behind
  refine ⟨found, ?_, strip_eq⟩
  have begins := isAt_eq_false_of_leads leads .closeParen (by decide)
  simp [argumentWith, begins, rules, read_eq, accept_apply]

theorem argumentWith_closed (reads : ReadsExpr (exprWith (rules n)) expr tokens tail)
    (leads : Leads tokens) (closed : Closed tail) (behind : Nat) :
    ∃ found behind', argumentWith (rules (n + 1)) ⟨tokens ++ tail, behind⟩ =
      (some found, ⟨tail, behind'⟩) ∧ found.strip = expr.strip := by
  obtain ⟨found, behind', read_eq, strip_eq⟩ := reads behind
  refine ⟨found, behind', ?_, strip_eq⟩
  have begins := isAt_eq_false_of_leads leads .closeParen (by decide)
  obtain ⟨span, more, rfl⟩ := closed.closed
  simp [argumentWith, begins, rules, read_eq, accept_apply]

end

/-- Arguments with commas between them are read up to the closing parenthesis. -/
theorem manyUpTo_argumentWith {exprs : List Expr} (all : ReadAll exprs) {tokens : List Token}
    (member : tokens ∈ withCommas (Expr.spellings exprs)) {n k : Nat}
    (fuel : tokens.length ≤ n) (enough : tokens.length < k) {tail : List Token}
    (closed : Closed tail) (behind : Nat) :
    ∃ found behind', manyUpTo (argumentWith (rules (n + 1))) k ⟨tokens ++ tail, behind⟩ =
      (found, ⟨tail, behind'⟩) ∧ Expr.stripAll found = Expr.stripAll exprs := by
  obtain ⟨k, rfl⟩ : ∃ m, k = m + 1 := ⟨k - 1, by omega⟩
  induction exprs generalizing tokens k behind with
  | nil =>
      obtain rfl : tokens = [] := member
      obtain ⟨span, more, rfl⟩ := closed.closed
      exact ⟨[], behind, by simp [manyUpTo, argumentWith], rfl⟩
  | cons expr exprs induction =>
      obtain ⟨reads, operand⟩ := all expr (by simp)
      obtain ⟨first, first_mem, more, more_mem, rfl⟩ := member
      have leads := (operand first first_mem).leads
      have positive := leads.length_pos
      have rest_all : ReadAll exprs := fun expr member => all expr (by simp [member])
      change (first ++ more).length ≤ n at fuel
      change (first ++ more).length < k + 1 at enough
      rw [List.length_append] at fuel enough
      cases exprs with
      | nil =>
          obtain rfl : more = [] := more_mem
          obtain ⟨found, behind', read_eq, strip_eq⟩ := argumentWith_closed
            (reads.whole first_mem (operand first first_mem) (by omega) closed.closes)
            leads closed behind
          obtain ⟨others, behind'', others_eq, others_strip⟩ :=
            induction rest_all rfl (Nat.zero_le n) behind' (k - 1) (Nat.succ_pos _)
          rw [Nat.sub_add_cancel (by omega), List.nil_append] at others_eq
          refine ⟨found :: others, behind'', ?_, by simp [Expr.stripAll, strip_eq, others_strip]⟩
          simp [manyUpTo, read_eq, others_eq]
      | cons second exprs =>
          obtain ⟨_, ⟨_, comma_mem, later, later_mem, rfl⟩, last, last_mem, rfl⟩ := more_mem
          obtain ⟨span, rfl⟩ := Token.mem_spelled_singleton.mp comma_mem
          have rest_mem : later ++ last ∈ withCommas (Expr.spellings (second :: exprs)) :=
            ⟨later, later_mem, last, last_mem, rfl⟩
          have closes : Closes (⟨.comma, ",", span⟩ :: (later ++ last ++ tail)) := by
            refine ⟨plain_cons ((rest_all.plain rest_mem).append closed.plain) (by simp), ?_⟩
            rintro _ ⟨rfl⟩
            simp
          simp only [List.length_append, List.length_cons, List.length_nil] at fuel enough
          have first_fuel : first.length ≤ n := by omega
          obtain ⟨found, read_eq, strip_eq⟩ := argumentWith_comma
            (reads.whole first_mem (operand first first_mem) first_fuel closes) leads behind
          obtain ⟨others, behind'', others_eq, others_strip⟩ :=
            induction rest_all rest_mem (by simp; omega) span.stop (k - 1) (by simp; omega)
          rw [Nat.sub_add_cancel (by omega)] at others_eq
          refine ⟨found :: others, behind'', ?_, by simp [Expr.stripAll, strip_eq, others_strip]⟩
          simp only [List.append_assoc, List.cons_append, List.nil_append] at read_eq others_eq ⊢
          simp [manyUpTo, read_eq, others_eq]

/-- Arguments in parentheses are read. -/
theorem argumentsWith_of_mem {exprs : List Expr} (all : ReadAll exprs) {tokens : List Token}
    (member : tokens ∈ inParens (withCommas (Expr.spellings exprs))) {n : Nat}
    (fuel : tokens.length ≤ n) {tail : List Token} (plain : AllPlain tail) (behind : Nat) :
    Cursor.isAt ⟨tokens ++ tail, behind⟩ .openParen = true ∧
    ∃ found behind', argumentsWith (rules n) ⟨tokens ++ tail, behind⟩ =
      (found, ⟨tail, behind'⟩) ∧ Expr.stripAll found = Expr.stripAll exprs := by
  obtain ⟨span, middle, span', middle_mem, rfl⟩ := mem_inParens.mp member
  refine ⟨rfl, ?_⟩
  rw [List.length_cons, List.length_append, List.length_singleton] at fuel
  obtain ⟨n, rfl⟩ : ∃ m, n = m + 1 := ⟨n - 1, by omega⟩
  have closed : Closed (⟨.closeParen, ")", span'⟩ :: tail) :=
    ⟨plain_cons plain (by simp), span', tail, rfl⟩
  have middle_fuel : middle.length ≤ n := by omega
  have enough : middle.length < (middle ++ ⟨.closeParen, ")", span'⟩ :: tail).length + 1 := by
    rw [List.length_append]
    omega
  obtain ⟨found, behind', read_eq, strip_eq⟩ :=
    manyUpTo_argumentWith all middle_mem middle_fuel enough closed span.stop
  refine ⟨found, span'.stop, ?_, strip_eq⟩
  have many_eq : many (argumentWith (rules (n + 1)))
      ⟨middle ++ ⟨.closeParen, ")", span'⟩ :: tail, span.stop⟩ = (found, _) := read_eq
  simp [argumentsWith_eq, accept_apply, many_eq]

/-! ## Types -/

theorem typeRest?_of_mem {more : List String} (identifiers : ∀ word ∈ more, isIdentifier word)
    {tokens : List Token}
    (member : tokens ∈ ((more.map wordSpelling).map (spelled [(.dot, ".")] * ·)).prod)
    {rest : List Token} (ends : ∀ token ∈ rest.head?, token.kind ≠ .less ∧ token.kind ≠ .dot)
    (text : String) (behind : Nat) :
    ∃ behind', Cursor.typeRest? 0 text behind (tokens ++ rest) =
      some (".".intercalate (text :: more), ⟨rest, behind'⟩) := by
  induction more generalizing tokens text behind with
  | nil =>
      obtain rfl : tokens = [] := member
      refine ⟨behind, ?_⟩
      cases rest with
      | nil => rfl
      | cons token rest =>
          have kind := ends token rfl
          rw [Cursor.typeRest?.eq_def]
          simp [kind]
  | cons word more induction =>
      rw [List.map_cons, List.map_cons, List.prod_cons] at member
      obtain ⟨_, first_mem, later, later_mem, rfl⟩ := Language.mem_mul.mp member
      obtain ⟨_, dot_mem, _, word_mem, rfl⟩ := Language.mem_mul.mp first_mem
      obtain ⟨dot, rfl⟩ := Token.mem_spelled_singleton.mp dot_mem
      obtain ⟨span, rfl⟩ := Token.mem_spelled_singleton.mp word_mem
      obtain ⟨behind', later_eq⟩ :=
        induction (fun word member => identifiers word (by simp [member])) later_mem
          (text ++ "." ++ word) span.stop
      refine ⟨behind', ?_⟩
      have free := isReserved_eq_false (identifiers word (by simp))
      simp only [List.cons_append, List.nil_append, Cursor.typeRest?, free, later_eq]
      simp

theorem exists_of_mem_brackets {tokens : List Token}
    (member : tokens ∈ spelled [(.openBracket, "["), (.closeBracket, "]")]) :
    ∃ opening closing, tokens = [opening, closing] ∧ opening.kind = .openBracket ∧
      closing.kind = .closeBracket := by
  obtain ⟨opening, _, rfl, opening_eq, more_eq⟩ := List.map_eq_cons_iff.mp member.1
  obtain ⟨closing, rfl, closing_eq⟩ := List.map_eq_singleton_iff.mp more_eq
  exact ⟨opening, closing, rfl, (Prod.mk.inj opening_eq).1, (Prod.mk.inj closing_eq).1⟩

theorem afterBrackets_of_mem {pairs : Nat} {tokens : List Token}
    (member : tokens ∈ spelled [(.openBracket, "["), (.closeBracket, "]")] ^ pairs)
    {rest : List Token} (ends : ∀ token ∈ rest.head?, token.kind ≠ .openBracket) (behind : Nat) :
    ∃ behind', Cursor.afterBrackets behind (tokens ++ rest) = (pairs, ⟨rest, behind'⟩) := by
  induction pairs generalizing tokens behind with
  | zero =>
      obtain rfl : tokens = [] := member
      refine ⟨behind, ?_⟩
      match rest with
      | [] | [_] => rfl
      | token :: closing :: rest => simp [Cursor.afterBrackets, ends token rfl]
  | succ pairs induction =>
      rw [pow_succ'] at member
      obtain ⟨_, pair_mem, later, later_mem, rfl⟩ := Language.mem_mul.mp member
      obtain ⟨opening, closing, rfl, opens, closes⟩ := exists_of_mem_brackets pair_mem
      obtain ⟨behind', later_eq⟩ := induction later_mem closing.span.stop
      refine ⟨behind', ?_⟩
      simp [Cursor.afterBrackets, opens, closes, later_eq]

/-- The tokens of a type are read as that type. -/
theorem typeRef?_of_mem {type : TypeRef} {tokens tail : List Token}
    (member : tokens ∈ type.spelling) (plain : AllPlain tail)
    (ends : ∀ token ∈ tail.head?, token.kind ∈ [.openParen, .closeParen, .word]) (behind : Nat) :
    ∃ found behind', typeRef? ⟨tokens ++ tail, behind⟩ = (some found, ⟨tail, behind'⟩) ∧
      found.text = type.text := by
  have all_plain := (TypeRef.bounded_of_mem_spelling tokens member).plain.append plain
  obtain ⟨first, more, pairs, words, text_eq, member⟩ := member
  obtain ⟨_, named_mem, brackets, brackets_mem, rfl⟩ := Language.mem_mul.mp member
  obtain ⟨_, first_mem, dotted, dotted_mem, rfl⟩ := Language.mem_mul.mp named_mem
  obtain ⟨span, rfl⟩ := Token.mem_spelled_singleton.mp first_mem
  have begins : Token.beginsType ⟨.word, first, span⟩ = true := by
    rcases words with identifiers | ⟨primitive, -⟩
    · simp [Token.beginsType, isReserved_eq_false (identifiers first (by simp))]
    · simp [Token.beginsType, primitive]
  have identifiers : ∀ word ∈ more, isIdentifier word := by
    rcases words with identifiers | ⟨-, rfl⟩
    · exact fun word member => identifiers word (by simp [member])
    · simp
  have brackets_end : ∀ token ∈ (brackets ++ tail).head?,
      token.kind ≠ .less ∧ token.kind ≠ .dot := by
    cases pairs with
    | zero =>
        obtain rfl : brackets = [] := brackets_mem
        intro token first_eq
        have kind_mem := ends token first_eq
        constructor <;> intro kind <;> simp [kind] at kind_mem
    | succ pairs =>
        rw [pow_succ'] at brackets_mem
        obtain ⟨_, pair_mem, later, -, rfl⟩ := Language.mem_mul.mp brackets_mem
        obtain ⟨opening, closing, rfl, opens, -⟩ := exists_of_mem_brackets pair_mem
        rintro _ ⟨rfl⟩
        simp [opens]
  obtain ⟨behind', rest_eq⟩ :=
    typeRest?_of_mem identifiers dotted_mem brackets_end first span.stop
  have tail_end : ∀ token ∈ tail.head?, token.kind ≠ .openBracket := by
    intro token first_eq bracket
    simpa [bracket] using ends token first_eq
  obtain ⟨behind'', brackets_eq⟩ := afterBrackets_of_mem brackets_mem tail_end behind'
  simp only [List.append_assoc, List.cons_append, List.nil_append] at all_plain ⊢
  refine ⟨⟨typeText first more pairs, Cursor.spanFrom ⟨tail, behind''⟩ span.start⟩, behind'', ?_,
    text_eq.symm⟩
  simp only [typeRef?_cons (all_plain ⟨.word, first, span⟩ (by simp)).atSign, begins, if_true,
    rest_eq, brackets_eq]
  rfl

/-! ## Selections -/

/-- A selection is read as an operand if its selector is read in one step. -/
theorem readsOperand_of_selector {expr receiver : Expr} {selector : Language Token}
    (spelling_eq : expr.spelling = receiver.spelling * selector) (reads : ReadsOperand receiver)
    (selects : ∀ tokens ∈ selector, ∀ n, tokens.length ≤ n → ∀ tail, Follows tail →
      Follows (tokens ++ tail) ∧ 0 < tokens.length ∧
      ∀ operand behind, operand.strip = receiver.strip → ∃ found behind',
        selectorWith (rules n) operand ⟨tokens ++ tail, behind⟩ = (some found, ⟨tail, behind'⟩) ∧
          found.strip = expr.strip) : ReadsOperand expr := by
  intro tokens member n fuel tail follows behind
  rw [spelling_eq] at member
  obtain ⟨first, first_mem, later, later_mem, rfl⟩ := member
  change (first ++ later).length ≤ n at fuel
  rw [List.length_append] at fuel
  obtain ⟨later_follows, positive, step⟩ := selects later later_mem n (by omega) tail follows
  obtain ⟨operand, behind', operand_strip, goes_on⟩ :=
    reads first first_mem n (by omega) _ later_follows behind
  obtain ⟨found, behind'', step_eq, strip_eq⟩ := step operand behind' operand_strip
  refine ⟨found, behind'', strip_eq, fun result after iterates => ?_⟩
  change operandWith (rules n) ⟨first ++ later ++ tail, behind⟩ = _
  rw [List.append_assoc]
  refine goes_on result after (.next step_eq ?_ iterates)
  simp only [List.length_append]
  omega

theorem follows_cons {token : Token} {tail : List Token} (plain : AllPlain tail)
    (kind : token.kind = .dot ∨ token.kind = .openBracket) : Follows (token :: tail) := by
  refine ⟨plain_cons plain (by rcases kind with kind | kind <;> simp [kind]), ?_⟩
  rintro _ ⟨rfl⟩
  rcases kind with kind | kind <;> simp [Token.endsOperand, kind, TokenKind.isLiteral]

theorem skipTypeArguments_of_not_isAt {cursor : Cursor} (other : cursor.isAt .less = false) :
    skipTypeArguments cursor = (false, cursor) := by
  simp [skipTypeArguments, other]

/-- What follows a dot and a word that is not reserved decides between a call and a field. -/
theorem selectorWith_dot {dot : Token} (dot_eq : dot.kind = .dot) {text : String}
    (free : isReserved text = false) (rules : Rules) (operand : Expr) (word : Span)
    (rest : List Token) (behind : Nat) :
    selectorWith rules operand ⟨dot :: ⟨.word, text, word⟩ :: rest, behind⟩ =
      (do
        if (← get).isAt .openParen then
          let arguments ← argumentsWith rules
          return some (.memberCall (← spanFrom operand.span.start) operand ⟨text, word⟩ arguments)
        return some (.fieldAccess (← spanFrom operand.span.start) operand ⟨text, word⟩) :
        Parser (Option Expr)) ⟨rest, word.stop⟩ := by
  have differs : ∀ word, isReserved word = true → text ≠ word :=
    fun _ => ne_of_not_isReserved free
  simp [selectorWith, selectionWith, dot_eq, skipTypeArguments_of_not_isAt,
    differs "new" (by decide), differs "class" (by decide)]

theorem readsOperand_fieldAccess {span : Span} {receiver : Expr} {field : Name}
    (reads : ReadsOperand receiver) (identifier : isIdentifier field.text = true) :
    ReadsOperand (.fieldAccess span receiver field) := by
  refine readsOperand_of_selector rfl reads fun tokens member n fuel tail follows => ?_
  obtain ⟨_, dot_mem, _, word_mem, rfl⟩ := Language.mem_mul.mp member
  obtain ⟨dot, rfl⟩ := Token.mem_spelled_singleton.mp dot_mem
  obtain ⟨word, rfl⟩ := Token.mem_spelled_singleton.mp word_mem
  refine ⟨follows_cons (plain_cons follows.plain (by simp)) (.inl rfl), by simp, ?_⟩
  intro operand behind strip_eq
  refine ⟨.fieldAccess (Cursor.spanFrom ⟨tail, word.stop⟩ operand.span.start) operand
    ⟨field.text, word⟩, word.stop, ?_, by simp [Expr.strip, strip_eq]⟩
  have is_dot : Token.kind ⟨.dot, ".", dot⟩ = .dot := rfl
  simp [selectorWith_dot is_dot (isReserved_eq_false identifier), follows.isAt_eq (.inl rfl)]

theorem readsOperand_memberCall {span : Span} {receiver : Expr} {method : Name}
    {arguments : List Expr} (reads : ReadsOperand receiver)
    (identifier : isIdentifier method.text = true) (all : ReadAll arguments) :
    ReadsOperand (.memberCall span receiver method arguments) := by
  refine readsOperand_of_selector rfl reads fun tokens member n fuel tail follows => ?_
  obtain ⟨_, named_mem, later, later_mem, rfl⟩ := Language.mem_mul.mp member
  obtain ⟨_, dot_mem, _, word_mem, rfl⟩ := Language.mem_mul.mp named_mem
  obtain ⟨dot, rfl⟩ := Token.mem_spelled_singleton.mp dot_mem
  obtain ⟨word, rfl⟩ := Token.mem_spelled_singleton.mp word_mem
  have later_plain := (bounded_of_mem_inParens (fun _ => all.plain) later later_mem).plain
  have later_fuel : later.length ≤ n := by
    simp only [List.length_append] at fuel
    omega
  refine ⟨follows_cons (plain_cons (later_plain.append follows.plain) (by simp)) (.inl rfl),
    by simp, ?_⟩
  intro operand behind strip_eq
  obtain ⟨opens, found, behind', read_eq, found_strip⟩ :=
    argumentsWith_of_mem all later_mem later_fuel follows.plain word.stop
  refine ⟨.memberCall (Cursor.spanFrom ⟨tail, behind'⟩ operand.span.start) operand
    ⟨method.text, word⟩ found, behind', ?_, by simp [Expr.strip, strip_eq, found_strip]⟩
  have is_dot : Token.kind ⟨.dot, ".", dot⟩ = .dot := rfl
  simp [selectorWith_dot is_dot (isReserved_eq_false identifier), opens, read_eq]

theorem readsOperand_arrayAccess {span : Span} {array index : Expr} (reads : ReadsOperand array)
    (index_reads : ReadsOperand index) (operands : ∀ tokens ∈ index.spelling, IsOperand tokens) :
    ReadsOperand (.arrayAccess span array index) := by
  refine readsOperand_of_selector rfl reads fun tokens member n fuel tail follows => ?_
  obtain ⟨_, open_mem, _, close_mem, rfl⟩ := Language.mem_mul.mp member
  obtain ⟨_, bracket_mem, middle, middle_mem, rfl⟩ := Language.mem_mul.mp open_mem
  obtain ⟨opening, rfl⟩ := Token.mem_spelled_singleton.mp bracket_mem
  obtain ⟨closing, rfl⟩ := Token.mem_spelled_singleton.mp close_mem
  have operand := operands middle middle_mem
  simp only [List.length_append, List.length_cons, List.length_nil] at fuel
  obtain ⟨n, rfl⟩ : ∃ m, n = m + 1 := ⟨n - 1, by omega⟩
  have closes : Closes (⟨.closeBracket, "]", closing⟩ :: tail) := by
    refine ⟨plain_cons follows.plain (by simp), ?_⟩
    rintro _ ⟨rfl⟩
    simp
  simp only [List.append_assoc, List.cons_append, List.nil_append]
  refine ⟨follows_cons (operand.plain.append closes.plain) (.inr rfl), by simp, ?_⟩
  intro found behind strip_eq
  have middle_fuel : middle.length ≤ n := by omega
  obtain ⟨position, behind', read_eq, position_strip⟩ :=
    index_reads.whole middle_mem operand middle_fuel closes opening.stop
  refine ⟨.arrayAccess (Cursor.spanFrom ⟨tail, closing.stop⟩ found.span.start) found position,
    closing.stop, ?_, by simp [Expr.strip, strip_eq, position_strip]⟩
  have index_eq : orMissing (rules (n + 1)).expr
      ⟨middle ++ ⟨.closeBracket, "]", closing⟩ :: tail, opening.stop⟩ = (position, _) :=
    orMissing_of_some read_eq
  have no_pair : Cursor.isAtBrackets
      ⟨⟨.openBracket, "[", opening⟩ :: (middle ++ ⟨.closeBracket, "]", closing⟩ :: tail),
        behind⟩ = false := by
    have begins := (isAt_eq_false_of_leads operand.leads .closeBracket (by decide)
      (⟨.closeBracket, "]", closing⟩ :: tail) behind).1
    simp [Cursor.isAtBrackets, Cursor.isAhead_zero_singleton, begins]
  simp [selectorWith, indexWith, no_pair, index_eq, accept_apply]

theorem readsOperand_call {span : Span} {method : Name} {arguments : List Expr}
    (named : isIdentifier method.text ∨ method.text = "this" ∨ method.text = "super")
    (all : ReadAll arguments) : ReadsOperand (.call span method arguments) := by
  intro tokens member n fuel tail follows behind
  obtain ⟨_, word_mem, later, later_mem, rfl⟩ := Language.mem_mul.mp member
  obtain ⟨word, rfl⟩ := Token.mem_spelled_singleton.mp word_mem
  have later_fuel : later.length ≤ n := by
    simp only [List.length_append] at fuel
    omega
  obtain ⟨opens, found, behind', read_eq, found_strip⟩ :=
    argumentsWith_of_mem all later_mem later_fuel follows.plain word.stop
  refine ⟨.call (Cursor.spanFrom ⟨tail, behind'⟩ word.start) ⟨method.text, word⟩ found, behind',
    by simp [Expr.strip, found_strip], fun result after selects => operandWith_eq ?_ selects⟩
  rcases named with identifier | this_eq | super_eq
  · simp [primaryWith, wordWith_of_not_isReserved (isReserved_eq_false identifier), opens, read_eq]
  · simp [primaryWith, wordWith, this_eq, opens, read_eq]
  · simp [primaryWith, wordWith, super_eq, opens, read_eq]

/-- A type begins with a word. -/
theorem exists_cons_of_mem_spelling {type : TypeRef} {tokens : List Token}
    (member : tokens ∈ type.spelling) : ∃ text span more, tokens = ⟨.word, text, span⟩ :: more ∧
      (isReserved text = false ∨ isPrimitive text = true) := by
  obtain ⟨first, words, pairs, named, -, member⟩ := member
  obtain ⟨_, named_mem, brackets, -, rfl⟩ := Language.mem_mul.mp member
  obtain ⟨_, first_mem, dotted, -, rfl⟩ := Language.mem_mul.mp named_mem
  obtain ⟨span, rfl⟩ := Token.mem_spelled_singleton.mp first_mem
  refine ⟨first, span, dotted ++ brackets, by simp, ?_⟩
  rcases named with identifiers | ⟨primitive, -⟩
  · exact .inl (isReserved_eq_false (identifiers first (by simp)))
  · exact .inr primitive

theorem typeRef_of_mem {type : TypeRef} {tokens tail : List Token}
    (member : tokens ∈ type.spelling) (plain : AllPlain tail)
    (ends : ∀ token ∈ tail.head?, token.kind ∈ [.openParen, .closeParen, .word]) (behind : Nat) :
    ∃ found behind', typeRef ⟨tokens ++ tail, behind⟩ = (found, ⟨tail, behind'⟩) ∧
      found.text = type.text := by
  obtain ⟨found, behind', read_eq, text_eq⟩ := typeRef?_of_mem member plain ends behind
  exact ⟨found, behind', by simp [typeRef, read_eq], text_eq⟩

/-- An allocation is read from the word `new` on. -/
theorem creationWith_of_mem {type : TypeRef} {arguments : List Expr} (all : ReadAll arguments)
    {tokens tail : List Token} {n : Nat} (span : Span)
    (member : tokens ∈ type.spelling * inParens (withCommas (Expr.spellings arguments)))
    (fuel : tokens.length ≤ n) (follows : Follows tail) (outer : Option Expr) (start behind : Nat) :
    ∃ found args behind',
      creationWith (rules n) outer start ⟨⟨.word, "new", span⟩ :: (tokens ++ tail), behind⟩ =
        (match outer with
          | none => .creation (Cursor.spanFrom ⟨tail, behind'⟩ start) found args none
          | some outer =>
            .innerCreation (Cursor.spanFrom ⟨tail, behind'⟩ start) outer found args none,
          ⟨tail, behind'⟩) ∧
      found.text = type.text ∧ Expr.stripAll args = Expr.stripAll arguments := by
  obtain ⟨front, front_mem, later, later_mem, rfl⟩ := Language.mem_mul.mp member
  have later_plain := (bounded_of_mem_inParens (fun _ => all.plain) later later_mem).plain
  have later_fuel : later.length ≤ n := by
    rw [List.length_append] at fuel
    omega
  have ends : ∀ token ∈ (later ++ tail).head?, token.kind ∈ [.openParen, .closeParen, .word] := by
    obtain ⟨span, middle, span', -, rfl⟩ := mem_inParens.mp later_mem
    rintro _ ⟨rfl⟩
    simp
  obtain ⟨found, behind', type_eq, text_eq⟩ :=
    typeRef_of_mem front_mem (later_plain.append follows.plain) ends span.stop
  obtain ⟨opens, args, behind'', args_eq, args_strip⟩ :=
    argumentsWith_of_mem all later_mem later_fuel follows.plain behind'
  refine ⟨found, args, behind'', ?_, text_eq, args_strip⟩
  have no_arguments : Cursor.isAt ⟨front ++ (later ++ tail), span.stop⟩ .less = false := by
    obtain ⟨text, span', more, rfl, -⟩ := exists_cons_of_mem_spelling front_mem
    rfl
  have no_bracket := Cursor.isAt_eq_false_of_isAt opens .openBracket (by decide)
  have no_brace := Cursor.isAt_eq_false_of_isAt opens .openBrace (by decide)
  have no_body := follows.isAt_eq (.inr rfl) behind''
  cases outer <;>
    simp [creationWith, acceptWord_apply, Token.isWord, skipTypeArguments_of_not_isAt,
      no_arguments, type_eq, no_bracket, no_brace, opens, args_eq, no_body]

theorem readsOperand_creation {span : Span} {type : TypeRef} {arguments : List Expr}
    (all : ReadAll arguments) : ReadsOperand (.creation span type arguments none) := by
  intro tokens member n fuel tail follows behind
  rw [Expr.spelling, mul_assoc] at member
  obtain ⟨_, word_mem, later, later_mem, rfl⟩ := Language.mem_mul.mp member
  obtain ⟨word, rfl⟩ := Token.mem_spelled_singleton.mp word_mem
  have later_fuel : later.length ≤ n := by
    rw [List.length_append] at fuel
    omega
  obtain ⟨found, args, behind', read_eq, text_eq, args_strip⟩ :=
    creationWith_of_mem all word later_mem later_fuel follows none word.start behind
  refine ⟨.creation (Cursor.spanFrom ⟨tail, behind'⟩ word.start) found args none, behind',
    by simp [Expr.strip, text_eq, args_strip], fun result after selects =>
      operandWith_eq ?_ selects⟩
  simp [primaryWith, wordWith, read_eq]

theorem readsOperand_innerCreation {span : Span} {outer : Expr} {type : TypeRef}
    {arguments : List Expr} (reads : ReadsOperand outer) (all : ReadAll arguments) :
    ReadsOperand (.innerCreation span outer type arguments none) := by
  refine readsOperand_of_selector rfl reads fun tokens member n fuel tail follows => ?_
  rw [mul_assoc] at member
  obtain ⟨_, dotted_mem, later, later_mem, rfl⟩ := Language.mem_mul.mp member
  obtain ⟨_, dot_mem, _, word_mem, rfl⟩ := Language.mem_mul.mp dotted_mem
  obtain ⟨dot, rfl⟩ := Token.mem_spelled_singleton.mp dot_mem
  obtain ⟨word, rfl⟩ := Token.mem_spelled_singleton.mp word_mem
  have later_plain : AllPlain later := (forall_mem_mul .append TypeRef.bounded_of_mem_spelling
    (bounded_of_mem_inParens fun _ => all.plain) later later_mem).plain
  have later_fuel : later.length ≤ n := by
    rw [List.length_append] at fuel
    omega
  refine ⟨follows_cons (plain_cons (later_plain.append follows.plain) (by simp)) (.inl rfl),
    by simp, ?_⟩
  intro operand behind strip_eq
  obtain ⟨found, args, behind', read_eq, text_eq, args_strip⟩ :=
    creationWith_of_mem all word later_mem later_fuel follows (some operand) operand.span.start
      dot.stop
  refine ⟨.innerCreation (Cursor.spanFrom ⟨tail, behind'⟩ operand.span.start) operand found args
    none, behind', ?_, by simp [Expr.strip, strip_eq, text_eq, args_strip]⟩
  simp [selectorWith, selectionWith, skipTypeArguments_of_not_isAt, read_eq]

end Parser

end JavaOutline
