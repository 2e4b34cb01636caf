import JavaOutline.Proofs.Reading.Rendered

/-!
# Reading rendered operations

An operation is rendered in parentheses, with its operators between its operands. Each operand is
read up to the operator behind it, which begins no selection, and the last one up to the closing
parenthesis.
-/

namespace JavaOutline

open Token (AllPlain IsOperand Bounded Leads Lexeme spelled)

namespace Parser


theorem UnaryOp.exists_of_mem {op : UnaryOp} {tokens : List Token}
    (member : tokens ∈ spelled op.lexemes) : ∃ token, tokens = [token] ∧
      ∀ rest behind, Cursor.unaryOp? ⟨token :: rest, behind⟩ = some op := by
  cases op <;>
    · obtain ⟨span, rfl⟩ := Token.mem_spelled_singleton.mp member
      exact ⟨_, rfl, fun _ _ => rfl⟩

theorem UpdateOp.exists_of_mem {op : UpdateOp} {tokens : List Token}
    (member : tokens ∈ spelled op.lexemes) : ∃ token, tokens = [token] ∧
      token.endsOperand = true ∧ ∀ rules operand rest behind,
        selectorWith rules operand ⟨token :: rest, behind⟩ =
          (some (.update (Cursor.spanFrom ⟨rest, token.span.stop⟩ operand.span.start) op operand),
            ⟨rest, token.span.stop⟩) := by
  cases op <;>
    · obtain ⟨span, rfl⟩ := Token.mem_spelled_singleton.mp member
      exact ⟨_, rfl, rfl, fun _ _ _ _ => rfl⟩

/-- What is read in a group as operands with operators before and after them is read as a whole. -/
theorem ReadsExpr.closed {expr : Expr} {tokens tail : List Token} {n : Nat}
    (reads : ReadsExpr (unaryWith (rules n)) expr tokens tail) (plain : AllPlain tokens)
    (closed : Closed tail) : ReadsExpr (exprWith (rules n)) expr tokens tail :=
  ((reads.binary closed.closes.stopsOperation 0).conditional closed.closes.isAt_question).whole
    plain closed.closes

theorem readsOperand_unary {span : Span} {op : UnaryOp} {operand : Expr}
    (reads : ReadsOperand operand) (operands : ∀ tokens ∈ operand.spelling, IsOperand tokens) :
    ReadsOperand (.unary span op operand) := by
  refine readsOperand_of_group rfl fun tokens member n fuel tail closed => ?_
  obtain ⟨_, op_mem, middle, middle_mem, rfl⟩ := Language.mem_mul.mp member
  have plain := (regular_of_mem_spelled op.isOperator_lexemes _ op_mem).plain.append
    (operands middle middle_mem).plain
  obtain ⟨symbol, rfl, op_eq⟩ := UnaryOp.exists_of_mem op_mem
  simp only [List.length_append, List.length_cons, List.length_nil] at fuel
  obtain ⟨n, rfl⟩ : ∃ m, n = m + 1 := ⟨n - 1, by omega⟩
  have middle_fuel : middle.length ≤ n := by omega
  refine ReadsExpr.closed (fun behind => ?_) plain closed
  obtain ⟨found, behind', read_eq, strip_eq⟩ := reads.unary middle_mem (operands middle middle_mem)
    middle_fuel closed.closes.follows closed.closes.stopsSelection symbol.span.stop
  refine ⟨.unary (Cursor.spanFrom ⟨tail, behind'⟩ symbol.span.start) op found, behind', ?_,
    by simp [Expr.strip, strip_eq]⟩
  have operand_eq : orMissing (rules (n + 1)).unary ⟨middle ++ tail, symbol.span.stop⟩ =
      (found, _) := orMissing_of_some read_eq
  simp [unaryWith, op_eq, operand_eq]

theorem readsOperand_update {span : Span} {op : UpdateOp} {operand : Expr}
    (reads : ReadsOperand operand) (operands : ∀ tokens ∈ operand.spelling, IsOperand tokens) :
    ReadsOperand (.update span op operand) := by
  refine readsOperand_of_group rfl fun tokens member n fuel tail closed => ?_
  obtain ⟨front, front_mem, _, op_mem, rfl⟩ := Language.mem_mul.mp member
  have op_plain := (regular_of_mem_spelled op.isOperator_lexemes _ op_mem).plain
  have operand := operands front front_mem
  obtain ⟨symbol, rfl, ends, step⟩ := UpdateOp.exists_of_mem op_mem
  have front_fuel : front.length ≤ n := by
    rw [List.length_append] at fuel
    omega
  have follows : Follows (symbol :: tail) := by
    refine ⟨op_plain.append closed.plain, ?_⟩
    rintro _ ⟨rfl⟩
    exact ends
  refine ReadsExpr.closed (fun behind => ?_) (operand.plain.append op_plain) closed
  obtain ⟨found, behind', strip_eq, goes_on⟩ :=
    reads front front_mem n front_fuel _ follows behind
  refine ⟨.update (Cursor.spanFrom ⟨tail, symbol.span.stop⟩ found.span.start) op found,
    symbol.span.stop, ?_, by simp [Expr.strip, strip_eq]⟩
  rw [List.append_assoc, List.singleton_append,
    unaryWith_of_leads operand.leads operand.plain follows]
  exact goes_on _ _ (.next (step _ _ _ _) (by simp)
    (.stop (closed.closes.stopsSelection n _ symbol.span.stop)))

theorem mem_spelled_pair {first second : Lexeme} {tokens : List Token}
    (member : tokens ∈ spelled [first, second]) :
    ∃ span span', tokens = [⟨first.1, first.2, span⟩, ⟨second.1, second.2, span'⟩] ∧
      span.stop = span'.start := by
  obtain ⟨lexemes_eq, touching⟩ := member
  obtain ⟨token, _, rfl, rfl, more_eq⟩ := List.map_eq_cons_iff.mp lexemes_eq
  obtain ⟨following, rfl, rfl⟩ := List.map_eq_singleton_iff.mp more_eq
  cases touching with
  | cons_cons touch _ => exact ⟨token.span, following.span, rfl, touch⟩

theorem mem_spelled_triple {first second third : Lexeme} {tokens : List Token}
    (member : tokens ∈ spelled [first, second, third]) :
    ∃ span span' span'', tokens = [⟨first.1, first.2, span⟩, ⟨second.1, second.2, span'⟩,
      ⟨third.1, third.2, span''⟩] ∧ span.stop = span'.start ∧ span'.stop = span''.start := by
  obtain ⟨lexemes_eq, touching⟩ := member
  obtain ⟨token, more, rfl, rfl, more_eq⟩ := List.map_eq_cons_iff.mp lexemes_eq
  cases touching with
  | singleton => cases more_eq
  | cons_cons touch touching =>
      obtain ⟨span', span'', pair_eq, touch'⟩ := mem_spelled_pair ⟨more_eq, touching⟩
      obtain ⟨rfl, rfl⟩ := List.cons.inj pair_eq
      exact ⟨token.span, span', span'', rfl, touch, touch'⟩

theorem stopsSelection_cons {token : Token} (rest : List Token)
    (kind : token.kind ∉ [.dot, .openBracket, .doubleColon, .less, .increment, .decrement]) :
    StopsSelection (token :: rest) := by
  intro n operand behind
  simp only [List.mem_cons, List.not_mem_nil, or_false, not_or] at kind
  have no_update : Cursor.updateOp? ⟨token :: rest, behind⟩ = none := by
    simp only [Cursor.updateOp?, Cursor.kindAhead?_zero_cons]
    split <;> simp_all
  simp only [selectorWith, bind_apply, get_apply, Cursor.kindAhead?_zero_cons, no_update]
  split <;> simp_all

/-- Type arguments are looked for in vain after `<`, if they are not closed or no method reference
follows them. -/
theorem stopsSelection_less {span : Span} {rest : List Token}
    (in_vain : ∀ after, Cursor.afterTypeArguments? 1 span.stop rest = some after →
      after.isAt .doubleColon = false) : StopsSelection (⟨.less, "<", span⟩ :: rest) := by
  intro n operand behind
  have no_reference :
      (skipTypeArguments ⟨⟨.less, "<", span⟩ :: rest, behind⟩).2.isAt .doubleColon = false := by
    simp only [skipTypeArguments, Cursor.isAt_cons, decide_true, if_true, Cursor.tail_cons]
    split
    · next found => exact in_vain _ found
    · simp
  simp only [selectorWith, bind_apply, get_apply, Cursor.kindAhead?_zero_cons]
  split_ifs <;> simp [no_reference]

/-- A binary operator in front of an operand is recognised. -/
theorem BinaryOp.recognised {op : BinaryOp} {tokens rest : List Token}
    (member : tokens ∈ spelled op.lexemes)
    (begins : ∀ token ∈ rest.head?, token.kind ≠ .greater ∧ token.kind ≠ .greaterEqual) :
    (∃ token more, tokens = token :: more ∧ token.endsOperand = true ∧ token.kind ≠ .word) ∧
      (op ≠ .less → StopsSelection (tokens ++ rest)) ∧
      ∀ behind, Cursor.binaryOp? ⟨tokens ++ rest, behind⟩ = some (op, tokens.length) := by
  cases op with
  | less =>
      obtain ⟨span, rfl⟩ := Token.mem_spelled_singleton.mp member
      exact ⟨⟨_, _, rfl, rfl, by simp⟩, fun differs => absurd rfl differs, fun _ => rfl⟩
  | greater =>
      obtain ⟨span, rfl⟩ := Token.mem_spelled_singleton.mp member
      refine ⟨⟨_, _, rfl, rfl, by simp⟩, fun _ => stopsSelection_cons _ (by simp), fun behind => ?_⟩
      cases rest with
      | nil => rfl
      | cons token rest =>
          have kind := begins token rfl
          simp [Cursor.binaryOp?, Cursor.kindAhead?, Cursor.ahead?]
          split <;> simp_all
  | shiftRight =>
      obtain ⟨span, span', rfl, touch⟩ := mem_spelled_pair member
      refine ⟨⟨_, _, rfl, rfl, by simp⟩, fun _ => stopsSelection_cons _ (by simp), fun behind => ?_⟩
      cases rest with
      | nil => simp [Cursor.binaryOp?, Cursor.touches, Cursor.kindAhead?, Cursor.ahead?, touch]
      | cons token rest =>
          have kind := begins token rfl
          simp [Cursor.binaryOp?, Cursor.touches, Cursor.kindAhead?, Cursor.ahead?, touch]
          split <;> simp_all
  | shiftRightZero =>
      obtain ⟨span, span', span'', rfl, touch, touch'⟩ := mem_spelled_triple member
      refine ⟨⟨_, _, rfl, rfl, by simp⟩, fun _ => stopsSelection_cons _ (by simp), fun behind => ?_⟩
      simp [Cursor.binaryOp?, Cursor.touches, Cursor.ahead?, Cursor.kindAhead?, touch, touch']
  | _ =>
      obtain ⟨span, rfl⟩ := Token.mem_spelled_singleton.mp member
      exact ⟨⟨_, _, rfl, rfl, by simp⟩, fun _ => stopsSelection_cons _ (by simp), fun _ => rfl⟩

/-- A binary operator between two operands is recognised, and nothing is selected from the left
one before. -/
theorem BinaryOp.of_mem {op : BinaryOp} {tokens rest : List Token}
    (member : tokens ∈ spelled op.lexemes)
    (begins : ∀ token ∈ rest.head?, token.kind ≠ .greater ∧ token.kind ≠ .greaterEqual)
    (in_vain : ∀ behind after, Cursor.afterTypeArguments? 1 behind rest = some after →
      after.isAt .doubleColon = false) :
    (∃ token more, tokens = token :: more ∧ token.endsOperand = true ∧ token.kind ≠ .word) ∧
      StopsSelection (tokens ++ rest) ∧
      ∀ behind, Cursor.binaryOp? ⟨tokens ++ rest, behind⟩ = some (op, tokens.length) := by
  obtain ⟨first, stops, op_eq⟩ := recognised member begins
  refine ⟨first, ?_, op_eq⟩
  by_cases is_less : op = .less
  · subst is_less
    obtain ⟨span, rfl⟩ := Token.mem_spelled_singleton.mp member
    exact stopsSelection_less (in_vain span.stop)
  · exact stops is_less

/-- Type arguments do not run past the end of a group. -/
theorem afterTypeArguments?_of_closed {tokens tail : List Token} (bounded : Bounded tokens)
    (closed : Closed tail) (behind : Nat) :
    Cursor.afterTypeArguments? 1 behind (tokens ++ tail) = none := by
  rcases bounded.bound with arguments | ⟨front, stop, rest, rfl, arguments, blocks⟩
  · obtain ⟨span, more, rfl⟩ := closed.closed
    exact Cursor.afterTypeArguments?_eq_none arguments ⟨rfl, by simp, by simp⟩ 0 behind
  · rw [List.append_assoc, List.cons_append]
    exact Cursor.afterTypeArguments?_eq_none arguments blocks 0 behind

theorem kind_ne_of_leads {tokens : List Token} (leads : Leads tokens) (tail : List Token) :
    ∀ token ∈ (tokens ++ tail).head?, token.kind ≠ .greater ∧ token.kind ≠ .greaterEqual := by
  intro token first_eq
  have no_greater := (isAt_eq_false_of_leads leads .greater (by decide) tail 0).1
  have no_equal := (isAt_eq_false_of_leads leads .greaterEqual (by decide) tail 0).1
  simp only [Cursor.isAt, Option.mem_def.mp first_eq, Option.any_some,
    decide_eq_false_iff_not] at no_greater no_equal
  exact ⟨no_greater, no_equal⟩

/-- What is read of a left operand and one operator step that reaches the end of its group. -/
theorem readsExpr_of_step {expr left : Expr} {tokens rest tail : List Token} {n : Nat}
    (reads : ReadsExpr (unaryWith (rules n)) left tokens (rest ++ tail))
    (nonempty : 0 < rest.length)
    (step : ∀ found behind, found.strip = left.strip → ∃ result behind',
      binaryStepWith (rules n) 0 found ⟨rest ++ tail, behind⟩ = (some result, ⟨tail, behind'⟩) ∧
        result.strip = expr.strip)
    (plain : AllPlain (tokens ++ rest)) (closed : Closed tail) :
    ReadsExpr (exprWith (rules n)) expr (tokens ++ rest) tail := by
  refine ReadsExpr.whole (ReadsExpr.conditional (fun behind => ?_) closed.closes.isAt_question)
    plain closed.closes
  obtain ⟨found, behind', read_eq, strip_eq⟩ := reads behind
  obtain ⟨result, behind'', step_eq, result_strip⟩ := step found behind' strip_eq
  refine ⟨result, behind'', ?_, result_strip⟩
  have iterates := (Iterates.next step_eq (by simp only [List.length_append]; omega)
    (.stop (closed.closes.stopsOperation n 0 result behind''))).iterate_eq
  rw [List.append_assoc]
  simp [binaryWith, read_eq, iterates]

section

variable {left right : Expr} {span : Span}

theorem readsOperand_binary {op : BinaryOp} (left_reads : ReadsOperand left)
    (left_operands : ∀ tokens ∈ left.spelling, IsOperand tokens) (right_reads : ReadsOperand right)
    (right_operands : ∀ tokens ∈ right.spelling, IsOperand tokens) :
    ReadsOperand (.binary span op left right) := by
  refine readsOperand_of_group rfl fun tokens member n fuel tail closed => ?_
  rw [mul_assoc] at member
  obtain ⟨front, front_mem, _, later_mem, rfl⟩ := Language.mem_mul.mp member
  obtain ⟨symbol, op_mem, back, back_mem, rfl⟩ := Language.mem_mul.mp later_mem
  have front_operand := left_operands front front_mem
  have back_operand := right_operands back back_mem
  have op_plain := (regular_of_mem_spelled op.isOperator_lexemes _ op_mem).plain
  obtain ⟨⟨first, more, first_eq, ends, no_word⟩, stops, op_eq⟩ := BinaryOp.of_mem op_mem
    (kind_ne_of_leads back_operand.leads tail)
    (fun behind after found => by
      rw [afterTypeArguments?_of_closed back_operand.toBounded closed] at found
      cases found)
  have positive : 0 < symbol.length := by simp [first_eq]
  simp only [List.length_append] at fuel
  obtain ⟨n, rfl⟩ : ∃ m, n = m + 1 := ⟨n - 1, by omega⟩
  have front_fuel : front.length ≤ n + 1 := by omega
  have back_fuel : back.length ≤ n := by omega
  have later_plain := op_plain.append back_operand.plain
  have follows : Follows (symbol ++ back ++ tail) := by
    refine ⟨later_plain.append closed.plain, ?_⟩
    rw [first_eq]
    rintro _ ⟨rfl⟩
    exact ends
  rw [← List.append_assoc] at stops
  refine readsExpr_of_step (left_reads.unary front_mem front_operand front_fuel follows stops)
    (by simp only [List.length_append]; omega) ?_ (front_operand.plain.append later_plain) closed
  intro found behind strip_eq
  obtain ⟨behind', advance_eq⟩ := advance_append symbol (back ++ tail) behind
  obtain ⟨other, behind'', read_eq, other_strip⟩ :=
    (right_reads.unary back_mem back_operand back_fuel closed.closes.follows
      closed.closes.stopsSelection).binary closed.closes.stopsOperation (op.precedence + 1) behind'
  refine ⟨.binary (Cursor.spanFrom ⟨tail, behind''⟩ found.span.start) op found other, behind'', ?_,
    by simp [Expr.strip, strip_eq, other_strip]⟩
  have other_eq : orMissing ((rules (n + 1)).binary (op.precedence + 1)) ⟨back ++ tail, behind'⟩ =
      (other, _) := orMissing_of_some read_eq
  have no_test : Cursor.isAtWord ⟨symbol ++ (back ++ tail), behind⟩ "instanceof" = false := by
    simp [first_eq, Token.isWord, no_word]
  rw [List.append_assoc]
  simp [binaryStepWith, no_test, op_eq, advance_eq, other_eq]

/-- A type test is read up to the name it binds. -/
theorem binaryStepWith_instanceOf {type : TypeRef} {named rest : List Token}
    (member : named ∈ type.spelling) (plain : AllPlain rest)
    (ends : ∀ token ∈ rest.head?, token.kind = .closeParen ∨ token.kind = .word) (word : Span)
    (rules : Rules) (behind : Nat) :
    ∃ target behind', target.text = type.text ∧ ∀ found : Expr,
      binaryStepWith rules 0 found ⟨⟨.word, "instanceof", word⟩ :: (named ++ rest), behind⟩ =
        (do
          let binding ← if (← get).isAtIdentifier then next? else pure none
          return some (.instanceOf (← spanFrom found.span.start) found target
            (binding.map (·.text))) : Parser (Option Expr)) ⟨rest, behind'⟩ := by
  have type_ends : ∀ token ∈ rest.head?, token.kind ∈ [.openParen, .closeParen, .word] := by
    intro token first_eq
    rcases ends token first_eq with kind | kind <;> simp [kind]
  obtain ⟨target, behind', type_eq, text_eq⟩ := typeRef_of_mem member plain type_ends word.stop
  refine ⟨target, behind', text_eq, fun found => ?_⟩
  have no_final : Cursor.isAtWord ⟨named ++ rest, word.stop⟩ "final" = false := by
    obtain ⟨text, span, more, rfl, begins⟩ := exists_cons_of_mem_spelling member
    have differs : text ≠ "final" := by
      rintro rfl
      exact absurd begins (by decide)
    simp [Token.isWord, differs]
  have no_parens : skipParens ⟨rest, behind'⟩ = ((), ⟨rest, behind'⟩) := by
    cases rest with
    | nil => rfl
    | cons token rest =>
        have kind : token.kind ≠ .openParen := by
          rcases ends token rfl with kind | kind <;> simp [kind]
        simp [skipParens, skipBalanced, kind]
  simp [binaryStepWith, Token.isWord, acceptWord_apply, no_final, type_eq, no_parens]

theorem readsOperand_instanceOf {type : TypeRef} {binding : Option String}
    (reads : ReadsOperand left) (operands : ∀ tokens ∈ left.spelling, IsOperand tokens)
    (identifier : ∀ name ∈ binding, isIdentifier name = true) :
    ReadsOperand (.instanceOf span left type binding) := by
  refine readsOperand_of_group rfl fun tokens member n fuel tail closed => ?_
  rw [mul_assoc, mul_assoc] at member
  obtain ⟨front, front_mem, _, later_mem, rfl⟩ := Language.mem_mul.mp member
  obtain ⟨_, word_mem, _, tested_mem, rfl⟩ := Language.mem_mul.mp later_mem
  obtain ⟨named, type_mem, bound, bound_mem, rfl⟩ := Language.mem_mul.mp tested_mem
  obtain ⟨word, rfl⟩ := Token.mem_spelled_singleton.mp word_mem
  have operand := operands front front_mem
  have bound_plain : AllPlain bound := by
    cases binding with
    | none =>
        obtain rfl : bound = [] := bound_mem
        simp [AllPlain]
    | some name => exact (bounded_of_mem_word name bound bound_mem).plain
  have later_plain : AllPlain ([⟨.word, "instanceof", word⟩] ++ (named ++ bound)) :=
    plain_cons ((TypeRef.bounded_of_mem_spelling named type_mem).plain.append bound_plain) (by simp)
  have front_fuel : front.length ≤ n := by
    rw [List.length_append] at fuel
    omega
  have follows : Follows ([⟨.word, "instanceof", word⟩] ++ (named ++ bound) ++ tail) := by
    refine ⟨later_plain.append closed.plain, ?_⟩
    rintro _ ⟨rfl⟩
    rfl
  refine readsExpr_of_step (reads.unary front_mem operand front_fuel follows
    (stopsSelection_cons _ (by simp))) (by simp) ?_ (operand.plain.append later_plain) closed
  intro found behind strip_eq
  have bound_ends : ∀ token ∈ (bound ++ tail).head?,
      token.kind = .closeParen ∨ token.kind = .word := by
    cases binding with
    | none =>
        obtain rfl : bound = [] := bound_mem
        obtain ⟨span, more, rfl⟩ := closed.closed
        rintro _ ⟨rfl⟩
        exact .inl rfl
    | some name =>
        obtain ⟨span, rfl⟩ := Token.mem_spelled_singleton.mp bound_mem
        rintro _ ⟨rfl⟩
        exact .inr rfl
  obtain ⟨target, behind', text_eq, step_eq⟩ := binaryStepWith_instanceOf type_mem
    (bound_plain.append closed.plain) bound_ends word (rules n) behind
  rw [List.append_assoc, List.append_assoc, List.singleton_append, step_eq]
  cases binding with
  | none =>
      obtain rfl : bound = [] := bound_mem
      obtain ⟨close, more, rfl⟩ := closed.closed
      exact ⟨_, behind', rfl, by simp [Expr.strip, strip_eq, text_eq]⟩
  | some name =>
      obtain ⟨binder, rfl⟩ := Token.mem_spelled_singleton.mp bound_mem
      have free := isReserved_eq_false (identifier name rfl)
      refine ⟨.instanceOf (Cursor.spanFrom ⟨tail, binder.stop⟩ found.span.start) found target
        (some name), binder.stop, ?_, by simp [Expr.strip, strip_eq, text_eq]⟩
      simp [free]

/-- An assignment between two operands is recognised, and nothing is read on from the left one
before. -/
theorem AssignOp.of_mem {op : AssignOp} {tokens rest : List Token}
    (member : tokens ∈ spelled op.lexemes) :
    (∃ token more, tokens = token :: more ∧ token.endsOperand = true ∧ token.kind ≠ .question) ∧
      StopsSelection (tokens ++ rest) ∧ StopsOperation (tokens ++ rest) ∧
      ∀ behind, Cursor.assignOp? ⟨tokens ++ rest, behind⟩ = some (op, tokens.length) := by
  cases op with
  | shiftRight =>
      obtain ⟨span, span', rfl, touch⟩ := mem_spelled_pair member
      refine ⟨⟨_, _, rfl, rfl, by simp⟩, stopsSelection_cons _ (by simp), ?_, ?_⟩
      · intro n least left behind
        simp [binaryStepWith, Token.isWord, Cursor.binaryOp?, Cursor.touches, Cursor.kindAhead?,
          Cursor.ahead?, touch]
      · intro behind
        simp [Cursor.assignOp?, Cursor.isAhead, Cursor.touches, Cursor.kindAhead?, Cursor.ahead?,
          touch]
  | shiftRightZero =>
      obtain ⟨span, span', span'', rfl, touch, touch'⟩ := mem_spelled_triple member
      refine ⟨⟨_, _, rfl, rfl, by simp⟩, stopsSelection_cons _ (by simp), ?_, ?_⟩
      · intro n least left behind
        simp [binaryStepWith, Token.isWord, Cursor.binaryOp?, Cursor.touches, Cursor.kindAhead?,
          Cursor.ahead?, touch, touch']
      · intro behind
        simp [Cursor.assignOp?, Cursor.isAhead, Cursor.touches, Cursor.kindAhead?, Cursor.ahead?,
          touch, touch']
  | _ =>
      obtain ⟨span, rfl⟩ := Token.mem_spelled_singleton.mp member
      exact ⟨⟨_, _, rfl, rfl, by simp⟩, stopsSelection_cons _ (by simp), fun _ _ _ _ => rfl,
        fun _ => rfl⟩

/-- An assignment between two operands is read as an expression, whatever closes it. -/
theorem readsExpr_assignment {op : AssignOp} (left_reads : ReadsOperand left)
    (left_operands : ∀ tokens ∈ left.spelling, IsOperand tokens) (right_reads : ReadsOperand right)
    (right_operands : ∀ tokens ∈ right.spelling, IsOperand tokens) {tokens tail : List Token}
    (member : tokens ∈ left.spelling * spelled op.lexemes * right.spelling) {n : Nat}
    (fuel : tokens.length ≤ n) (closes : Closes tail) :
    ReadsExpr (exprWith (rules n)) (.assignment span op left right) tokens tail := by
  rw [mul_assoc] at member
  obtain ⟨front, front_mem, _, later_mem, rfl⟩ := Language.mem_mul.mp member
  obtain ⟨symbol, op_mem, back, back_mem, rfl⟩ := Language.mem_mul.mp later_mem
  have front_operand := left_operands front front_mem
  have back_operand := right_operands back back_mem
  have op_plain := (regular_of_mem_spelled op.isOperator_lexemes _ op_mem).plain
  have recognised : (∃ token more, symbol = token :: more ∧ token.endsOperand = true ∧
      token.kind ≠ .question) ∧
      StopsSelection (symbol ++ (back ++ tail)) ∧ StopsOperation (symbol ++ (back ++ tail)) ∧
      ∀ behind, Cursor.assignOp? ⟨symbol ++ (back ++ tail), behind⟩ = some (op, symbol.length) :=
    AssignOp.of_mem op_mem
  obtain ⟨⟨first, more, first_eq, ends, no_question⟩, stops, stops', op_eq⟩ := recognised
  have positive : 0 < symbol.length := by simp [first_eq]
  simp only [List.length_append] at fuel
  obtain ⟨n, rfl⟩ : ∃ m, n = m + 1 := ⟨n - 1, by omega⟩
  have front_fuel : front.length ≤ n + 1 := by omega
  have back_fuel : back.length ≤ n := by omega
  have later_plain := op_plain.append (back_operand.plain.append closes.plain)
  have follows : Follows (symbol ++ (back ++ tail)) := by
    refine ⟨later_plain, ?_⟩
    rw [first_eq]
    rintro _ ⟨rfl⟩
    exact ends
  intro behind
  obtain ⟨target, behind', target_eq, target_strip⟩ :=
    ((left_reads.unary front_mem front_operand front_fuel follows stops).binary stops'
      0).conditional (fun _ => by simp [first_eq, no_question]) behind
  obtain ⟨middle, advance_eq⟩ := advance_append symbol (back ++ tail) behind'
  obtain ⟨value, behind'', value_eq, value_strip⟩ :=
    right_reads.whole back_mem back_operand back_fuel closes middle
  refine ⟨.assignment (Cursor.spanFrom ⟨tail, behind''⟩ target.span.start) op target value,
    behind'', ?_, by simp [Expr.strip, target_strip, value_strip]⟩
  have no_lambda : Cursor.isAtLambda ⟨front ++ (symbol ++ (back ++ tail)), behind⟩ = false :=
    Cursor.isAtLambda_eq_false (front_operand.plain.append later_plain)
  have no_brace : Cursor.isAt ⟨back ++ tail, middle⟩ .openBrace = false :=
    (isAt_eq_false_of_leads back_operand.leads .openBrace (by decide) tail middle).1
  have read_eq : orMissing (rules (n + 1)).expr ⟨back ++ tail, middle⟩ = (value, _) :=
    orMissing_of_some value_eq
  rw [List.append_assoc, List.append_assoc]
  simp [exprWith, no_lambda, target_eq, op_eq, advance_eq, valueWith, no_brace, read_eq]

theorem readsOperand_assignment {op : AssignOp} (left_reads : ReadsOperand left)
    (left_operands : ∀ tokens ∈ left.spelling, IsOperand tokens) (right_reads : ReadsOperand right)
    (right_operands : ∀ tokens ∈ right.spelling, IsOperand tokens) :
    ReadsOperand (.assignment span op left right) := by
  refine readsOperand_of_group rfl fun tokens member n fuel tail closed => ?_
  exact readsExpr_assignment left_reads left_operands right_reads right_operands member fuel
    closed.closes

theorem readsOperand_conditional {test : Expr} (reads : ReadsOperand test)
    (operands : ∀ tokens ∈ test.spelling, IsOperand tokens) (left_reads : ReadsOperand left)
    (left_operands : ∀ tokens ∈ left.spelling, IsOperand tokens) (right_reads : ReadsOperand right)
    (right_operands : ∀ tokens ∈ right.spelling, IsOperand tokens) :
    ReadsOperand (.conditional span test left right) := by
  refine readsOperand_of_group rfl fun tokens member n fuel tail closed => ?_
  rw [mul_assoc, mul_assoc, mul_assoc] at member
  obtain ⟨front, front_mem, _, later_mem, rfl⟩ := Language.mem_mul.mp member
  obtain ⟨_, question_mem, _, chosen_mem, rfl⟩ := Language.mem_mul.mp later_mem
  obtain ⟨middle, middle_mem, _, other_mem, rfl⟩ := Language.mem_mul.mp chosen_mem
  obtain ⟨_, colon_mem, back, back_mem, rfl⟩ := Language.mem_mul.mp other_mem
  obtain ⟨question, rfl⟩ := Token.mem_spelled_singleton.mp question_mem
  obtain ⟨colon, rfl⟩ := Token.mem_spelled_singleton.mp colon_mem
  have front_operand := operands front front_mem
  have middle_operand := left_operands middle middle_mem
  have back_operand := right_operands back back_mem
  simp only [List.length_append, List.length_cons, List.length_nil] at fuel
  obtain ⟨n, rfl⟩ : ∃ m, n = m + 1 := ⟨n - 1, by omega⟩
  have front_fuel : front.length ≤ n + 1 := by omega
  have middle_fuel : middle.length ≤ n := by omega
  have back_fuel : back.length ≤ n := by omega
  have back_plain := back_operand.plain.append closed.plain
  have closes : Closes (⟨.colon, ":", colon⟩ :: (back ++ tail)) := by
    refine ⟨plain_cons back_plain (by simp), ?_⟩
    rintro _ ⟨rfl⟩
    simp
  have follows : Follows (⟨.question, "?", question⟩ ::
      (middle ++ ⟨.colon, ":", colon⟩ :: (back ++ tail))) := by
    refine ⟨plain_cons (middle_operand.plain.append closes.plain) (by simp), ?_⟩
    rintro _ ⟨rfl⟩
    rfl
  refine ReadsExpr.whole (fun behind => ?_) ?_ closed.closes
  · obtain ⟨found, behind', found_eq, found_strip⟩ :=
      (reads.unary front_mem front_operand front_fuel follows
        (stopsSelection_cons _ (by simp))).binary (fun _ _ _ _ => rfl) 0 behind
    obtain ⟨chosen, behind'', chosen_eq, chosen_strip⟩ :=
      left_reads.whole middle_mem middle_operand middle_fuel closes question.stop
    obtain ⟨other, last, other_eq, other_strip⟩ :=
      ((right_reads.unary back_mem back_operand back_fuel closed.closes.follows
        closed.closes.stopsSelection).binary closed.closes.stopsOperation 0).conditional
          closed.closes.isAt_question colon.stop
    refine ⟨.conditional (Cursor.spanFrom ⟨tail, last⟩ found.span.start) found chosen other, last,
      ?_, by simp [Expr.strip, found_strip, chosen_strip, other_strip]⟩
    have whenTrue_eq : orMissing (rules (n + 1)).expr
        ⟨middle ++ ⟨.colon, ":", colon⟩ :: (back ++ tail), question.stop⟩ = (chosen, _) :=
      orMissing_of_some chosen_eq
    have whenFalse_eq : orMissing (rules (n + 1)).conditional ⟨back ++ tail, colon.stop⟩ =
        (other, _) := orMissing_of_some other_eq
    have no_lambda : Cursor.isAtLambda ⟨back ++ tail, colon.stop⟩ = false :=
      Cursor.isAtLambda_eq_false back_plain
    simp [conditionalWith, found_eq, accept_apply, whenTrue_eq, no_lambda, whenFalse_eq]
  · exact front_operand.plain.append (plain_cons (middle_operand.plain.append
      (plain_cons back_operand.plain (by simp))) (by simp))

/-- The operand of a cast may begin where an operand does. -/
theorem isAtOperand_of_leads {tokens : List Token} (leads : Leads tokens) (tail : List Token)
    (behind : Nat) : Cursor.isAtOperand ⟨tokens ++ tail, behind⟩ = true := by
  cases leads with
  | @operand first more begins =>
      cases kind_eq : first.kind with
      | word =>
          simp only [Token.beginsOperand, kind_eq, Bool.or_eq_true] at begins
          rcases begins with identifier | listed
          · simp [Cursor.isAtOperand, kind_eq, isReserved_eq_false identifier]
          · have included : ∀ word ∈ ["this", "super", "new", "true", "false", "null"],
                word ∈ operandWords := by decide
            simp [Cursor.isAtOperand, kind_eq, included first.text (by simpa using listed)]
      | _ => simp_all [Token.beginsOperand, Cursor.isAtOperand, TokenKind.isLiteral]
  | group opens => simp [Cursor.isAtOperand, opens]

theorem readsOperand_cast {type : TypeRef} (reads : ReadsOperand left)
    (operands : ∀ tokens ∈ left.spelling, IsOperand tokens) :
    ReadsOperand (.cast span type left) := by
  refine readsOperand_of_group rfl fun tokens member n fuel tail closed => ?_
  obtain ⟨_, target_mem, back, back_mem, rfl⟩ := Language.mem_mul.mp member
  obtain ⟨opening, named, closing, type_mem, rfl⟩ := mem_inParens.mp target_mem
  have operand := operands back back_mem
  simp only [List.length_append, List.length_cons, List.length_nil] at fuel
  obtain ⟨n, rfl⟩ : ∃ m, n = m + 1 := ⟨n - 1, by omega⟩
  have back_fuel : back.length ≤ n := by omega
  have back_plain := operand.plain.append closed.plain
  have type_plain := (TypeRef.bounded_of_mem_spelling named type_mem).plain
  have plain : AllPlain (⟨.openParen, "(", opening⟩ :: (named ++
      [⟨.closeParen, ")", closing⟩]) ++ back) := by
    rw [List.cons_append, List.append_assoc]
    exact plain_cons (type_plain.append (plain_cons operand.plain (by simp))) (by simp)
  refine ReadsExpr.closed (fun behind => ?_) plain closed
  have ends : ∀ token ∈ List.head? (⟨.closeParen, ")", closing⟩ :: (back ++ tail)),
      token.kind ∈ [.openParen, .closeParen, .word] := by
    rintro _ ⟨rfl⟩
    simp
  obtain ⟨target, behind', type_eq, text_eq⟩ :=
    typeRef?_of_mem type_mem (plain_cons back_plain (by simp)) ends opening.stop
  obtain ⟨found, behind'', found_eq, strip_eq⟩ := reads.unary back_mem operand back_fuel
    closed.closes.follows closed.closes.stopsSelection closing.stop
  refine ⟨.cast (Cursor.spanFrom ⟨tail, behind''⟩ opening.start) target found, behind'', ?_,
    by simp [Expr.strip, text_eq, strip_eq]⟩
  have alone : castType? target ⟨⟨.closeParen, ")", closing⟩ :: (back ++ tail), behind'⟩ =
      (some target, ⟨⟨.closeParen, ")", closing⟩ :: (back ++ tail), behind'⟩) :=
    Iterates.iterate_eq (.stop rfl)
  have no_lambda : Cursor.isAtLambda ⟨back ++ tail, closing.stop⟩ = false :=
    Cursor.isAtLambda_eq_false back_plain
  have operand_eq : orMissing (rules (n + 1)).unary ⟨back ++ tail, closing.stop⟩ = (found, _) :=
    orMissing_of_some found_eq
  have cast_eq : castWith (rules (n + 1)) ⟨⟨.openParen, "(", opening⟩ ::
      (named ++ ⟨.closeParen, ")", closing⟩ :: (back ++ tail)), behind⟩ =
      (some (.cast (Cursor.spanFrom ⟨tail, behind''⟩ opening.start) target found),
        ⟨tail, behind''⟩) := by
    simp [castWith, type_eq, alone, accept_apply, isAtOperand_of_leads operand.leads, no_lambda,
      operand_eq]
  simp [unaryWith, Cursor.unaryOp?, cast_eq]

theorem readsOperand_parenthesized (reads : ReadsOperand left)
    (operands : ∀ tokens ∈ left.spelling, IsOperand tokens) :
    ReadsOperand (.parenthesized span left) := by
  by_cases parens : left.hasParens = true
  · intro tokens member
    rw [Expr.spelling, if_pos parens] at member
    exact reads tokens member
  · refine readsOperand_of_group (by rw [Expr.spelling, if_neg parens]) ?_
    intro tokens member n fuel tail closed
    exact reads.whole member (operands tokens member) fuel closed.closes

end

end Parser

end JavaOutline
