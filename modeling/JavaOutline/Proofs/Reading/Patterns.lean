import JavaOutline.Outline.Build
import JavaOutline.Proofs.Reading.Advance
import JavaOutline.Proofs.Reading.Filled

/-!
# Patterns in the labels of a `switch`

A label is first read as a value, and kept as it is written only if the value does not end where the
label does. A pattern that binds a name never does, and neither does one with a guard. A record
pattern without a guard does: it is read as a call of its type, in which each component stands for
an argument, and the names that it binds are lost.
-/

namespace JavaOutline

/-- A word that is not reserved. -/
structure Identifier where
  /-- The token. -/
  token : Token
  is_word : token.kind = .word
  free : isReserved token.text = false

/-- A token of a kind. -/
structure Mark (kind : TokenKind) where
  /-- The token. -/
  token : Token
  kind_eq : token.kind = kind

/-- The name of a type, without type arguments. -/
inductive TypeName where
  | simple (word : Identifier)
  | member (outer : TypeName) (dot : Mark .dot) (word : Identifier)

mutual

/-- A pattern without type arguments: a type and a name to bind, or a record with patterns for its
components. -/
inductive Pattern where
  | binding (type : TypeName) (name : Identifier)
  | record (type : TypeName) (opening : Mark .openParen) (components : Components)
      (closing : Mark .closeParen)

/-- The components of a record pattern; there is at least one. -/
inductive Components where
  | last (pattern : Pattern)
  | cons (pattern : Pattern) (comma : Mark .comma) (later : Components)

end

namespace TypeName

/-- The tokens of the name of a type. -/
def tokens : TypeName → List Token
  | simple word => [word.token]
  | member outer dot word => outer.tokens ++ [dot.token, word.token]

/-- Where the name of a type ends. -/
def stop : TypeName → Nat
  | simple word | member _ _ word => word.token.span.stop

/-- What the name of a type is as an expression. -/
def expr : TypeName → Expr
  | simple word => .name word.token.span word.token.text
  | member outer _ word =>
    .fieldAccess ⟨outer.expr.span.start, max word.token.span.stop outer.expr.span.start⟩ outer.expr
      ⟨word.token.text, word.token.span⟩

/-- What the name of a type is with arguments after it that end at `stop`. -/
def call (arguments : List Expr) (stop : Nat) : TypeName → Expr
  | simple word =>
    .call ⟨word.token.span.start, max stop word.token.span.start⟩
      ⟨word.token.text, word.token.span⟩ arguments
  | member outer _ word =>
    .memberCall ⟨outer.expr.span.start, max stop outer.expr.span.start⟩ outer.expr
      ⟨word.token.text, word.token.span⟩ arguments

end TypeName

mutual

/-- The tokens of a pattern. -/
def Pattern.tokens : Pattern → List Token
  | .binding type name => type.tokens ++ [name.token]
  | .record type opening components closing =>
    type.tokens ++ opening.token :: (components.tokens ++ [closing.token])

/-- The tokens of the components of a record pattern. -/
def Components.tokens : Components → List Token
  | .last pattern => pattern.tokens
  | .cons pattern comma later => pattern.tokens ++ comma.token :: later.tokens

end

mutual

/-- What a pattern is if it is read as a value: the names that it binds are left out. -/
def Pattern.value : Pattern → Expr
  | .binding type _ => type.expr
  | .record type _ components closing => type.call components.values closing.token.span.stop

/-- What the components of a record pattern are if they are read as arguments. -/
def Components.values : Components → List Expr
  | .last pattern => [pattern.value]
  | .cons pattern _ later => pattern.value :: later.values

end

namespace Pattern

/-- What is left of a pattern after it was read as a value. -/
def unread : Pattern → List Token
  | binding _ name => [name.token]
  | record .. => []

/-- Where a pattern was read to as a value. -/
def readTo : Pattern → Nat
  | binding type _ => type.stop
  | record _ _ _ closing => closing.token.span.stop

/-- Whether a pattern is a record pattern. -/
def isRecord : Pattern → Bool
  | binding .. => false
  | record .. => true

end Pattern

/-- Whether tokens begin with one that may come after a pattern: with a word that is not reserved,
or with one of the marks that end a label, a component or its record. -/
def EndsPattern (tail : List Token) : Prop :=
  ∀ token ∈ tail.head?, token.kind ∈ [.comma, .colon, .arrow, .closeParen] ∨
    token.kind = .word ∧ isReserved token.text = false

namespace EndsPattern

variable {tail : List Token}

theorem of_mark {token : Token} (mark : token.kind ∈ [.comma, .colon, .arrow, .closeParen])
    (rest : List Token) : EndsPattern (token :: rest) := by
  rintro _ ⟨rfl⟩
  exact .inl mark

theorem of_identifier (word : Identifier) (rest : List Token) :
    EndsPattern (word.token :: rest) := by
  rintro _ ⟨rfl⟩
  exact .inr ⟨word.is_word, word.free⟩

theorem kind_ne (ends : EndsPattern tail) {token : Token} (first : token ∈ tail.head?)
    {kind : TokenKind} (other : kind ∉ [.comma, .colon, .arrow, .closeParen, .word]) :
    token.kind ≠ kind := by
  rintro rfl
  rcases ends token first with mark | ⟨word, -⟩
  · exact other (List.mem_append_left [TokenKind.word] mark)
  · simp [word] at other

theorem isAt_eq (ends : EndsPattern tail) {kind : TokenKind}
    (other : kind ∉ [.comma, .colon, .arrow, .closeParen, .word]) (behind : Nat) :
    Cursor.isAt ⟨tail, behind⟩ kind = false := by
  cases tail with
  | nil => rfl
  | cons token tail => simpa using ends.kind_ne rfl other

theorem stopsSelection (ends : EndsPattern tail) : Parser.StopsSelection tail := by
  cases tail with
  | nil => exact fun _ _ _ => rfl
  | cons token tail =>
      apply Parser.stopsSelection_cons
      intro listed
      have other : ∀ kind ∈ [TokenKind.dot, .openBracket, .doubleColon, .less, .increment,
          .decrement], kind ∉ [.comma, .colon, .arrow, .closeParen, .word] := by decide
      exact ends.kind_ne rfl (other _ listed) rfl

theorem stopsOperation (ends : EndsPattern tail) : Parser.StopsOperation tail := by
  intro n least left behind
  cases tail with
  | nil => rfl
  | cons token tail =>
      rcases ends token rfl with mark | ⟨word, free⟩
      · simp only [List.mem_cons, List.not_mem_nil, or_false] at mark
        rcases mark with kind | kind | kind | kind <;>
          simp [Parser.binaryStepWith, Cursor.binaryOp?, kind, Token.isWord]
      · have no_test : token.text ≠ "instanceof" :=
          Parser.ne_of_not_isReserved free (by decide)
        simp [Parser.binaryStepWith, Cursor.binaryOp?, word, Token.isWord, no_test]

theorem assignOp?_eq (ends : EndsPattern tail) (behind : Nat) :
    Cursor.assignOp? ⟨tail, behind⟩ = none := by
  cases tail with
  | nil => rfl
  | cons token tail =>
      rcases ends token rfl with mark | ⟨word, -⟩
      · simp only [List.mem_cons, List.not_mem_nil, or_false] at mark
        rcases mark with kind | kind | kind | kind <;> simp [Cursor.assignOp?, kind]
      · simp [Cursor.assignOp?, word]

theorem unread (ends : EndsPattern tail) (pattern : Pattern) :
    EndsPattern (pattern.unread ++ tail) := by
  cases pattern with
  | binding type name => exact of_identifier name tail
  | record => exact ends

end EndsPattern

namespace Parser

variable {n : Nat} {tail : List Token}

/-- A word that is not reserved is read as a name, or with the arguments after it as a call. -/
theorem primaryWith_identifier (word : Identifier) (rules : Rules) (rest : List Token)
    (behind : Nat) : primaryWith rules ⟨word.token :: rest, behind⟩ =
      (do
        if (← get).isAt .openParen then
          let arguments ← argumentsWith rules
          return some (.call (← spanFrom word.token.span.start)
            ⟨word.token.text, word.token.span⟩ arguments)
        return some (.name word.token.span word.token.text) :
        Parser (Option Expr)) ⟨rest, word.token.span.stop⟩ := by
  obtain ⟨⟨kind, text, span⟩, is_word, free⟩ := word
  obtain rfl : kind = .word := is_word
  simp [primaryWith, wordWith_of_not_isReserved free]

/-- What follows a dot and a word that is not reserved decides between a call and a field. -/
theorem selectorWith_identifier (dot : Mark .dot) (word : Identifier) (rules : Rules)
    (operand : Expr) (rest : List Token) (behind : Nat) :
    selectorWith rules operand ⟨dot.token :: word.token :: rest, behind⟩ =
      (do
        if (← get).isAt .openParen then
          let arguments ← argumentsWith rules
          return some (.memberCall (← spanFrom operand.span.start) operand
            ⟨word.token.text, word.token.span⟩ arguments)
        return some (.fieldAccess (← spanFrom operand.span.start) operand
          ⟨word.token.text, word.token.span⟩) :
        Parser (Option Expr)) ⟨rest, word.token.span.stop⟩ := by
  obtain ⟨⟨kind, text, span⟩, is_word, free⟩ := word
  obtain rfl : kind = .word := is_word
  exact selectorWith_dot dot.kind_eq free rules operand span rest behind

/-- The name of a type is read as an operand, from which any selectors after it select. -/
theorem operandWith_typeName (type : TypeName)
    (no_arguments : ∀ behind, Cursor.isAt ⟨tail, behind⟩ .openParen = false) {result : Expr}
    {after : Cursor}
    (selects : Iterates (selectorWith (rules n)) type.expr ⟨tail, type.stop⟩ result after)
    (behind : Nat) :
    operandWith (rules n) ⟨type.tokens ++ tail, behind⟩ = (some result, after) := by
  induction type generalizing tail with
  | simple word =>
      refine operandWith_eq ?_ selects
      rw [TypeName.tokens, List.singleton_append, primaryWith_identifier]
      simp [no_arguments, TypeName.expr, TypeName.stop]
  | member outer dot word induction =>
      have step : selectorWith (rules n) outer.expr
          ⟨dot.token :: word.token :: tail, outer.stop⟩ =
            (some (TypeName.member outer dot word).expr, ⟨tail, word.token.span.stop⟩) := by
        rw [selectorWith_identifier]
        simp [no_arguments, TypeName.expr, Cursor.spanFrom]
      rw [TypeName.tokens, List.append_assoc]
      refine induction (fun _ => by simp [dot.kind_eq]) (.next step ?_ selects)
      simp

/-- The name of a type with arguments after it is read as a call. -/
theorem operandWith_call (type : TypeName) (opening : Mark .openParen) {tokens : List Token}
    {arguments : List Expr} {stop : Nat}
    (read : ∀ behind, argumentsWith (rules n) ⟨opening.token :: (tokens ++ tail), behind⟩ =
      (arguments, ⟨tail, stop⟩)) (stops : StopsSelection tail) (behind : Nat) :
    operandWith (rules n) ⟨type.tokens ++ opening.token :: (tokens ++ tail), behind⟩ =
      (some (type.call arguments stop), ⟨tail, stop⟩) := by
  cases type with
  | simple word =>
      refine operandWith_eq ?_ (.stop (stops n _ stop))
      rw [TypeName.tokens, List.singleton_append, primaryWith_identifier]
      simp [opening.kind_eq, read, TypeName.call, Cursor.spanFrom]
  | member outer dot word =>
      have step : selectorWith (rules n) outer.expr
          ⟨dot.token :: word.token :: opening.token :: (tokens ++ tail), outer.stop⟩ =
            (some ((TypeName.member outer dot word).call arguments stop), ⟨tail, stop⟩) := by
        rw [selectorWith_identifier]
        simp [opening.kind_eq, read, TypeName.call, Cursor.spanFrom]
      rw [TypeName.tokens, List.append_assoc]
      refine operandWith_typeName outer (fun _ => by simp [dot.kind_eq])
        (.next step ?_ (.stop (stops n _ stop))) behind
      simp
      omega

end Parser

theorem TypeName.exists_tokens_eq (type : TypeName) (rest : List Token) :
    ∃ (word : Identifier) (more : List Token), type.tokens ++ rest = word.token :: (more ++ rest) ∧
      ∀ token ∈ more.head?, token.kind = .dot := by
  induction type generalizing rest with
  | simple word => exact ⟨word, [], rfl, nofun⟩
  | member outer dot word induction =>
      obtain ⟨first, more, tokens_eq, dotted⟩ := induction ([dot.token, word.token] ++ rest)
      refine ⟨first, more ++ [dot.token, word.token], ?_, ?_⟩
      · rw [tokens, List.append_assoc, tokens_eq, List.append_assoc]
      · cases more with
        | nil =>
            rintro _ ⟨rfl⟩
            exact dot.kind_eq
        | cons token more => exact dotted

/-- A pattern begins with a word that is not reserved and no arrow after it. -/
theorem Pattern.exists_tokens_eq (pattern : Pattern) : ∃ (word : Identifier) (next : Token)
    (rest : List Token), pattern.tokens = word.token :: next :: rest ∧ next.kind ≠ .arrow := by
  have of_type (type : TypeName) {mark : Token} (rest : List Token) (kind : mark.kind ≠ .arrow) :
      ∃ (word : Identifier) (next : Token) (later : List Token),
        type.tokens ++ mark :: rest = word.token :: next :: later ∧ next.kind ≠ .arrow := by
    obtain ⟨word, more, tokens_eq, dotted⟩ := type.exists_tokens_eq (mark :: rest)
    cases more with
    | nil => exact ⟨word, mark, rest, tokens_eq, kind⟩
    | cons token more =>
        have is_dot := dotted token rfl
        exact ⟨word, token, more ++ mark :: rest, tokens_eq, by simp [is_dot]⟩
  cases pattern with
  | binding type name => exact of_type type [] (by simp [name.is_word])
  | record type opening components closing => exact of_type type _ (by simp [opening.kind_eq])

namespace Parser

section

variable {n : Nat} {rest tail : List Token} {value : Expr} {behind stop : Nat} {pattern : Pattern}

/-- A pattern that is read as an operand is a conditional expression, if nothing goes on with it. -/
theorem conditionalWith_pattern
    (read : operandWith (rules n) ⟨pattern.tokens ++ tail, behind⟩ = (some value, ⟨rest, stop⟩))
    (ends : EndsPattern rest) :
    conditionalWith (rules n) ⟨pattern.tokens ++ tail, behind⟩ = (some value, ⟨rest, stop⟩) := by
  obtain ⟨word, next, more, tokens_eq, -⟩ := pattern.exists_tokens_eq
  have unary_eq : unaryWith (rules n) ⟨pattern.tokens ++ tail, behind⟩ =
      (some value, ⟨rest, stop⟩) := by
    rw [tokens_eq] at read ⊢
    exact (unaryWith_of_kind (by simp [word.is_word]) _ _ _).trans read
  have alone := (Iterates.stop (ends.stopsOperation n 0 value stop)).iterate_eq
  have no_question : Cursor.isAt ⟨rest, stop⟩ .question = false := ends.isAt_eq (by decide) stop
  simp [conditionalWith, binaryWith, unary_eq, alone, accept_apply, no_question]

theorem exprWith_pattern
    (read : operandWith (rules n) ⟨pattern.tokens ++ tail, behind⟩ = (some value, ⟨rest, stop⟩))
    (ends : EndsPattern rest) :
    exprWith (rules n) ⟨pattern.tokens ++ tail, behind⟩ = (some value, ⟨rest, stop⟩) := by
  have read_eq := conditionalWith_pattern read ends
  obtain ⟨word, next, more, tokens_eq, no_arrow⟩ := pattern.exists_tokens_eq
  have no_lambda : Cursor.isAtLambda ⟨pattern.tokens ++ tail, behind⟩ = false := by
    simp [tokens_eq, Cursor.isAtLambda, word.is_word, no_arrow]
  simp [exprWith, no_lambda, read_eq, ends.assignOp?_eq]

/-- After a component that was read as an argument, the name that it binds is skipped. -/
theorem argumentWith_pattern {mark : Token} (kind : mark.kind = .comma ∨ mark.kind = .closeParen)
    (read : exprWith (rules n) ⟨pattern.tokens ++ mark :: tail, behind⟩ =
      (some value, ⟨pattern.unread ++ mark :: tail, stop⟩)) :
    ∃ behind', argumentWith (rules (n + 1)) ⟨pattern.tokens ++ mark :: tail, behind⟩ =
      (some value, (accept .comma ⟨mark :: tail, behind'⟩).2) := by
  obtain ⟨word, next, more, tokens_eq, -⟩ := pattern.exists_tokens_eq
  have begins : Cursor.isAt ⟨pattern.tokens ++ mark :: tail, behind⟩ .closeParen = false ∧
      Cursor.atEnd ⟨pattern.tokens ++ mark :: tail, behind⟩ = false := by
    simp [tokens_eq, word.is_word]
  cases pattern with
  | binding type name =>
      refine ⟨name.token.span.stop, ?_⟩
      rcases kind with kind | kind <;>
        simp [argumentWith, begins, rules, read, accept_apply, Pattern.unread, name.is_word, skipTo,
          Cursor.beforeStop, kind]
  | record type opening components closing =>
      refine ⟨stop, ?_⟩
      rcases kind with kind | kind <;>
        simp [argumentWith, begins, rules, read, accept_apply, Pattern.unread, kind]

end

mutual

/-- A pattern is read as an operand, up to the name that it binds. -/
theorem operandWith_pattern (pattern : Pattern) {tail : List Token} (ends : EndsPattern tail)
    {n : Nat} (fuel : pattern.tokens.length ≤ n) (behind : Nat) :
    operandWith (rules n) ⟨pattern.tokens ++ tail, behind⟩ =
      (some pattern.value, ⟨pattern.unread ++ tail, pattern.readTo⟩) := by
  cases pattern with
  | binding type name =>
      have name_ends := EndsPattern.of_identifier name tail
      rw [Pattern.tokens, List.append_assoc]
      exact operandWith_typeName type (name_ends.isAt_eq (by decide))
        (.stop (name_ends.stopsSelection n _ _)) behind
  | record type opening components closing =>
      simp only [Pattern.tokens, List.length_append, List.length_cons, List.length_nil] at fuel
      have components_fuel : components.tokens.length < n := by omega
      have read (behind : Nat) : argumentsWith (rules n)
          ⟨opening.token :: ((components.tokens ++ [closing.token]) ++ tail), behind⟩ =
            (components.values, ⟨tail, closing.token.span.stop⟩) := by
        obtain ⟨behind', repeats⟩ := repeats_components components closing tail components_fuel
          opening.token.span.stop
        rw [List.append_assoc, List.singleton_append]
        simp [argumentsWith_eq, accept_apply, opening.kind_eq, closing.kind_eq, repeats.many_eq]
      rw [Pattern.tokens, List.append_assoc, List.cons_append]
      exact operandWith_call type opening read ends.stopsSelection behind

/-- The components of a record pattern are read as arguments. -/
theorem repeats_components (components : Components) (closing : Mark .closeParen)
    (tail : List Token) {n : Nat} (fuel : components.tokens.length < n) (behind : Nat) :
    ∃ behind', Repeats (argumentWith (rules n)) ⟨components.tokens ++ closing.token :: tail, behind⟩
      components.values ⟨closing.token :: tail, behind'⟩ := by
  obtain ⟨n, rfl⟩ : ∃ m, n = m + 1 := ⟨n - 1, by omega⟩
  cases components with
  | last pattern =>
      rw [Components.tokens] at fuel ⊢
      have ends : EndsPattern (closing.token :: tail) := .of_mark (by simp [closing.kind_eq]) tail
      have read := exprWith_pattern
        (operandWith_pattern pattern ends (Nat.le_of_lt_succ fuel) behind) (ends.unread pattern)
      obtain ⟨behind', step⟩ := argumentWith_pattern (.inr closing.kind_eq) read
      refine ⟨behind', .next step ?_ (.stop ?_)⟩
      · obtain ⟨word, next, more, tokens_eq, -⟩ := pattern.exists_tokens_eq
        simp [tokens_eq, accept_apply, closing.kind_eq]
        omega
      · simp [argumentWith, accept_apply, closing.kind_eq]
  | cons pattern comma later =>
      simp only [Components.tokens, List.length_append, List.length_cons] at fuel
      have pattern_fuel : pattern.tokens.length ≤ n := by omega
      have later_fuel : later.tokens.length < n + 1 := by omega
      have ends : EndsPattern (comma.token :: (later.tokens ++ closing.token :: tail)) :=
        .of_mark (by simp [comma.kind_eq]) _
      have read := exprWith_pattern (operandWith_pattern pattern ends pattern_fuel behind)
        (ends.unread pattern)
      obtain ⟨_, step⟩ := argumentWith_pattern (.inl comma.kind_eq) read
      simp only [accept_apply, Cursor.isAt_cons, comma.kind_eq, decide_true, if_true,
        Cursor.tail_cons] at step
      obtain ⟨behind', repeats⟩ :=
        repeats_components later closing tail later_fuel comma.token.span.stop
      rw [Components.tokens, List.append_assoc, List.cons_append]
      refine ⟨behind', .next step ?_ repeats⟩
      simp
      omega

end

end Parser

/-! ## Labels -/

/-- How many brackets are open after some tokens, if `depth` are open before them; nothing, if a
mark that ends the value of a label stands outside all brackets or a bracket has no partner. -/
def depthAfter? : (depth : Nat) → List Token → Option Nat
  | depth, [] => some depth
  | depth, token :: rest =>
    match token.kind with
    | .openParen | .openBrace | .openBracket => depthAfter? (depth + 1) rest
    | .closeParen | .closeBrace | .closeBracket =>
      if depth = 0 then none else depthAfter? (depth - 1) rest
    | .comma | .colon | .arrow => if depth = 0 then none else depthAfter? depth rest
    | _ => depthAfter? depth rest

theorem depthAfter?_append (depth : Nat) (tokens rest : List Token) :
    depthAfter? depth (tokens ++ rest) = (depthAfter? depth tokens).bind (depthAfter? · rest) := by
  induction tokens generalizing depth with
  | nil => rfl
  | cons token tokens induction =>
      simp only [List.cons_append, depthAfter?]
      split <;> try split_ifs
      all_goals first | exact induction _ | rfl

/-- What is skipped in search of the end of a value. -/
theorem beforeStop_of_depthAfter? {depth depth' : Nat} {tokens : List Token}
    (found : depthAfter? depth tokens = some depth') (rest : List Token) (behind : Nat) :
    Cursor.beforeStop [.comma, .colon, .arrow] depth behind (tokens ++ rest) =
      Cursor.beforeStop [.comma, .colon, .arrow] depth' (Cursor.finish ⟨tokens, behind⟩) rest := by
  induction tokens generalizing depth behind with
  | nil =>
      obtain rfl := Option.some.inj found
      rfl
  | cons token tokens induction =>
      rw [← Cursor.finish_tail, Cursor.tail_cons, List.cons_append, Cursor.beforeStop.eq_def]
      rw [depthAfter?] at found
      cases kind : token.kind with
      | closeParen | closeBrace | closeBracket | comma | colon | arrow =>
          simp only [kind] at found
          split_ifs at found with outside
          simpa [kind, outside] using induction found _
      | _ =>
          simp only [kind] at found
          simpa [kind] using induction found _

theorem TypeName.depthAfter?_tokens (type : TypeName) (depth : Nat) :
    depthAfter? depth type.tokens = some depth := by
  induction type with
  | simple word => simp [tokens, depthAfter?, word.is_word]
  | member outer dot word induction =>
      simp [tokens, depthAfter?_append, induction, depthAfter?, word.is_word, dot.kind_eq]

mutual

/-- The brackets of a pattern are closed in it. -/
theorem Pattern.depthAfter?_tokens (pattern : Pattern) (depth : Nat) :
    depthAfter? depth pattern.tokens = some depth := by
  cases pattern with
  | binding type name =>
      simp [Pattern.tokens, depthAfter?_append, type.depthAfter?_tokens, depthAfter?, name.is_word]
  | record type opening components closing =>
      simp [Pattern.tokens, depthAfter?_append, type.depthAfter?_tokens, depthAfter?,
        opening.kind_eq, closing.kind_eq, components.depthAfter?_tokens depth]

theorem Components.depthAfter?_tokens (components : Components) (depth : Nat) :
    depthAfter? (depth + 1) components.tokens = some (depth + 1) := by
  cases components with
  | last pattern => exact pattern.depthAfter?_tokens (depth + 1)
  | cons pattern comma later =>
      simp [Components.tokens, depthAfter?_append, pattern.depthAfter?_tokens, depthAfter?,
        comma.kind_eq, later.depthAfter?_tokens depth]

end

/-- A guard: the word `when`, and a condition without a comma, a colon or an arrow outside
brackets. -/
structure Guard where
  /-- The word. -/
  word : Token
  /-- The condition. -/
  condition : List Token
  is_when : word.isWord "when" = true
  closed : depthAfter? 0 condition = some 0

/-- The tokens of a guard, if there is one. -/
def Guard.tokens : Option Guard → List Token
  | none => []
  | some guard => guard.word :: guard.condition

theorem Guard.depthAfter?_tokens (guard : Option Guard) :
    depthAfter? 0 (Guard.tokens guard) = some 0 := by
  cases guard with
  | none => rfl
  | some guard =>
      have is_when := guard.is_when
      simp only [Token.isWord, Bool.and_eq_true, decide_eq_true_eq] at is_when
      simp [tokens, depthAfter?, is_when.1, guard.closed]

/-- The span from the first of some tokens to the last. -/
def Token.spanOf : List Token → Span
  | [] => .point 0
  | first :: rest =>
    ⟨first.span.start, max (rest.getLast?.getD first).span.stop first.span.start⟩

theorem Token.spanFrom_finish {tokens : List Token} (nonempty : tokens ≠ []) (rest : List Token)
    (behind : Nat) :
    Cursor.spanFrom ⟨rest, Cursor.finish ⟨tokens, behind⟩⟩ (Cursor.here ⟨tokens ++ rest, behind⟩) =
      spanOf tokens := by
  obtain ⟨first, more, rfl⟩ := List.exists_cons_of_ne_nil nonempty
  simp [Cursor.finish, Cursor.spanFrom, spanOf, List.getLast?_cons]

namespace Parser

section

variable {mark : Token} {n : Nat} (rest : List Token)

theorem endsPattern_guard (kind : mark.kind = .colon ∨ mark.kind = .arrow)
    (guard : Option Guard) : EndsPattern (Guard.tokens guard ++ mark :: rest) := by
  cases guard with
  | none => exact .of_mark (by rcases kind with kind | kind <;> simp [kind]) rest
  | some guard =>
      have is_when := guard.is_when
      simp only [Token.isWord, Bool.and_eq_true, decide_eq_true_eq] at is_when
      rintro _ ⟨rfl⟩
      exact .inr ⟨is_when.1, by rw [is_when.2]; decide⟩

/-- What is read of a pattern and its guard as a conditional expression. -/
theorem conditional_pattern (pattern : Pattern) (guard : Option Guard)
    (fuel : pattern.tokens.length ≤ n) (kind : mark.kind = .colon ∨ mark.kind = .arrow)
    (behind : Nat) : (rules (n + 1)).conditional
      ⟨pattern.tokens ++ Guard.tokens guard ++ mark :: rest, behind⟩ =
        (some pattern.value, ⟨pattern.unread ++ (Guard.tokens guard ++ mark :: rest),
          pattern.readTo⟩) := by
  have ends := endsPattern_guard rest kind guard
  rw [List.append_assoc]
  exact conditionalWith_pattern (operandWith_pattern pattern ends fuel behind) (ends.unread pattern)

theorem acceptWord_default_pattern (pattern : Pattern) (behind : Nat) :
    acceptWord "default" ⟨pattern.tokens ++ rest, behind⟩ =
      (false, ⟨pattern.tokens ++ rest, behind⟩) := by
  obtain ⟨word, next, more, tokens_eq, -⟩ := pattern.exists_tokens_eq
  have differs : word.token.text ≠ "default" := ne_of_not_isReserved word.free (by decide)
  simp [acceptWord_apply, tokens_eq, Token.isWord, differs]

/-- A pattern that binds a name, or has a guard, is kept as it is written. -/
theorem caseValueWith_of_kept {pattern : Pattern} {guard : Option Guard}
    (kept : pattern.isRecord = false ∨ guard.isSome) (fuel : pattern.tokens.length ≤ n)
    (kind : mark.kind = .colon ∨ mark.kind = .arrow) (behind : Nat) :
    ∃ behind', caseValueWith (rules (n + 1))
      ⟨pattern.tokens ++ Guard.tokens guard ++ mark :: rest, behind⟩ =
        (.excerpt (Token.spanOf (pattern.tokens ++ Guard.tokens guard)) .pattern,
          ⟨mark :: rest, behind'⟩) := by
  have no_default := acceptWord_default_pattern (Guard.tokens guard ++ mark :: rest) pattern behind
  have read_eq := conditional_pattern rest pattern guard fuel kind behind
  have goes_on (stop : Nat) : Cursor.isAhead
      ⟨pattern.unread ++ (Guard.tokens guard ++ mark :: rest), stop⟩ 0
        [.comma, .colon, .arrow] = false := by
    cases pattern with
    | binding type name => simp [Pattern.unread, name.is_word]
    | record =>
        have guarded := kept.resolve_left (by simp [Pattern.isRecord])
        obtain ⟨found, rfl⟩ := Option.isSome_iff_exists.mp guarded
        have is_when := found.is_when
        simp only [Token.isWord, Bool.and_eq_true, decide_eq_true_eq] at is_when
        simp [Pattern.unread, Guard.tokens, is_when.1]
  have nonempty : pattern.tokens ++ Guard.tokens guard ≠ [] := by
    obtain ⟨word, next, more, tokens_eq, -⟩ := pattern.exists_tokens_eq
    simp [tokens_eq]
  have depth_eq : depthAfter? 0 (pattern.tokens ++ Guard.tokens guard) = some 0 := by
    rw [depthAfter?_append, pattern.depthAfter?_tokens]
    exact Guard.depthAfter?_tokens guard
  have skip_eq := beforeStop_of_depthAfter? depth_eq (mark :: rest) behind
  have stop_eq (behind : Nat) : Cursor.beforeStop [.comma, .colon, .arrow] 0 behind (mark :: rest) =
      ⟨mark :: rest, behind⟩ := by
    rcases kind with kind | kind <;> simp [Cursor.beforeStop, kind]
  have span_eq := Token.spanFrom_finish nonempty (mark :: rest) behind
  rw [stop_eq] at skip_eq
  rw [← List.append_assoc] at no_default
  refine ⟨Cursor.finish ⟨pattern.tokens ++ Guard.tokens guard, behind⟩, ?_⟩
  simp only [caseValueWith, bind_apply, get_apply, no_default, Bool.false_eq_true, if_false,
    read_eq, goes_on, set_apply, skipTo, skip_eq, excerptFrom, spanFrom_apply, span_eq, pure_apply]

/-- A record pattern without a guard is read as a call. -/
theorem caseValueWith_of_record {pattern : Pattern} (record : pattern.isRecord = true)
    (fuel : pattern.tokens.length ≤ n) (kind : mark.kind = .colon ∨ mark.kind = .arrow)
    (behind : Nat) : ∃ behind', caseValueWith (rules (n + 1))
      ⟨pattern.tokens ++ Guard.tokens none ++ mark :: rest, behind⟩ =
        (pattern.value, ⟨mark :: rest, behind'⟩) := by
  have no_default := acceptWord_default_pattern (Guard.tokens none ++ mark :: rest) pattern behind
  have read_eq := conditional_pattern rest pattern none fuel kind behind
  have unread_eq : pattern.unread = [] := by
    cases pattern with
    | binding => cases record
    | record => rfl
  have ends (stop : Nat) :
      Cursor.isAhead ⟨mark :: rest, stop⟩ 0 [.comma, .colon, .arrow] = true := by
    rcases kind with kind | kind <;> simp [kind]
  rw [← List.append_assoc] at no_default
  simp only [unread_eq, Guard.tokens, List.nil_append] at read_eq no_default
  refine ⟨pattern.readTo, ?_⟩
  simp only [caseValueWith, bind_apply, get_apply, no_default, Bool.false_eq_true, if_false,
    read_eq, Guard.tokens, ends, if_true, pure_apply]

/-- A label with one value is read up to the mark that ends it. -/
theorem labelWith_of_value {rules : Rules} {word : Token} {tokens : List Token} {value : Expr}
    {behind' : Nat} (is_case : word.isWord "case" = true)
    (kind : mark.kind = .colon ∨ mark.kind = .arrow)
    (read : caseValueWith rules ⟨tokens, word.span.stop⟩ = (value, ⟨mark :: rest, behind'⟩))
    (shorter : rest.length + 1 < tokens.length) (behind : Nat) :
    ∃ span, labelWith rules ⟨word :: tokens, behind⟩ =
      ((.case span [value], decide (mark.kind = .arrow)), ⟨rest, mark.span.stop⟩) := by
  have no_comma : mark.kind ≠ .comma := by
    rcases kind with kind | kind <;> simp [kind]
  have values_eq : caseValuesWith rules ⟨tokens, word.span.stop⟩ =
      ([value], ⟨mark :: rest, behind'⟩) := by
    have step : caseValueStep rules ([], true) ⟨tokens, word.span.stop⟩ =
        (some ([value], false), ⟨mark :: rest, behind'⟩) := by
      simp [caseValueStep, read, accept_apply, no_comma]
    have iterates := (Iterates.next step shorter (.stop rfl)).iterate_eq
    simp [caseValuesWith_eq, iterates]
  simp only [Token.isWord, Bool.and_eq_true, decide_eq_true_eq] at is_case
  have no_default : word.isWord "default" = false := by simp [Token.isWord, is_case]
  refine ⟨Cursor.spanFrom ⟨rest, mark.span.stop⟩ word.span.start, ?_⟩
  rcases kind with kind | kind <;>
    simp [labelWith, acceptWord_apply, no_default, values_eq, accept_apply, kind]

end

/-- A label with a pattern has one value. If the pattern binds a name or has a guard, then the
value is the excerpt that covers the pattern and its guard, and is rendered as their text. A record
pattern without a guard is not kept: the value is the call that it is read as, without the names
that it binds. -/
theorem labelWith_reads_pattern (pattern : Pattern) (guard : Option Guard) {n : Nat}
    (fuel : pattern.tokens.length ≤ n) {word mark : Token} (is_case : word.isWord "case" = true)
    (kind : mark.kind = .colon ∨ mark.kind = .arrow) (rest : List Token) (behind : Nat) :
    ∃ span value, labelWith (rules (n + 1))
        ⟨word :: (pattern.tokens ++ Guard.tokens guard ++ mark :: rest), behind⟩ =
      ((.case span [value], decide (mark.kind = .arrow)), ⟨rest, mark.span.stop⟩) ∧
      (pattern.isRecord = false ∨ guard.isSome → ∃ covered,
        covered = Token.spanOf (pattern.tokens ++ Guard.tokens guard) ∧
          value = .excerpt covered .pattern ∧
          ∀ (context : OutlineContext) (text : String),
            context.source.slice? covered = some text → context.renderAll [value] = .ok text) ∧
      (pattern.isRecord = true → guard = none → value = pattern.value) := by
  have shorter : rest.length + 1 <
      (pattern.tokens ++ Guard.tokens guard ++ mark :: rest).length := by
    obtain ⟨word, next, more, tokens_eq, -⟩ := pattern.exists_tokens_eq
    simp [tokens_eq]
    omega
  by_cases kept : pattern.isRecord = false ∨ guard.isSome
  · obtain ⟨behind', read⟩ := caseValueWith_of_kept rest kept fuel kind word.span.stop
    obtain ⟨span, label_eq⟩ := labelWith_of_value rest is_case kind read shorter behind
    refine ⟨span, _, label_eq, fun _ => ⟨_, rfl, rfl, fun context text sliced => ?_⟩, ?_⟩
    · simp [OutlineContext.renderAll, Expr.renderAll, Expr.render, Expr.copy, Expr.span, sliced]
    · rintro record rfl
      simp [record] at kept
  · obtain ⟨not_binding, not_guarded⟩ := not_or.mp kept
    obtain rfl : guard = none := by simpa using not_guarded
    have record : pattern.isRecord = true := by simpa using not_binding
    obtain ⟨behind', read⟩ := caseValueWith_of_record rest record fuel kind word.span.stop
    obtain ⟨span, label_eq⟩ := labelWith_of_value rest is_case kind read shorter behind
    exact ⟨span, _, label_eq, fun kept' => (kept kept').elim, fun _ _ => rfl⟩

/-- The pattern `P(A a)`, at offset 5. -/
def recordPattern : Pattern :=
  .record (.simple ⟨⟨.word, "P", ⟨5, 6⟩⟩, rfl, by decide⟩) ⟨⟨.openParen, "(", ⟨6, 7⟩⟩, rfl⟩
    (.last (.binding (.simple ⟨⟨.word, "A", ⟨7, 8⟩⟩, rfl, by decide⟩)
      ⟨⟨.word, "a", ⟨9, 10⟩⟩, rfl, by decide⟩))
    ⟨⟨.closeParen, ")", ⟨10, 11⟩⟩, rfl⟩

/-- The guard `when a.b()`, at offset 12. -/
def callGuard : Guard :=
  ⟨⟨.word, "when", ⟨12, 16⟩⟩, [⟨.word, "a", ⟨17, 18⟩⟩, ⟨.dot, ".", ⟨18, 19⟩⟩,
    ⟨.word, "b", ⟨19, 20⟩⟩, ⟨.openParen, "(", ⟨20, 21⟩⟩, ⟨.closeParen, ")", ⟨21, 22⟩⟩],
    by decide, rfl⟩

/-- With a guard, the pattern is kept. -/
theorem labelWith_reads_recordPattern : ∃ span, labelWith (rules 6)
    ⟨⟨.word, "case", ⟨0, 4⟩⟩ :: (recordPattern.tokens ++ Guard.tokens (some callGuard) ++
      [⟨.arrow, "->", ⟨23, 25⟩⟩]), 0⟩ =
    ((.case span [.excerpt ⟨5, 22⟩ .pattern], true), ⟨[], 25⟩) := by
  have fuel : recordPattern.tokens.length ≤ 5 := by decide
  have is_case : Token.isWord ⟨.word, "case", ⟨0, 4⟩⟩ "case" = true := by decide
  have kind : Token.kind ⟨.arrow, "->", ⟨23, 25⟩⟩ = .colon ∨
      Token.kind ⟨.arrow, "->", ⟨23, 25⟩⟩ = .arrow := .inr rfl
  obtain ⟨span, value, label_eq, kept, -⟩ :=
    labelWith_reads_pattern recordPattern (some callGuard) fuel is_case kind [] 0
  obtain ⟨_, rfl, rfl, -⟩ := kept (.inr rfl)
  exact ⟨span, label_eq⟩

end Parser

set_option maxRecDepth 8000 in
/-- Without a guard, a record pattern is read as a call, and the name that it binds is lost. -/
theorem Block.read_recordPattern :
    Block.read (.ofString "\x7bswitch(s)\x7bcase P(A a):\x7d\x7d") 0 =
      .ok (.mk ⟨0, 25⟩ [.switch ⟨1, 24⟩ (.name ⟨8, 9⟩ "s") [.mk ⟨11, 23⟩ false
        [.case ⟨11, 23⟩ [.call ⟨16, 22⟩ ⟨"P", ⟨16, 17⟩⟩ [.name ⟨18, 19⟩ "A"]]] []]]) := by
  have scanned : Token.scan? 0 (Source.ofString "\x7bswitch(s)\x7bcase P(A a):\x7d\x7d").chars = .ok
      [⟨.openBrace, "\x7b", ⟨0, 1⟩⟩, ⟨.word, "switch", ⟨1, 7⟩⟩, ⟨.openParen, "(", ⟨7, 8⟩⟩,
       ⟨.word, "s", ⟨8, 9⟩⟩, ⟨.closeParen, ")", ⟨9, 10⟩⟩, ⟨.openBrace, "\x7b", ⟨10, 11⟩⟩,
       ⟨.word, "case", ⟨11, 15⟩⟩, ⟨.word, "P", ⟨16, 17⟩⟩, ⟨.openParen, "(", ⟨17, 18⟩⟩,
       ⟨.word, "A", ⟨18, 19⟩⟩, ⟨.word, "a", ⟨20, 21⟩⟩, ⟨.closeParen, ")", ⟨21, 22⟩⟩,
       ⟨.colon, ":", ⟨22, 23⟩⟩, ⟨.closeBrace, "\x7d", ⟨23, 24⟩⟩,
       ⟨.closeBrace, "\x7d", ⟨24, 25⟩⟩] := by
    decide +kernel
  rw [Block.read, scanned]
  rfl

end JavaOutline
