import JavaOutline.Proofs.Reading.Lookahead

/-!
# The tokens of rendered expressions

What the grammar looks at before it commits itself: how the tokens of a rendered expression begin,
which parenthesis comes first among them, and where type arguments would have to stop.
-/

namespace JavaOutline

open Token (Lexeme spelled)

namespace Token

theorem AllPlain.append {left right : List Token} (first : AllPlain left)
    (second : AllPlain right) : AllPlain (left ++ right) := by
  intro token member
  rcases List.mem_append.mp member with member | member
  · exact first token member
  · exact second token member

/-- Tokens that hold no arrow and no annotation, and no closing parenthesis before the first
opening one. -/
structure Regular (tokens : List Token) : Prop where
  plain : AllPlain tokens
  opens : ∀ token ∈ tokens.find? isParen, token.kind = .openParen

theorem Regular.append {left right : List Token} (first : Regular left) (second : Regular right) :
    Regular (left ++ right) := by
  refine ⟨first.plain.append second.plain, ?_⟩
  intro token found
  rw [List.find?_append] at found
  cases left_eq : left.find? isParen with
  | none =>
      rw [left_eq, Option.none_or] at found
      exact second.opens token found
  | some paren =>
      rw [left_eq, Option.some_or] at found
      exact first.opens token (left_eq ▸ found)

/-- Regular tokens that type arguments do not pass, unless all of them can stand among these. -/
structure Bounded (tokens : List Token) : Prop extends Regular tokens where
  bound : (∀ token ∈ tokens, token.kind.isTypeArgument = true) ∨
    ∃ front stop rest, tokens = front ++ stop :: rest ∧
      (∀ token ∈ front, token.kind.isTypeArgument = true) ∧
      stop.kind.isTypeArgument = false ∧ stop.kind ≠ .less ∧ stop.kind ≠ .greater

theorem Bounded.append {left right : List Token} (first : Bounded left) (second : Bounded right) :
    Bounded (left ++ right) := by
  refine ⟨first.toRegular.append second.toRegular, ?_⟩
  rcases first.bound with arguments | ⟨front, stop, rest, rfl, arguments, blocks⟩
  · rcases second.bound with arguments' | ⟨front, stop, rest, rfl, arguments', blocks⟩
    · refine .inl fun token member => ?_
      rcases List.mem_append.mp member with member | member
      · exact arguments token member
      · exact arguments' token member
    · refine .inr ⟨left ++ front, stop, rest, by simp, fun token member => ?_, blocks⟩
      rcases List.mem_append.mp member with member | member
      · exact arguments token member
      · exact arguments' token member
  · exact .inr ⟨front, stop, rest ++ right, by simp, arguments, blocks⟩

theorem Bounded.nil : Bounded [] :=
  ⟨⟨by simp [AllPlain], by simp⟩, .inl (by simp)⟩

/-- Tokens that can all stand among type arguments are bounded. -/
theorem bounded_of_arguments {tokens : List Token}
    (arguments : ∀ token ∈ tokens, token.kind.isTypeArgument = true ∧ token.kind ≠ .atSign) :
    Bounded tokens := by
  have clear : ∀ token ∈ tokens, token.isParen = false ∧ token.IsPlain := by
    intro token member
    obtain ⟨argument, no_annotation⟩ := arguments token member
    refine ⟨?_, ?_, no_annotation, ?_⟩
    · cases kind_eq : token.kind <;> simp_all [TokenKind.isTypeArgument, isParen]
    · rintro arrow
      simp [arrow, TokenKind.isTypeArgument] at argument
    · intro less
      simp [less, TokenKind.isTypeArgument] at argument
  refine ⟨⟨fun token member => (clear token member).2, ?_⟩, .inl fun token member =>
    (arguments token member).1⟩
  rw [List.find?_eq_none.mpr fun token member => by simp [(clear token member).1]]
  simp

/-- What stands in parentheses is bounded. -/
theorem bounded_group {opening closing : Token} {inner : List Token}
    (opens : opening.kind = .openParen) (closes : closing.kind = .closeParen)
    (plain : AllPlain inner) : Bounded (opening :: (inner ++ [closing])) := by
  have opening_plain : opening.IsPlain := by constructor <;> simp [opens]
  have closing_plain : closing.IsPlain := by constructor <;> simp [closes]
  have opening_paren : opening.isParen = true := by simp [isParen, opens]
  refine ⟨⟨?_, ?_⟩, .inr ⟨[], opening, inner ++ [closing], rfl, by simp, ?_⟩⟩
  · intro token member
    simp only [List.mem_cons, List.mem_append, List.not_mem_nil, or_false] at member
    rcases member with rfl | member | rfl
    · exact opening_plain
    · exact plain token member
    · exact closing_plain
  · rw [List.find?_cons_of_pos opening_paren]
    rintro _ ⟨rfl⟩
    exact opens
  · simp [opens, TokenKind.isTypeArgument]

/-- Whether a token, not a parenthesis, begins an operand. -/
def beginsOperand (token : Token) : Bool :=
  match token.kind with
  | .word => isIdentifier token.text ||
      ["this", "super", "new", "true", "false", "null"].contains token.text
  | kind => kind.isLiteral

/-- How the tokens of an operand begin: with a word or a literal, or with a group in parentheses
that is no type, and then go on to select from it. -/
inductive Leads : List Token → Prop
  | operand {first : Token} {more : List Token} (begins : first.beginsOperand = true) :
      Leads (first :: more)
  | group {opening closing : Token} {inner selectors : List Token}
      (opens : opening.kind = .openParen) (closes : closing.kind = .closeParen)
      (regular : Regular inner)
      (named : ∀ first ∈ inner.head?, first.beginsType = true → isIdentifier first.text = true)
      (selects : ∀ token ∈ selectors.head?, token.kind = .dot ∨ token.kind = .openBracket) :
      Leads (opening :: (inner ++ closing :: selectors))

theorem Leads.append {tokens selectors : List Token} (leads : Leads tokens)
    (selects : ∀ token ∈ selectors.head?, token.kind = .dot ∨ token.kind = .openBracket) :
    Leads (tokens ++ selectors) := by
  cases leads with
  | operand begins => exact .operand begins
  | @group opening closing inner before opens closes regular named selects' =>
      rw [List.cons_append, List.append_assoc, List.cons_append]
      refine .group opens closes regular named ?_
      cases before with
      | nil => exact selects
      | cons => exact selects'

theorem Leads.length_pos {tokens : List Token} (leads : Leads tokens) : 0 < tokens.length := by
  cases leads <;> simp

/-- A type that begins an operand begins with an identifier. -/
theorem named_of_beginsOperand {first : Token} (begins : first.beginsOperand = true)
    (type : first.beginsType = true) : isIdentifier first.text = true := by
  have checked : ∀ word ∈ ["this", "super", "new", "true", "false", "null"],
      isReserved word = true ∧ isPrimitive word = false := by
    decide
  simp only [beginsType, Bool.and_eq_true, decide_eq_true_eq] at type
  simp only [beginsOperand, type.1, Bool.or_eq_true] at begins
  rcases begins with identifier | member
  · exact identifier
  · have := checked first.text (by simpa using member)
    simp [this] at type

theorem Leads.named {tokens : List Token} (leads : Leads tokens) (tail : List Token) :
    ∀ first ∈ (tokens ++ tail).head?, first.beginsType = true → isIdentifier first.text = true := by
  cases leads with
  | operand begins =>
      rintro _ ⟨rfl⟩ type
      exact named_of_beginsOperand begins type
  | group opens =>
      rintro _ ⟨rfl⟩ type
      simp [beginsType, opens] at type

end Token

theorem mem_inParens {inner : Language Token} {tokens : List Token} :
    tokens ∈ inParens inner ↔ ∃ span middle span', middle ∈ inner ∧
      tokens = ⟨.openParen, "(", span⟩ :: (middle ++ [⟨.closeParen, ")", span'⟩]) := by
  simp only [inParens, Language.mem_mul, Token.mem_spelled_singleton]
  constructor
  · rintro ⟨_, ⟨_, ⟨span, rfl⟩, middle, member, rfl⟩, _, ⟨span', rfl⟩, rfl⟩
    exact ⟨span, middle, span', member, by simp⟩
  · rintro ⟨span, middle, span', member, rfl⟩
    exact ⟨_, ⟨_, ⟨span, rfl⟩, middle, member, rfl⟩, _, ⟨span', rfl⟩, by simp⟩

/-- What holds of the parts of joined tokens holds of the whole, if joining keeps it. -/
theorem forall_mem_mul {P : List Token → Prop} {left right : Language Token}
    (joins : ∀ {first second}, P first → P second → P (first ++ second))
    (lefts : ∀ tokens ∈ left, P tokens) (rights : ∀ tokens ∈ right, P tokens) :
    ∀ tokens ∈ left * right, P tokens := by
  rintro _ ⟨first, first_mem, second, second_mem, rfl⟩
  exact joins (lefts first first_mem) (rights second second_mem)

theorem forall_mem_prod {P : List Token → Prop} {spellings : List (Language Token)} (empty : P [])
    (joins : ∀ {first second}, P first → P second → P (first ++ second))
    (all : ∀ spelling ∈ spellings, ∀ tokens ∈ spelling, P tokens) :
    ∀ tokens ∈ spellings.prod, P tokens := by
  induction spellings with
  | nil =>
      rintro _ rfl
      exact empty
  | cons spelling spellings induction =>
      rw [List.prod_cons]
      exact forall_mem_mul joins (all spelling (by simp))
        (induction fun later member => all later (by simp [member]))

/-- Tokens whose lexemes are no parentheses, arrows or annotations are regular. -/
theorem regular_of_mem_spelled {lexemes : List Lexeme}
    (clear : ∀ lexeme ∈ lexemes, lexeme.1 ∉ [.openParen, .closeParen, .arrow, .atSign] ∧
      (lexeme.1 = .less → lexeme.2 = "<")) :
    ∀ tokens ∈ spelled lexemes, Token.Regular tokens := by
  rintro tokens ⟨rfl, -⟩
  have each : ∀ token ∈ tokens, token.isParen = false ∧ token.IsPlain := by
    intro token member
    obtain ⟨kind, less⟩ := clear token.lexeme (List.mem_map_of_mem member)
    simp only [Token.lexeme, List.mem_cons, List.not_mem_nil, or_false, not_or] at kind less
    exact ⟨by simp [Token.isParen, kind], kind.2.2.1, kind.2.2.2, less⟩
  refine ⟨fun token member => (each token member).2, ?_⟩
  rw [List.find?_eq_none.mpr fun token member => by simp [(each token member).1]]
  simp

/-- A token that can stand among type arguments, or a literal, is bounded. -/
theorem bounded_of_mem_spelled {kind : TokenKind} {text : String}
    (argument : kind.isTypeArgument = true ∧ kind ≠ .atSign ∨ kind.isLiteral = true) :
    ∀ tokens ∈ spelled [(kind, text)], Token.Bounded tokens := by
  intro tokens member
  obtain ⟨span, rfl⟩ := Token.mem_spelled_singleton.mp member
  rcases argument with argument | literal
  · exact Token.bounded_of_arguments (by simpa using argument)
  · have clear : kind ∉ [.openParen, .closeParen, .arrow, .atSign] ∧ kind.isTypeArgument = false ∧
        kind ≠ .less ∧ kind ≠ .greater := by
      cases kind <;> simp_all [TokenKind.isLiteral, TokenKind.isTypeArgument]
    refine ⟨regular_of_mem_spelled (by simp_all) _ member, .inr ⟨[], _, [], rfl, by simp, ?_⟩⟩
    exact clear.2

theorem bounded_of_mem_word (text : String) :
    ∀ tokens ∈ wordSpelling text, Token.Bounded tokens :=
  bounded_of_mem_spelled (.inl (by decide))

theorem TypeRef.bounded_of_mem_spelling {type : TypeRef} :
    ∀ tokens ∈ type.spelling, Token.Bounded tokens := by
  rintro tokens ⟨first, more, pairs, -, -, member⟩
  have brackets : ∀ tokens ∈ spelled [(.openBracket, "["), (.closeBracket, "]")],
      Token.Bounded tokens := by
    rintro tokens ⟨lexemes_eq, -⟩
    refine Token.bounded_of_arguments fun token member => ?_
    have lexeme_mem := List.mem_map_of_mem (f := Token.lexeme) member
    have checked : ∀ lexeme ∈ [(TokenKind.openBracket, "["), (.closeBracket, "]")],
        lexeme.1.isTypeArgument = true ∧ lexeme.1 ≠ .atSign := by
      decide
    exact checked token.lexeme (lexemes_eq ▸ lexeme_mem)
  rw [typeSpelling, ← List.prod_replicate] at member
  refine forall_mem_mul .append (forall_mem_mul .append (bounded_of_mem_word first)
    (forall_mem_prod .nil .append ?_)) (forall_mem_prod .nil .append ?_) tokens member
  · simp only [List.mem_map]
    rintro _ ⟨_, ⟨word, -, rfl⟩, rfl⟩
    exact forall_mem_mul .append (bounded_of_mem_spelled (.inl (by decide)))
      (bounded_of_mem_word word)
  · rintro _ replicated
    rw [List.eq_of_mem_replicate replicated]
    exact brackets

/-- What may stand in an operator: no parenthesis, no arrow, no annotation. -/
def IsOperator (lexemes : List Lexeme) : Prop :=
  ∀ lexeme ∈ lexemes, lexeme.1 ∉ [.openParen, .closeParen, .arrow, .atSign] ∧
    (lexeme.1 = .less → lexeme.2 = "<")

theorem UnaryOp.isOperator_lexemes (op : UnaryOp) : IsOperator op.lexemes := by
  cases op <;> simp [IsOperator, lexemes]

theorem UpdateOp.isOperator_lexemes (op : UpdateOp) : IsOperator op.lexemes := by
  cases op <;> simp [IsOperator, lexemes]

theorem BinaryOp.isOperator_lexemes (op : BinaryOp) : IsOperator op.lexemes := by
  cases op <;> simp [IsOperator, lexemes]

theorem AssignOp.isOperator_lexemes (op : AssignOp) : IsOperator op.lexemes := by
  cases op <;> simp [IsOperator, lexemes]

/-- The tokens of an operand. -/
structure Token.IsOperand (tokens : List Token) : Prop extends Token.Bounded tokens where
  leads : Token.Leads tokens

namespace Token.IsOperand

variable {tokens selectors inner : List Token}

theorem select (operand : IsOperand tokens) (bounded : Bounded selectors)
    (selects : ∀ token ∈ selectors.head?, token.kind = .dot ∨ token.kind = .openBracket) :
    IsOperand (tokens ++ selectors) :=
  ⟨operand.toBounded.append bounded, operand.leads.append selects⟩

end Token.IsOperand

open Token (Regular Bounded IsOperand AllPlain)

section

variable {left right : Language Token}

theorem regular_of_operand (operand : ∀ tokens ∈ left, IsOperand tokens) :
    ∀ tokens ∈ left, Regular tokens :=
  fun tokens member => (operand tokens member).toRegular

theorem bounded_of_operand (operand : ∀ tokens ∈ left, IsOperand tokens) :
    ∀ tokens ∈ left, Bounded tokens :=
  fun tokens member => (operand tokens member).toBounded

theorem regular_of_bounded (bounded : ∀ tokens ∈ left, Bounded tokens) :
    ∀ tokens ∈ left, Regular tokens :=
  fun tokens member => (bounded tokens member).toRegular

/-- A group that begins with no primitive type is an operand. -/
theorem isOperand_of_mem_inParens (regular : ∀ inner ∈ left, Regular inner)
    (named : ∀ inner ∈ left, ∀ first ∈ inner.head?, first.beginsType = true →
      isIdentifier first.text = true) :
    ∀ tokens ∈ inParens left, IsOperand tokens := by
  intro tokens member
  obtain ⟨span, inner, span', inner_mem, rfl⟩ := mem_inParens.mp member
  exact ⟨Token.bounded_group rfl rfl (regular inner inner_mem).plain,
    .group rfl rfl (regular inner inner_mem) (named inner inner_mem) (by simp)⟩

/-- A group that begins with an operand is an operand. -/
theorem isOperand_of_mem_operation (operand : ∀ tokens ∈ left, IsOperand tokens)
    (regular : ∀ tokens ∈ right, Regular tokens) :
    ∀ tokens ∈ inParens (left * right), IsOperand tokens := by
  apply isOperand_of_mem_inParens
  · exact forall_mem_mul .append (fun tokens member => (operand tokens member).toRegular) regular
  · rintro _ ⟨first, member, second, -, rfl⟩
    exact (operand first member).leads.named second

/-- A selection from an operand is an operand. -/
theorem isOperand_of_mem_select (operand : ∀ tokens ∈ left, IsOperand tokens)
    (bounded : ∀ tokens ∈ right, Bounded tokens)
    (selects : ∀ tokens ∈ right, ∀ token ∈ tokens.head?,
      token.kind = .dot ∨ token.kind = .openBracket) :
    ∀ tokens ∈ left * right, IsOperand tokens := by
  rintro _ ⟨first, first_mem, second, second_mem, rfl⟩
  exact (operand first first_mem).select (bounded second second_mem) (selects second second_mem)

theorem bounded_of_mem_inParens (plain : ∀ inner ∈ left, AllPlain inner) :
    ∀ tokens ∈ inParens left, Bounded tokens := by
  intro tokens member
  obtain ⟨span, inner, span', inner_mem, rfl⟩ := mem_inParens.mp member
  exact Token.bounded_group rfl rfl (plain inner inner_mem)

theorem selects_of_mem_mul {kind : TokenKind} {text : String}
    (selector : kind = .dot ∨ kind = .openBracket) :
    ∀ tokens ∈ spelled [(kind, text)] * right, ∀ token ∈ tokens.head?,
      token.kind = .dot ∨ token.kind = .openBracket := by
  rintro _ ⟨_, member, later, -, rfl⟩
  obtain ⟨span, rfl⟩ := Token.mem_spelled_singleton.mp member
  rintro _ ⟨rfl⟩
  exact selector

end

theorem plain_of_mem_withCommas {spellings : List (Language Token)}
    (all : ∀ spelling ∈ spellings, ∀ tokens ∈ spelling, AllPlain tokens) :
    ∀ tokens ∈ withCommas spellings, AllPlain tokens := by
  have empty : AllPlain [] := by simp [AllPlain]
  cases spellings with
  | nil =>
      rintro _ rfl
      exact empty
  | cons first more =>
      refine forall_mem_mul .append (all first (by simp)) (forall_mem_prod empty .append ?_)
      simp only [List.mem_map]
      rintro _ ⟨later, member, rfl⟩
      exact forall_mem_mul .append
        (fun tokens member => (bounded_of_mem_spelled (.inl (by decide)) tokens member).plain)
        (all later (by simp [member]))

theorem bounded_of_mem_arguments {spellings : List (Language Token)}
    (all : ∀ spelling ∈ spellings, ∀ tokens ∈ spelling, AllPlain tokens) :
    ∀ tokens ∈ inParens (withCommas spellings), Bounded tokens :=
  bounded_of_mem_inParens (plain_of_mem_withCommas all)

/-- What begins with a word that begins an operand is an operand. -/
theorem isOperand_of_mem_apply {word : String} {later : Language Token}
    (named : isIdentifier word = true ∨
      word ∈ ["this", "super", "new", "true", "false", "null"])
    (bounded : ∀ tokens ∈ later, Bounded tokens) :
    ∀ tokens ∈ wordSpelling word * later, IsOperand tokens := by
  rintro _ ⟨_, member, second, second_mem, rfl⟩
  refine ⟨(bounded_of_mem_word word _ member).append (bounded second second_mem), ?_⟩
  obtain ⟨span, rfl⟩ := Token.mem_spelled_singleton.mp member
  exact .operand (by simpa [Token.beginsOperand] using named)

theorem isOperand_of_mem_word {word : String}
    (named : isIdentifier word = true ∨
      word ∈ ["this", "super", "new", "true", "false", "null"]) :
    ∀ tokens ∈ wordSpelling word, IsOperand tokens := by
  have alone : ∀ tokens ∈ (1 : Language Token), Bounded tokens := by
    rintro _ rfl
    exact .nil
  have operand := isOperand_of_mem_apply named alone
  rwa [mul_one] at operand

theorem isOperand_of_mem_literal {kind : LiteralKind} {text : String}
    (written : kind.isWritten text = true) :
    ∀ tokens ∈ spelled [(kind.tokenKind, text)], IsOperand tokens := by
  have literal (found : TokenKind) (is_literal : found.isLiteral = true) :
      ∀ tokens ∈ spelled [(found, text)], IsOperand tokens := by
    intro tokens member
    refine ⟨bounded_of_mem_spelled (.inr is_literal) tokens member, ?_⟩
    obtain ⟨span, rfl⟩ := Token.mem_spelled_singleton.mp member
    apply Token.Leads.operand
    cases found <;> simp_all [Token.beginsOperand, TokenKind.isLiteral]
  cases kind with
  | boolean =>
      apply isOperand_of_mem_word
      simp only [LiteralKind.isWritten, Bool.or_eq_true, decide_eq_true_eq] at written
      rcases written with rfl | rfl <;> simp
  | null =>
      apply isOperand_of_mem_word
      simp only [LiteralKind.isWritten, decide_eq_true_eq] at written
      simp [written]
  | _ => exact literal _ rfl

namespace Expr

theorem exists_of_mem_spellings {exprs : List Expr} {found : Language Token}
    (member : found ∈ spellings exprs) : ∃ expr ∈ exprs, expr.spelling = found := by
  induction exprs with
  | nil => cases member
  | cons expr exprs induction =>
      rcases List.mem_cons.mp member with rfl | member
      · exact ⟨expr, by simp, rfl⟩
      · obtain ⟨later, later_mem, spelling_eq⟩ := induction member
        exact ⟨later, by simp [later_mem], spelling_eq⟩

mutual

/-- The tokens of a writable expression are those of an operand. -/
theorem isOperand_of_mem_spelling : ∀ expr : Expr, expr.Writable →
    ∀ tokens ∈ expr.spelling, IsOperand tokens
  | name _ text, identifier => isOperand_of_mem_word (.inl identifier)
  | literal _ kind text, written => isOperand_of_mem_literal written
  | this _, _ => isOperand_of_mem_word (.inr (by decide))
  | super _, _ => isOperand_of_mem_word (.inr (by decide))
  | fieldAccess _ receiver field, ⟨writable, _, _⟩ =>
      isOperand_of_mem_select (isOperand_of_mem_spelling receiver writable)
        (forall_mem_mul .append (bounded_of_mem_spelled (.inl (by decide))) (bounded_of_mem_word _))
        (selects_of_mem_mul (.inl rfl))
  | arrayAccess _ array index, ⟨array_writable, index_writable⟩ => by
      refine isOperand_of_mem_select (isOperand_of_mem_spelling array array_writable)
        (forall_mem_mul .append (forall_mem_mul .append (bounded_of_mem_spelled (.inl (by decide)))
          (bounded_of_operand (isOperand_of_mem_spelling index index_writable)))
          (bounded_of_mem_spelled (.inl (by decide)))) ?_
      rw [mul_assoc]
      exact selects_of_mem_mul (.inr rfl)
  | call _ method arguments, ⟨named, writable⟩ => by
      have word : isIdentifier method.text = true ∨
          method.text ∈ ["this", "super", "new", "true", "false", "null"] := by
        rcases named with identifier | this_eq | super_eq
        · exact .inl identifier
        · simp [this_eq]
        · simp [super_eq]
      exact isOperand_of_mem_apply word
        (bounded_of_mem_arguments (plain_of_mem_spellings arguments writable))
  | memberCall _ receiver method arguments, ⟨writable, _, _, all_writable⟩ => by
      refine isOperand_of_mem_select (isOperand_of_mem_spelling receiver writable)
        (forall_mem_mul .append (forall_mem_mul .append (bounded_of_mem_spelled (.inl (by decide)))
          (bounded_of_mem_word _)) (bounded_of_mem_arguments
            (plain_of_mem_spellings arguments all_writable))) ?_
      rw [mul_assoc]
      exact selects_of_mem_mul (.inl rfl)
  | creation _ type arguments _, ⟨dotted, writable, _⟩ => by
      rw [spelling, mul_assoc]
      exact isOperand_of_mem_apply (.inr (by decide)) (forall_mem_mul .append
        TypeRef.bounded_of_mem_spelling
        (bounded_of_mem_arguments (plain_of_mem_spellings arguments writable)))
  | innerCreation _ outer type arguments _, ⟨writable, _, dotted, all_writable, _⟩ => by
      refine isOperand_of_mem_select (isOperand_of_mem_spelling outer writable)
        (forall_mem_mul .append (forall_mem_mul .append (forall_mem_mul .append
          (bounded_of_mem_spelled (.inl (by decide))) (bounded_of_mem_word _))
            TypeRef.bounded_of_mem_spelling) (bounded_of_mem_arguments
              (plain_of_mem_spellings arguments all_writable))) ?_
      rw [mul_assoc, mul_assoc]
      exact selects_of_mem_mul (.inl rfl)
  | unary _ op operand, writable => by
      refine isOperand_of_mem_inParens (forall_mem_mul .append
        (regular_of_mem_spelled op.isOperator_lexemes)
        (regular_of_operand (isOperand_of_mem_spelling operand writable))) ?_
      rintro _ ⟨_, member, later, -, rfl⟩
      obtain ⟨kind, text, lexemes_eq, no_word⟩ : ∃ kind text, op.lexemes = [(kind, text)] ∧
          kind ≠ .word := by
        cases op <;> simp [UnaryOp.lexemes]
      rw [lexemes_eq] at member
      obtain ⟨span, rfl⟩ := Token.mem_spelled_singleton.mp member
      rintro _ ⟨rfl⟩ type
      simp [Token.beginsType, no_word] at type
  | update _ op operand, writable =>
      isOperand_of_mem_operation (isOperand_of_mem_spelling operand writable)
        (regular_of_mem_spelled op.isOperator_lexemes)
  | binary _ op left right, ⟨left_writable, right_writable⟩ => by
      rw [spelling, mul_assoc]
      exact isOperand_of_mem_operation (isOperand_of_mem_spelling left left_writable)
        (forall_mem_mul .append (regular_of_mem_spelled op.isOperator_lexemes)
          (regular_of_operand (isOperand_of_mem_spelling right right_writable)))
  | instanceOf _ operand type binding, ⟨writable, plain, identifier⟩ => by
      have bound : ∀ tokens ∈ (binding.map wordSpelling).getD 1, Bounded tokens := by
        cases binding with
        | none =>
            rintro _ rfl
            exact .nil
        | some binding => exact bounded_of_mem_word binding
      rw [spelling, mul_assoc, mul_assoc]
      exact isOperand_of_mem_operation (isOperand_of_mem_spelling operand writable)
        (regular_of_bounded (forall_mem_mul .append (bounded_of_mem_word _)
          (forall_mem_mul .append TypeRef.bounded_of_mem_spelling bound)))
  | conditional _ condition whenTrue whenFalse, ⟨writable, true_writable, false_writable⟩ => by
      have question : ∀ tokens ∈ spelled [(.question, "?")], Regular tokens :=
        regular_of_mem_spelled (by simp)
      have colon : ∀ tokens ∈ spelled [(.colon, ":")], Regular tokens :=
        regular_of_mem_spelled (by simp)
      rw [spelling, mul_assoc, mul_assoc, mul_assoc]
      exact isOperand_of_mem_operation (isOperand_of_mem_spelling condition writable)
        (forall_mem_mul .append question (forall_mem_mul .append
          (regular_of_operand (isOperand_of_mem_spelling whenTrue true_writable))
          (forall_mem_mul .append colon
            (regular_of_operand (isOperand_of_mem_spelling whenFalse false_writable)))))
  | assignment _ op target value, ⟨target_writable, value_writable⟩ => by
      rw [spelling, mul_assoc]
      exact isOperand_of_mem_operation (isOperand_of_mem_spelling target target_writable)
        (forall_mem_mul .append (regular_of_mem_spelled op.isOperator_lexemes)
          (regular_of_operand (isOperand_of_mem_spelling value value_writable)))
  | cast _ type operand, ⟨plain, writable⟩ => by
      refine isOperand_of_mem_inParens (forall_mem_mul .append
        (regular_of_bounded (bounded_of_mem_inParens fun tokens member =>
          (TypeRef.bounded_of_mem_spelling tokens member).plain))
        (regular_of_operand (isOperand_of_mem_spelling operand writable))) ?_
      rintro _ ⟨_, member, later, -, rfl⟩
      obtain ⟨span, inner, span', -, rfl⟩ := mem_inParens.mp member
      rintro _ ⟨rfl⟩ type
      simp [Token.beginsType] at type
  | parenthesized _ inner, writable => by
      rw [spelling]
      split_ifs with parens
      · exact isOperand_of_mem_spelling inner writable
      · refine isOperand_of_mem_inParens
          (regular_of_operand (isOperand_of_mem_spelling inner writable)) ?_
        intro tokens member
        have named := (isOperand_of_mem_spelling inner writable tokens member).leads.named []
        rwa [List.append_nil] at named

theorem plain_of_mem_spellings : ∀ exprs : List Expr, AllWritable exprs →
    ∀ spelling ∈ spellings exprs, ∀ tokens ∈ spelling, AllPlain tokens
  | [], _ => by simp [spellings]
  | expr :: exprs, ⟨writable, all_writable⟩ => by
      intro spelling member
      rcases List.mem_cons.mp member with rfl | member
      · exact fun tokens member => (isOperand_of_mem_spelling expr writable tokens member).plain
      · exact plain_of_mem_spellings exprs all_writable spelling member

end

end Expr

end JavaOutline
