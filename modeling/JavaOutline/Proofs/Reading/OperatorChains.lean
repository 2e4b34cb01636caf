import JavaOutline.Proofs.Java.Precedence
import JavaOutline.Proofs.Reading.RenderedOperations

/-!
# Reading operators in order of precedence

Operands that are single tokens, with binary operators between them and type tests behind them, are
read as the expression that has them in this order and is grouped by precedence. The induction is
on the number of tokens: what an operator takes as its right operand, and what is then left to be
read, are both shorter than what it was read from.
-/

namespace JavaOutline

open Token (spelled)

/-- The operand that a token is by itself: a literal, or a name. -/
def Token.operand? (token : Token) : Option Expr :=
  match token.kind with
  | .integer => some (.literal token.span .integer token.text)
  | .floating => some (.literal token.span .floating token.text)
  | .character => some (.literal token.span .character token.text)
  | .string => some (.literal token.span .string token.text)
  | .textBlock => some (.literal token.span .textBlock token.text)
  | .word =>
    if token.text = "true" || token.text = "false" then
      some (.literal token.span .boolean token.text)
    else if token.text = "null" then some (.literal token.span .null token.text)
    else if isReserved token.text then none
    else some (.name token.span token.text)
  | _ => none

/-- How a chain of operations goes on behind an operand: with an operator and an operand, or with a
type test. A type test is followed by operators that bind less, if by any. -/
inductive Continues : (tested : Bool) → List Token → List ChainItem → Prop
  | done {tested : Bool} : Continues tested [] []
  | operator {tested : Bool} {op : BinaryOp} {symbol rest : List Token} {token : Token}
      {operand : Expr} {items : List ChainItem} (symbol_mem : symbol ∈ spelled op.lexemes)
      (looser : tested = true → op.precedence < instanceOfPrecedence)
      (operand_eq : token.operand? = some operand) (later : Continues false rest items) :
      Continues tested (symbol ++ token :: rest) (.operator op :: .operand operand :: items)
  | test {word type : Token} {rest : List Token} {items : List ChainItem}
      (word_eq : word.isWord "instanceof" = true) (begins : type.beginsType = true)
      (later : Continues true rest items) :
      Continues false (word :: type :: rest) (.test type.text none :: items)

/-- The tokens of a chain of operations, from its first operand on. -/
inductive OperatorChain : List Token → List ChainItem → Prop
  | intro {token : Token} {operand : Expr} {rest : List Token} {items : List ChainItem}
      (operand_eq : token.operand? = some operand) (later : Continues false rest items) :
      OperatorChain (token :: rest) (.operand operand :: items)

/-- Tokens that are none, or begin with a closing parenthesis or a semicolon. -/
def EndsChain (tail : List Token) : Prop :=
  ∀ token ∈ tail.head?, token.kind = .closeParen ∨ token.kind = .semicolon

namespace Token

variable {token : Token} {operand : Expr}

/-- A token that is an operand is a word or a literal. -/
theorem kind_ne_of_operand?_eq (operand_eq : token.operand? = some operand) {kind : TokenKind}
    (other : kind ≠ .word ∧ kind.isLiteral = false) : token.kind ≠ kind := by
  rintro rfl
  cases kind_eq : token.kind <;> simp_all [operand?, TokenKind.isLiteral]

theorem isAtomic_of_operand?_eq (operand_eq : token.operand? = some operand) :
    operand.IsAtomic := by
  unfold operand? at operand_eq
  split at operand_eq <;> try split_ifs at operand_eq
  all_goals cases operand_eq <;> trivial

end Token

namespace Parser

/-- A token that is an operand by itself is read as one, if no arguments follow it. -/
theorem primaryWith_of_operand?_eq {token : Token} {operand : Expr}
    (operand_eq : token.operand? = some operand) (rules : Rules) {rest : List Token}
    (no_arguments : ∀ behind, Cursor.isAt ⟨rest, behind⟩ .openParen = false) (behind : Nat) :
    primaryWith rules ⟨token :: rest, behind⟩ = (some operand, ⟨rest, token.span.stop⟩) := by
  obtain ⟨kind, text, span⟩ := token
  cases kind with
  | word =>
      simp only [Token.operand?, Bool.or_eq_true, decide_eq_true_eq] at operand_eq
      split_ifs at operand_eq with boolean null reserved <;>
        obtain rfl := Option.some.inj operand_eq
      · simp [primaryWith, wordWith, boolean]
      · simp [primaryWith, wordWith, null]
      · have free : isReserved text = false := by simpa using reserved
        simp [primaryWith, wordWith_of_not_isReserved free, no_arguments]
  | integer | floating | character | string | textBlock =>
      obtain rfl := Option.some.inj operand_eq
      simp [primaryWith]
  | _ => cases operand_eq

/-- A type that is a single word is read, if nothing follows that goes on with it. -/
theorem typeRef_of_beginsType {token : Token} {rest : List Token} (begins : token.beginsType = true)
    (ends : ∀ next ∈ rest.head?, next.kind ∉ [.less, .dot, .openBracket]) (behind : Nat) :
    ∃ span, typeRef ⟨token :: rest, behind⟩ = (⟨token.text, span⟩, ⟨rest, token.span.stop⟩) := by
  have kind_eq : token.kind = .word := by
    simp only [Token.beginsType, Bool.and_eq_true, decide_eq_true_eq] at begins
    exact begins.1
  have no_annotations :
      skipAnnotations ⟨token :: rest, behind⟩ = ((), ⟨token :: rest, behind⟩) :=
    repeatWhile_of_false (by simp [kind_eq, atAnnotation])
  have rest_eq : Cursor.typeRest? 0 token.text token.span.stop rest =
      some (token.text, ⟨rest, token.span.stop⟩) := by
    cases rest with
    | nil => rfl
    | cons next rest =>
        have kind := ends next rfl
        simp only [List.mem_cons, List.not_mem_nil, or_false, not_or] at kind
        simp [Cursor.typeRest?.eq_def, kind]
  have no_pairs : Cursor.afterBrackets token.span.stop rest =
      (0, ⟨rest, token.span.stop⟩) := by
    rcases rest with _ | ⟨next, _ | ⟨following, rest⟩⟩
    · rfl
    · rfl
    · have kind := ends next rfl
      simp only [List.mem_cons, List.not_mem_nil, or_false, not_or] at kind
      simp [Cursor.afterBrackets, kind]
  refine ⟨Cursor.spanFrom ⟨rest, token.span.stop⟩ token.span.start, ?_⟩
  simp [typeRef, typeRef?, no_annotations, begins, typeRest?, rest_eq, skipBracketPairs, no_pairs]

/-- Type arguments do not run past the end of a chain, and no method reference follows them in
it. -/
theorem isAt_afterTypeArguments? {tokens tail : List Token} {depth behind : Nat} {after : Cursor}
    (no_reference : ∀ token ∈ tokens, token.kind ≠ .doubleColon) (ends : EndsChain tail)
    (found : Cursor.afterTypeArguments? depth behind (tokens ++ tail) = some after) :
    after.isAt .doubleColon = false := by
  induction tokens generalizing depth behind with
  | nil =>
      cases tail with
      | nil =>
          cases depth with
          | zero =>
              obtain rfl := Option.some.inj found
              rfl
          | succ depth => cases found
      | cons token tail =>
          cases depth with
          | zero =>
              obtain rfl := Option.some.inj found
              rcases ends token rfl with kind | kind <;> simp [kind]
          | succ depth =>
              rcases ends token rfl with kind | kind <;>
                simp [Cursor.afterTypeArguments?, kind, TokenKind.isTypeArgument] at found
  | cons token tokens induction =>
      have later {depth behind : Nat}
          (found : Cursor.afterTypeArguments? depth behind (tokens ++ tail) = some after) :=
        induction (fun token member => no_reference token (List.mem_cons_of_mem _ member)) found
      cases depth with
      | zero =>
          obtain rfl := Option.some.inj found
          simpa using no_reference token List.mem_cons_self
      | succ depth =>
          rw [List.cons_append, Cursor.afterTypeArguments?] at found
          split at found
          · exact later found
          · exact later found
          · split_ifs at found
            exact later found

end Parser

namespace Continues

variable {tested : Bool} {tokens tail : List Token} {items : List ChainItem}

theorem no_reference (continues : Continues tested tokens items) :
    ∀ token ∈ tokens, token.kind ≠ .doubleColon := by
  induction continues with
  | done => simp
  | @operator _ op symbol rest token operand _ symbol_mem _ operand_eq _ induction =>
      have clear : ∀ lexeme ∈ op.lexemes, lexeme.1 ≠ .doubleColon := by cases op <;> decide
      intro found member
      rcases List.mem_append.mp member with in_symbol | later
      · exact clear found.lexeme (symbol_mem.1 ▸ List.mem_map_of_mem in_symbol)
      · rcases List.mem_cons.mp later with rfl | in_rest
        · exact Token.kind_ne_of_operand?_eq operand_eq (by decide)
        · exact induction found in_rest
  | test word_eq begins _ induction =>
      simp only [Token.isWord, Bool.and_eq_true, decide_eq_true_eq] at word_eq
      simp only [Token.beginsType, Bool.and_eq_true, decide_eq_true_eq] at begins
      intro found member
      rcases List.mem_cons.mp member with rfl | later
      · simp [word_eq.1]
      · rcases List.mem_cons.mp later with rfl | in_rest
        · simp [begins.1]
        · exact induction found in_rest

/-- An operator of a chain is recognised, and nothing is selected from the operand before it. -/
theorem recognised {op : BinaryOp} {symbol rest : List Token} {token : Token} {operand : Expr}
    (symbol_mem : symbol ∈ spelled op.lexemes) (operand_eq : token.operand? = some operand)
    (later : Continues false rest items) (ends : EndsChain tail) :
    (∃ first more, symbol = first :: more ∧ first.endsOperand = true) ∧
      Parser.StopsSelection (symbol ++ token :: (rest ++ tail)) ∧
      ∀ behind,
        Cursor.isAtWord ⟨symbol ++ token :: (rest ++ tail), behind⟩ "instanceof" = false ∧
        Cursor.binaryOp? ⟨symbol ++ token :: (rest ++ tail), behind⟩ =
          some (op, symbol.length) := by
  have begins : ∀ first ∈ (token :: (rest ++ tail)).head?,
      first.kind ≠ .greater ∧ first.kind ≠ .greaterEqual := by
    rintro _ ⟨rfl⟩
    constructor <;> exact Token.kind_ne_of_operand?_eq operand_eq (by decide)
  have clear : ∀ found ∈ token :: rest, found.kind ≠ .doubleColon := by
    intro found member
    rcases List.mem_cons.mp member with rfl | in_rest
    · exact Token.kind_ne_of_operand?_eq operand_eq (by decide)
    · exact later.no_reference found in_rest
  obtain ⟨⟨first, more, rfl, first_ends, no_word⟩, stops, op_eq⟩ :=
    Parser.BinaryOp.of_mem symbol_mem begins
      fun _ _ found => Parser.isAt_afterTypeArguments? clear ends found
  exact ⟨⟨first, more, rfl, first_ends⟩, stops,
    fun behind => ⟨by simp [Token.isWord, no_word], op_eq behind⟩⟩

/-- What goes on behind an operand begins no other operand. -/
theorem endsOperand (continues : Continues tested tokens items) (ends : EndsChain tail) :
    ∀ first ∈ (tokens ++ tail).head?, first.endsOperand = true := by
  cases continues with
  | done =>
      intro first first_eq
      rcases ends first first_eq with kind | kind <;>
        simp [Token.endsOperand, kind, TokenKind.isLiteral]
  | operator symbol_mem _ operand_eq later =>
      obtain ⟨⟨first, more, rfl, first_ends⟩, -⟩ := recognised symbol_mem operand_eq later ends
      rintro _ ⟨rfl⟩
      exact first_ends
  | test word_eq _ _ =>
      simp only [Token.isWord, Bool.and_eq_true, decide_eq_true_eq] at word_eq
      rintro _ ⟨rfl⟩
      simp [Token.endsOperand, word_eq]

theorem isAt_openParen (continues : Continues tested tokens items) (ends : EndsChain tail)
    (behind : Nat) : Cursor.isAt ⟨tokens ++ tail, behind⟩ .openParen = false := by
  have first_ends := continues.endsOperand ends
  cases rest_eq : tokens ++ tail with
  | nil => rfl
  | cons first rest =>
      have first_ends := first_ends first (by simp [rest_eq])
      rw [Cursor.isAt_cons, decide_eq_false_iff_not]
      intro kind
      simp [Token.endsOperand, kind] at first_ends

theorem stopsSelection (continues : Continues tested tokens items) (ends : EndsChain tail) :
    Parser.StopsSelection (tokens ++ tail) := by
  cases continues with
  | done =>
      cases tail with
      | nil => exact fun _ _ _ => rfl
      | cons token tail =>
          apply Parser.stopsSelection_cons
          rcases ends token rfl with kind | kind <;> simp [kind]
  | operator symbol_mem _ operand_eq later =>
      rw [List.append_assoc, List.cons_append]
      exact (recognised symbol_mem operand_eq later ends).2.1
  | test word_eq _ _ =>
      simp only [Token.isWord, Bool.and_eq_true, decide_eq_true_eq] at word_eq
      apply Parser.stopsSelection_cons
      simp [word_eq.1]

/-- What follows a type test goes on with no type, no arguments and no name. -/
theorem kind_of_tested (continues : Continues true tokens items) (ends : EndsChain tail) :
    ∀ first ∈ (tokens ++ tail).head?,
      first.kind ∉ [.less, .dot, .openBracket, .openParen, .word] := by
  generalize tested_eq : true = tested at continues
  cases continues with
  | done =>
      intro first first_eq
      rcases ends first first_eq with kind | kind <;> simp [kind]
  | @operator _ op _ _ _ _ _ symbol_mem looser _ _ =>
      have looser := looser tested_eq.symm
      cases op with
      | or | and | bitOr | bitXor | bitAnd | equal | notEqual =>
          obtain ⟨span, rfl⟩ := Token.mem_spelled_singleton.mp symbol_mem
          rintro _ ⟨rfl⟩
          simp
      | _ => exact absurd looser (by decide)
  | test => cases tested_eq

end Continues

namespace Parser

section

variable {rest tail : List Token} {items : List ChainItem} {tested : Bool} {n least : Nat}

/-- An operand of a chain is read by itself. -/
theorem unaryWith_of_operand?_eq {token : Token} {operand : Expr}
    (operand_eq : token.operand? = some operand) (later : Continues tested rest items)
    (ends : EndsChain tail) (behind : Nat) :
    unaryWith (rules n) ⟨token :: (rest ++ tail), behind⟩ =
      (some operand, ⟨rest ++ tail, token.span.stop⟩) := by
  have kind_ne :
      token.kind ∉ [.plus, .minus, .bang, .tilde, .increment, .decrement, .openParen] := by
    intro member
    have other : ∀ kind ∈ [TokenKind.plus, .minus, .bang, .tilde, .increment, .decrement,
        .openParen], kind ≠ .word ∧ kind.isLiteral = false := by decide
    exact Token.kind_ne_of_operand?_eq operand_eq (other token.kind member) rfl
  have primary := primaryWith_of_operand?_eq operand_eq (rules n) (later.isAt_openParen ends) behind
  rw [unaryWith_of_kind kind_ne]
  exact operandWith_eq primary (.stop (later.stopsSelection ends n operand token.span.stop))

/-- An operator is read with its right operand. -/
theorem exists_step_operator {op : BinaryOp} {symbol after : List Token} {token : Token}
    {operand right : Expr} {behind' : Nat} (symbol_mem : symbol ∈ spelled op.lexemes)
    (operand_eq : token.operand? = some operand) (later : Continues false rest items)
    (ends : EndsChain tail) (binds : least ≤ op.precedence)
    (read : ∀ behind, binaryWith (rules n) (op.precedence + 1) ⟨token :: (rest ++ tail), behind⟩ =
      (some right, ⟨after, behind'⟩)) (left : Expr) (behind : Nat) :
    ∃ span, binaryStepWith (rules (n + 1)) least left
      ⟨symbol ++ token :: (rest ++ tail), behind⟩ =
        (some (.binary span op left right), ⟨after, behind'⟩) := by
  obtain ⟨no_test, op_eq⟩ := (Continues.recognised symbol_mem operand_eq later ends).2.2 behind
  obtain ⟨middle, advance_eq⟩ := advance_append symbol (token :: (rest ++ tail)) behind
  have right_eq : orMissing ((rules (n + 1)).binary (op.precedence + 1))
      ⟨token :: (rest ++ tail), middle⟩ = (right, ⟨after, behind'⟩) :=
    orMissing_of_some (read middle)
  have enough : ¬op.precedence < least := by omega
  refine ⟨Cursor.spanFrom ⟨after, behind'⟩ left.span.start, ?_⟩
  simp [binaryStepWith, no_test, op_eq, enough, advance_eq, right_eq]

/-- A type test is read with its type. -/
theorem exists_step_test {word type : Token} (word_eq : word.isWord "instanceof" = true)
    (begins : type.beginsType = true) (later : Continues true rest items) (ends : EndsChain tail)
    (binds : least ≤ instanceOfPrecedence) (left : Expr) (behind : Nat) :
    ∃ span span', binaryStepWith (rules n) least left
      ⟨word :: type :: (rest ++ tail), behind⟩ =
        (some (.instanceOf span left ⟨type.text, span'⟩ none),
          ⟨rest ++ tail, type.span.stop⟩) := by
  have kind_ne := later.kind_of_tested ends
  generalize rest ++ tail = following at kind_ne ⊢
  obtain ⟨span', type_eq⟩ := typeRef_of_beginsType begins
    (fun next next_eq member => kind_ne next next_eq (by simp_all)) word.span.stop
  have no_final : type.isWord "final" = false := by
    by_contra final
    simp only [Token.isWord, Bool.not_eq_false, Bool.and_eq_true, decide_eq_true_eq] at final
    simp only [Token.beginsType, final] at begins
    exact absurd begins (by decide)
  have no_parens (behind : Nat) : skipParens ⟨following, behind⟩ = ((), ⟨following, behind⟩) := by
    cases following with
    | nil => rfl
    | cons next following =>
        have kind_ne := kind_ne next rfl
        simp_all [skipParens, skipBalanced]
  have no_binding (behind : Nat) : Cursor.isAtIdentifier ⟨following, behind⟩ = false := by
    cases following with
    | nil => rfl
    | cons next following =>
        have kind_ne := kind_ne next rfl
        simp_all
  have enough : ¬instanceOfPrecedence < least := by omega
  refine ⟨Cursor.spanFrom ⟨following, type.span.stop⟩ left.span.start, span', ?_⟩
  simp [binaryStepWith, word_eq, enough, acceptWord_apply, no_final, type_eq, no_parens, no_binding]

end

end Parser

/-- Whether the next operation of a chain, if there is one, satisfies a condition on how tight it
binds. -/
def ChainItem.NextBinds (condition : Nat → Prop) (items : List ChainItem) : Prop :=
  ∀ item ∈ items.head?, ∀ precedence ∈ item.precedence?, condition precedence

theorem ChainItem.le_of_not_looser {item : ChainItem} {items : List ChainItem}
    {least precedence : Nat} (found : item.precedence? = some precedence)
    (not_looser : ¬NextBinds (· < least) (item :: items)) : least ≤ precedence := by
  by_contra less
  refine not_looser ?_
  rintro _ ⟨rfl⟩ other other_eq
  obtain rfl := Option.some.inj (found.symm.trans other_eq)
  exact Nat.lt_of_not_le less

namespace Continues

/-- What follows a type test binds less than it. -/
theorem nextBinds_of_tested {tokens : List Token} {items : List ChainItem}
    (continues : Continues true tokens items) :
    ChainItem.NextBinds (· ≤ instanceOfPrecedence) items := by
  generalize tested_eq : true = tested at continues
  cases continues with
  | done => rintro _ ⟨⟩
  | operator _ looser _ _ =>
      rintro _ ⟨rfl⟩ _ ⟨rfl⟩
      exact (looser tested_eq.symm).le
  | test => cases tested_eq

/-- Every operation binds at level zero. -/
theorem eq_nil_of_looser {tested : Bool} {tokens : List Token} {items : List ChainItem}
    (continues : Continues tested tokens items) (looser : ChainItem.NextBinds (· < 0) items) :
    tokens = [] ∧ items = [] := by
  cases continues with
  | done => exact ⟨rfl, rfl⟩
  | operator | test => exact absurd (looser _ rfl _ rfl) (Nat.not_lt_zero _)

end Continues

namespace Parser

variable {tail : List Token}

/-- Nothing is read of a chain whose next operation binds less. -/
theorem binaryStepWith_of_looser {tested : Bool} {tokens : List Token} {items : List ChainItem}
    {least : Nat} (continues : Continues tested tokens items) (ends : EndsChain tail)
    (looser : ChainItem.NextBinds (· < least) items) (n : Nat) (left : Expr) (behind : Nat) :
    binaryStepWith (rules n) least left ⟨tokens ++ tail, behind⟩ =
      (none, ⟨tokens ++ tail, behind⟩) := by
  cases continues with
  | done =>
      cases tail with
      | nil => rfl
      | cons token tail =>
          rcases ends token rfl with kind | kind <;>
            simp [binaryStepWith, Cursor.binaryOp?, kind, Token.isWord]
  | @operator _ op symbol rest token _ _ symbol_mem _ operand_eq later =>
      obtain ⟨no_test, op_eq⟩ := (Continues.recognised symbol_mem operand_eq later ends).2.2 behind
      have less : op.precedence < least := looser _ rfl _ rfl
      rw [List.append_assoc, List.cons_append]
      simp [binaryStepWith, no_test, op_eq, less]
  | test word_eq _ _ =>
      have less : instanceOfPrecedence < least := looser _ rfl _ rfl
      simp [binaryStepWith, word_eq, less]

/-- What reading on from `left` at a level makes of the operations `items`: those that bind tight
enough are joined to it, up to one that binds less, and `others` are left. -/
structure Climbed (least : Nat) (left result : Expr) (items others : List ChainItem) : Prop where
  grouped : result.IsGrouped
  binds : left.BindsAt least → result.BindsAt least
  chain_eq : result.chain ++ others = left.chain ++ items
  looser : ChainItem.NextBinds (· < least) others

/-- Reading on after an operation that binds tight enough. -/
theorem Climbed.after {least : Nat} {left middle result : Expr}
    {items between others : List ChainItem} (climbed : Climbed least middle result between others)
    (binds : middle.BindsAt least) (chain_eq : middle.chain ++ between = left.chain ++ items) :
    Climbed least left result items others :=
  ⟨climbed.grouped, fun _ => climbed.binds binds, climbed.chain_eq.trans chain_eq, climbed.looser⟩

/-- The operations of a chain are read on from `left` as far as they bind tight enough. -/
theorem exists_climbed {tested : Bool} {tokens : List Token} {items : List ChainItem} {n : Nat}
    (continues : Continues tested tokens items) (ends : EndsChain tail) (fuel : tokens.length ≤ n)
    (least : Nat) {left : Expr} (grouped : left.IsGrouped)
    (tight : ChainItem.NextBinds left.BindsAt items) (behind : Nat) :
    ∃ result others tested' rest behind', rest.length ≤ tokens.length ∧
      Continues tested' rest others ∧ Climbed least left result items others ∧
      Iterates (binaryStepWith (rules n) least) left ⟨tokens ++ tail, behind⟩ result
        ⟨rest ++ tail, behind'⟩ := by
  by_cases looser : ChainItem.NextBinds (· < least) items
  · refine ⟨left, items, tested, tokens, behind, le_rfl, continues, ⟨grouped, id, rfl, looser⟩, ?_⟩
    exact .stop (binaryStepWith_of_looser continues ends looser n left behind)
  cases continues with
  | done => exact absurd (by rintro _ ⟨⟩) looser
  | @operator _ op symbol rest token operand items symbol_mem _ operand_eq later =>
      have binds : least ≤ op.precedence := ChainItem.le_of_not_looser rfl looser
      have positive : 0 < symbol.length := by
        obtain ⟨⟨first, more, rfl, -⟩, -⟩ :=
          Continues.recognised symbol_mem operand_eq later ends
        exact Nat.succ_pos _
      simp only [List.length_append, List.length_cons] at fuel
      obtain ⟨n, rfl⟩ : ∃ m, n = m + 1 := ⟨n - 1, by omega⟩
      have atomic := Token.isAtomic_of_operand?_eq operand_eq
      -- The right operand is what can be read on from the next token one level up.
      have rest_fuel : rest.length ≤ n := by omega
      obtain ⟨right, between, tested', rest', behind', shorter, later', climbed, iterates⟩ :=
        exists_climbed later ends rest_fuel (op.precedence + 1) atomic.isGrouped
          (fun _ _ precedence _ => atomic.bindsAt precedence) token.span.stop
      have read_eq (behind : Nat) : binaryWith (rules n) (op.precedence + 1)
          ⟨token :: (rest ++ tail), behind⟩ = (some right, ⟨rest' ++ tail, behind'⟩) := by
        simp [binaryWith, unaryWith_of_operand?_eq operand_eq later ends, iterates.iterate_eq]
      obtain ⟨span, step_eq⟩ :=
        exists_step_operator symbol_mem operand_eq later ends binds read_eq left behind
      have grouped' : (Expr.binary span op left right).IsGrouped :=
        ⟨⟨grouped, tight _ rfl _ rfl⟩, climbed.grouped, climbed.binds (atomic.bindsAt _)⟩
      have tight' : ChainItem.NextBinds (Expr.binary span op left right).BindsAt between :=
        fun item item_eq precedence found =>
          Nat.le_of_lt_succ (climbed.looser item item_eq precedence found)
      have rest'_fuel : rest'.length ≤ n + 1 := by omega
      obtain ⟨result, others, tested'', rest'', behind'', shorter', later'', climbed', iterates'⟩ :=
        exists_climbed later' ends rest'_fuel least grouped' tight' behind'
      refine ⟨result, others, tested'', rest'', behind'', ?_, later'', climbed'.after binds ?_, ?_⟩
      · simp only [List.length_append, List.length_cons]
        omega
      · have chain_eq := climbed.chain_eq
        rw [atomic.chain_eq] at chain_eq
        simp [Expr.chain, chain_eq]
      · rw [List.append_assoc, List.cons_append]
        refine .next step_eq ?_ iterates'
        simp only [List.length_append, List.length_cons]
        omega
  | @test word type rest items word_eq begins later =>
      have binds : least ≤ instanceOfPrecedence := ChainItem.le_of_not_looser rfl looser
      obtain ⟨span, span', step_eq⟩ :=
        exists_step_test (n := n) word_eq begins later ends binds left behind
      have grouped' : (Expr.instanceOf span left ⟨type.text, span'⟩ none).IsGrouped :=
        ⟨grouped, tight _ rfl _ rfl⟩
      have tight' : ChainItem.NextBinds
          (Expr.instanceOf span left ⟨type.text, span'⟩ none).BindsAt items :=
        later.nextBinds_of_tested
      simp only [List.length_cons] at fuel
      have rest_fuel : rest.length ≤ n := by omega
      obtain ⟨result, others, tested', rest', behind', shorter, later', climbed, iterates⟩ :=
        exists_climbed later ends rest_fuel least grouped' tight' type.span.stop
      refine ⟨result, others, tested', rest', behind', ?_, later', climbed.after binds ?_, ?_⟩
      · simp only [List.length_cons]
        omega
      · simp [Expr.chain]
      · refine .next step_eq ?_ iterates
        simp only [List.cons_append, List.length_cons]
        omega
termination_by tokens.length
decreasing_by
  all_goals
    subst_vars
    simp only [List.length_append, List.length_cons]
    omega

/-- A chain of operations is read as a whole, and what is read is the one expression that has the
operands, operators and type tests of the chain in their order and is grouped by precedence. -/
theorem binaryWith_reads_chain {tokens : List Token} {items : List ChainItem} {n : Nat}
    (chain : OperatorChain tokens items) (ends : EndsChain tail) (fuel : tokens.length ≤ n)
    (behind : Nat) :
    ∃ tree behind', binaryWith (rules n) 0 ⟨tokens ++ tail, behind⟩ =
        (some tree, ⟨tail, behind'⟩) ∧
      tree.chain = items ∧ tree.IsGrouped ∧
      ∀ other : Expr, other.chain = items → other.IsGrouped →
        (other.relocate fun _ => 0) = tree.relocate fun _ => 0 := by
  obtain ⟨operand_eq, later⟩ := chain
  rename_i token operand rest items
  have atomic := Token.isAtomic_of_operand?_eq operand_eq
  have rest_fuel : rest.length ≤ n := by
    rw [List.length_cons] at fuel
    omega
  obtain ⟨tree, others, tested, rest', behind', -, later', climbed, iterates⟩ :=
    exists_climbed later ends rest_fuel 0 atomic.isGrouped
      (fun _ _ precedence _ => atomic.bindsAt precedence) token.span.stop
  -- No operation binds less than level zero, so none is left.
  obtain ⟨rfl, rfl⟩ := later'.eq_nil_of_looser climbed.looser
  have chain_eq : tree.chain = .operand operand :: items := by
    simpa [atomic.chain_eq] using climbed.chain_eq
  refine ⟨tree, behind', ?_, chain_eq, climbed.grouped, fun other other_eq grouped => ?_⟩
  · rw [List.cons_append]
    simp [binaryWith, unaryWith_of_operand?_eq operand_eq later ends, iterates.iterate_eq]
  · exact grouped.relocate_eq climbed.grouped (other_eq.trans chain_eq.symm)

/-- The tokens of `a >> 1 instanceof T && b`. -/
def testedShift : List Token :=
  [⟨.word, "a", ⟨0, 1⟩⟩, ⟨.greater, ">", ⟨2, 3⟩⟩, ⟨.greater, ">", ⟨3, 4⟩⟩,
    ⟨.integer, "1", ⟨5, 6⟩⟩, ⟨.word, "instanceof", ⟨7, 17⟩⟩, ⟨.word, "T", ⟨18, 19⟩⟩,
    ⟨.ampAmp, "&&", ⟨20, 22⟩⟩, ⟨.word, "b", ⟨23, 24⟩⟩]

/-- The operands and operations of `a >> 1 instanceof T && b`. -/
def testedShiftItems : List ChainItem :=
  [.operand (.name ⟨0, 1⟩ "a"), .operator .shiftRight, .operand (.literal ⟨5, 6⟩ .integer "1"),
    .test "T" none, .operator .and, .operand (.name ⟨23, 24⟩ "b")]

theorem operatorChain_testedShift : OperatorChain testedShift testedShiftItems := by
  have joined : Continues true ([⟨.ampAmp, "&&", ⟨20, 22⟩⟩] ++ [⟨.word, "b", ⟨23, 24⟩⟩])
      [.operator .and, .operand (.name ⟨23, 24⟩ "b")] :=
    .operator (Token.mem_spelled_singleton.mpr ⟨_, rfl⟩) (fun _ => by decide) (by rfl) .done
  have tested : Continues false
      (⟨.word, "instanceof", ⟨7, 17⟩⟩ :: ⟨.word, "T", ⟨18, 19⟩⟩ :: _) (.test "T" none :: _) :=
    .test (by rfl) (by rfl) joined
  have shifted : Continues false ([⟨.greater, ">", ⟨2, 3⟩⟩, ⟨.greater, ">", ⟨3, 4⟩⟩] ++
      ⟨.integer, "1", ⟨5, 6⟩⟩ :: _) (.operator .shiftRight :: _) :=
    .operator ⟨rfl, .cons_cons rfl (.singleton _)⟩ nofun rfl tested
  exact .intro (by rfl) shifted

/-- The shift binds tighter than the type test, and that tighter than the conjunction. -/
theorem binaryWith_reads_testedShift :
    ∃ tree behind', binaryWith (rules 8) 0 ⟨testedShift ++ [⟨.semicolon, ";", ⟨24, 25⟩⟩], 0⟩ =
        (some tree, ⟨[⟨.semicolon, ";", ⟨24, 25⟩⟩], behind'⟩) ∧
      tree.chain = testedShiftItems ∧ tree.IsGrouped ∧
      ∀ other : Expr, other.chain = testedShiftItems → other.IsGrouped →
        (other.relocate fun _ => 0) = tree.relocate fun _ => 0 :=
  binaryWith_reads_chain operatorChain_testedShift (by rintro _ ⟨rfl⟩; exact .inr rfl)
    (by decide) 0

end Parser

end JavaOutline
