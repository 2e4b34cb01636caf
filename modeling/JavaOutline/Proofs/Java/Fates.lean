import Mathlib.Computability.Language
import JavaOutline.Proofs.Java.Continuation

/-!
# What becomes of the tokens of an expression

The grammar keeps most tokens of an expression and passes over those that it has no place for: type
arguments that no type has, annotations, and the parts of a record pattern. It loses tokens that do
not belong to an expression: bracket pairs that no type is made of, dots that no word follows, a
comma behind the last argument, and what stands behind an argument up to the next comma. The
readings of an expression are the fates that its tokens may have, in their order; where the grammar
does not insist on a bracket or a colon, a text may be shown that no token stands for.

What is lost depends on the tokens behind it. So the fate of a lost token names these, and readings
are languages all the same. So does a fate without a token, where a part of an expression is left
out because other tokens follow than those it begins with.
-/

namespace JavaOutline

open scoped Computability

/-- Whether a token may be a part of a type. -/
def Token.isTypePart (token : Token) : Bool :=
  token.kind.isTypeArgument || token.kind = .less || token.kind = .greater

/-- What becomes of a token of an expression where the expression is rendered. -/
inductive Fate where
  /-- The token is shown. -/
  | shown (token : Token)
  /-- The token is shown as a part of the text of a type. -/
  | typed (token : Token)
  /-- The token is passed over. -/
  | passed (token : Token)
  /-- The token is lost, in front of some tokens. -/
  | lost (token : Token) (behind : List Token)
  /-- There is no token, and yet a text is shown, in front of some tokens. -/
  | supplied (text : String) (behind : List Token)
  /-- There is no token, in front of some tokens. -/
  | absent (behind : List Token)
  deriving DecidableEq, Repr

namespace Fate

/-- The token that has the fate. -/
def token? : Fate → Option Token
  | shown token | typed token | passed token | lost token _ => some token
  | supplied _ _ | absent _ => none

/-- The text that is shown. -/
def text? : Fate → Option String
  | shown token | typed token => some token.text
  | passed _ | lost _ _ | absent _ => none
  | supplied text _ => some text

/-- The tokens that have the fates. -/
def tokens (fates : List Fate) : List Token := fates.filterMap token?

/-- The texts that are shown. -/
def texts (fates : List Fate) : List String := fates.filterMap text?

/-- Whether the tokens that some fates name as behind them are those that are there, if other tokens
stand behind all. -/
def Before : List Fate → List Token → Prop
  | [], _ => True
  | lost _ named :: fates, behind | supplied _ named :: fates, behind
  | absent named :: fates, behind => named = tokens fates ++ behind ∧ Before fates behind
  | _ :: fates, behind => Before fates behind

/-- Whether no token is lost. -/
def Whole (fates : List Fate) : Prop := ∀ token behind, lost token behind ∉ fates

/-- The fates of tokens that are lost in front of others. -/
def lostBefore : List Token → List Token → List Fate
  | [], _ => []
  | token :: run, behind => lost token (run ++ behind) :: lostBefore run behind

/-- The part of the text of a type that a token is. -/
def part? : Fate → Option String
  | typed token => some token.typeArgumentText
  | _ => none

/-- The text of a type that some tokens are put together to. -/
def typeText (fates : List Fate) : String := String.join (fates.filterMap part?)

@[simp] theorem tokens_nil : tokens [] = [] := rfl

@[simp] theorem tokens_append (left right : List Fate) :
    tokens (left ++ right) = tokens left ++ tokens right :=
  List.filterMap_append

@[simp] theorem tokens_map_shown (found : List Token) : tokens (found.map shown) = found := by
  simp [tokens, token?, List.filterMap_map, Function.comp_def]

@[simp] theorem tokens_map_passed (found : List Token) : tokens (found.map passed) = found := by
  simp [tokens, token?, List.filterMap_map, Function.comp_def]

@[simp] theorem tokens_map_typed (found : List Token) : tokens (found.map typed) = found := by
  simp [tokens, token?, List.filterMap_map, Function.comp_def]

@[simp] theorem tokens_lostBefore (run behind : List Token) :
    tokens (lostBefore run behind) = run := by
  induction run with
  | nil => rfl
  | cons token run induction => exact congrArg (token :: ·) induction

theorem before_append {left right : List Fate} {behind : List Token} :
    Before (left ++ right) behind ↔ Before left (tokens right ++ behind) ∧ Before right behind := by
  induction left with
  | nil => simp [Before]
  | cons fate left induction =>
      cases fate <;>
        simp only [List.cons_append, Before, induction, tokens_append, List.append_assoc, and_assoc]

theorem before_lostBefore (run behind : List Token) : Before (lostBefore run behind) behind := by
  induction run with
  | nil => trivial
  | cons token run induction => exact ⟨by rw [tokens_lostBefore], induction⟩

/-- Fates that do not depend on what is behind them. -/
theorem before_map {fate : Token → Fate} {found behind : List Token}
    (plain : ∀ token fates, Before (fate token :: fates) behind = Before fates behind) :
    Before (found.map fate) behind := by
  induction found with
  | nil => trivial
  | cons token found induction => exact (plain token _).mpr induction

@[simp] theorem before_map_shown (found behind : List Token) :
    Before (found.map shown) behind :=
  before_map fun _ _ => rfl

@[simp] theorem before_map_passed (found behind : List Token) :
    Before (found.map passed) behind :=
  before_map fun _ _ => rfl

@[simp] theorem before_map_typed (found behind : List Token) :
    Before (found.map typed) behind :=
  before_map fun _ _ => rfl

@[simp] theorem typeText_nil : typeText [] = "" := rfl

@[simp] theorem typeText_append (left right : List Fate) :
    typeText (left ++ right) = typeText left ++ typeText right := by
  rw [typeText, List.filterMap_append, String.join_append]
  rfl

@[simp] theorem typeText_typed_cons (token : Token) (fates : List Fate) :
    typeText (typed token :: fates) = token.typeArgumentText ++ typeText fates :=
  String.join_cons

@[simp] theorem typeText_map_passed (found : List Token) : typeText (found.map passed) = "" := by
  simp [typeText, part?, List.filterMap_map, Function.comp_def]

/-! ## Tokens that are passed over -/

/-- Tokens of some kinds. -/
def ofKinds (kinds : List TokenKind) : Language Token :=
  {tokens | tokens.map (·.kind) = kinds}

theorem mem_ofKinds {kinds : List TokenKind} {tokens : List Token} :
    tokens ∈ ofKinds kinds ↔ tokens.map (·.kind) = kinds :=
  Iff.rfl

/-- One word. -/
def ofWord (text : String) : Language Token := {[⟨.word, text, span⟩] | span : Span}

/-- How many of some tokens are of one of some kinds. -/
def count (kinds : List TokenKind) (tokens : List Token) : Nat :=
  tokens.countP fun token => kinds.contains token.kind

theorem count_cons (kinds : List TokenKind) (token : Token) (tokens : List Token) :
    count kinds (token :: tokens) = count kinds [token] + count kinds tokens :=
  @List.countP_append _ _ [token] tokens

/-- A list of type arguments, from an angle bracket to the one that closes it. -/
def typeArguments : Language Token :=
  {tokens | tokens.head?.any (·.kind = .less) ∧ (∀ token ∈ tokens, token.isTypePart) ∧
    count [.greater] tokens = count [.less] tokens ∧ ∀ front back, tokens = front ++ back →
      front ≠ [] → back ≠ [] → count [.greater] front < count [.less] front}

/-- Tokens from an opening bracket on, at most to the one that closes it. -/
def group (opening closing : TokenKind) : Language Token :=
  {tokens | tokens.head?.any (·.kind = opening) ∧ ∀ front back, tokens = front ++ back →
    front ≠ [] → back ≠ [] → count [closing] front < count [opening] front}

/-- Tokens from an opening bracket on to the one that closes it. -/
def closedGroup (opening closing : TokenKind) : Language Token :=
  {tokens | tokens ∈ group opening closing ∧ count [closing] tokens = count [opening] tokens}

/-- Whether some tokens in front of others are a group in brackets, or none if no group begins. A
group may not be closed at the end of the tokens. -/
def IsGroup (opening closing : TokenKind) (read behind : List Token) : Prop :=
  read = [] ∧ (∀ next ∈ behind.head?, next.kind ≠ opening) ∨
    read ∈ group opening closing ∧ (behind = [] ∨ read ∈ closedGroup opening closing)

/-- What the arrow of a lambda may follow: a name, or a group without semicolons and braces. -/
def parameters : Language Token :=
  {tokens | (∃ name : Token, tokens = [name] ∧ name.isName) ∨
    tokens ∈ closedGroup .openParen .closeParen ∧
      ∀ token ∈ tokens, token.kind ∉ [.semicolon, .openBrace, .closeBrace]}

/-- Tokens that belong to no argument: outside of brackets, there is no comma among them and no
closing parenthesis. -/
def stray : Language Token :=
  {tokens | ∀ front token back, tokens = front ++ token :: back →
    count [.openParen, .openBrace, .openBracket] front =
      count [.closeParen, .closeBrace, .closeBracket] front →
    token.kind ≠ .comma ∧ token.kind ≠ .closeParen}

/-- Whether a word follows, behind type arguments if there are any. -/
def Names (behind : List Token) : Prop :=
  ∃ arguments ∈ 1 + typeArguments, ∃ word later, behind = arguments ++ word :: later ∧
    word.kind = .word

/-- Whether the bracket pairs in front of some tokens belong to a class literal or a method
reference, or another pair follows. -/
def GoOnWithType : List Token → Bool
  | [] => false
  | first :: later =>
    first.kind = .doubleColon || later.head?.any fun second =>
      first.kind = .dot && second.isWord "class" ||
        first.kind = .openBracket && second.kind = .closeBracket

/-! ## Readings -/

/-- One token of a kind and a text, which is shown. -/
def shows (kind : TokenKind) (text : String) : Language Fate :=
  {fates | ∃ span, fates = [shown ⟨kind, text, span⟩]}

/-- Tokens of some kinds, which are shown. -/
def showsKinds (kinds : List TokenKind) : Language Fate :=
  {fates | ∃ tokens ∈ ofKinds kinds, fates = tokens.map shown}

/-- A text that is shown where a token of a kind is missing. -/
def supplies (kind : TokenKind) (text : String) : Language Fate :=
  {fates | ∃ behind, fates = [supplied text behind] ∧ behind.head?.any (·.kind = kind) = false}

/-- Tokens that are passed over. -/
def passes (language : Language Token) : Language Fate :=
  {fates | ∃ tokens ∈ language, fates = tokens.map passed}

/-- Tokens with fates of a language, up to others that allow them to end there. -/
def upTo (language : Language Fate) (ends : List Token → List Token → Prop) : Language Fate :=
  {fates | ∃ read ∈ language, ∃ behind, ends (tokens read) behind ∧
    fates = read ++ [absent behind]}

/-- Nothing, where no token of some sort comes next. -/
def lacks (sort : Token → Prop) : Language Fate :=
  upTo 1 fun _ behind => ∀ next ∈ behind.head?, ¬sort next

/-- Tokens that are lost where the tokens behind them allow it. -/
def loses (language : Language Token) (allowed : List Token → List Token → Prop) :
    Language Fate :=
  {fates | ∃ run ∈ language, ∃ behind, allowed run behind ∧ fates = lostBefore run behind}

/-- A group in parentheses, if one begins, which is passed over. -/
def passedGroup : Language Fate :=
  upTo (passes ⊤) (IsGroup .openParen .closeParen)

/-- An annotation with its arguments, which is passed over. -/
def annotation : Language Fate :=
  passes (ofKinds [.atSign]) *
    (1 + passes (ofKinds [.word]) * (passes (ofKinds [.dot, .word]))∗) * passedGroup

/-- What may stand in front of a primary expression. -/
def lead : Language Fate := (passes typeArguments)∗

/-- Bracket pairs that no type is made of. -/
def loosePairs : Language Fate :=
  loses (ofKinds [.openBracket, .closeBracket])∗ fun run behind => run = [] ∨ ¬GoOnWithType behind

/-- A dot, with the type arguments behind it, that no word follows. -/
def looseDot : Language Fate :=
  loses (ofKinds [.dot] * (1 + typeArguments)) fun run behind => ¬Names (run.tail ++ behind)

/-- A comma that no argument follows. -/
def looseComma : Language Fate :=
  loses (ofKinds [.comma]) fun _ behind => ∀ token ∈ behind.head?, token.kind = .closeParen

/-- What may stand behind a primary expression. -/
def trail : Language Fate := (looseDot + loosePairs)∗

/-- A token that the text of a type has as a part. -/
def types : Language Fate :=
  {fates | ∃ token : Token, token.isTypePart ∧ fates = [typed token]}

/-- The parts of one type, behind annotations. -/
def annotated : Language Fate := annotation∗ * (types * types∗)

/-- An ampersand between two types. -/
def ampersand : Language Fate :=
  {fates | ∃ token : Token, token.kind = .amp ∧ fates = [typed token]}

/-- Tokens that run from one end of a span to the other, all of which are shown. -/
def copies (span : Span) : Language Fate :=
  {fates | ∃ (tokens : List Token) (first last : Token), tokens.head? = some first ∧
    tokens.getLast? = some last ∧ span = ⟨first.span.start, last.span.stop⟩ ∧
      fates = tokens.map shown}

/-- Something in parentheses; the closing one may be missing. -/
def parens (language : Language Fate) : Language Fate :=
  showsKinds [.openParen] * language *
    (lacks (·.kind = .closeParen) + showsKinds [.closeParen])

end Fate

open Fate (shows showsKinds supplies passes upTo lacks copies loses parens ofWord parameters
  typeArguments stray annotated ampersand passedGroup loosePairs looseComma IsGroup Names)

namespace TypeRef

/-- The tokens that a type is read from, or several types with ampersands between them: those that
its text is put together from, and annotations in front of each type. -/
def reading (type : TypeRef) : Language Fate :=
  {fates | fates ∈ annotated * (ampersand * annotated)∗ ∧ type.text = Fate.typeText fates}

/-- The tokens of a type up to where it ends. -/
def written (type : TypeRef) : Language Fate :=
  upTo type.reading fun read behind => ¬TypeGoesOn read behind

/-- No tokens, which is where a type is missing. -/
def missing (type : TypeRef) : Language Fate := {fates | fates = [] ∧ type.text = ""}

/-- The tokens of a whole type, if there is one. -/
def whole (type : TypeRef) : Language Fate := type.missing + type.written

end TypeRef

/-- Whether tokens that are copied as an expression of a kind are all of it, in front of others. -/
def ExcerptKind.IsWhole : ExcerptKind → List Token → List Token → Prop
  | .arrayInitializer, read, behind =>
    read ≠ [] ∧ IsGroup .openBrace .closeBrace read behind
  | .arrayCreation, read, behind => ∃ front elements, read = front ++ elements ∧
    IsGroup .openBrace .closeBrace elements behind ∧
      ∀ next ∈ (elements ++ behind).head?, next.kind ≠ .openBracket
  | .switch, read, behind => ∃ word selector body, read = word :: (selector ++ body) ∧
    word.isWord "switch" ∧ IsGroup .openParen .closeParen selector (body ++ behind) ∧
      IsGroup .openBrace .closeBrace body behind
  | .lambda, read, behind => ∃ front arrow body, read = front ++ arrow :: body ∧
    arrow.kind = .arrow ∧ body ≠ [] ∧
      (body.head?.any (·.kind = .openBrace) → IsGroup .openBrace .closeBrace body behind)
  | .methodReference, read, behind => ∃ front colons arguments named,
    read = front ++ colons :: (arguments ++ named) ∧ colons.kind = .doubleColon ∧
      arguments ∈ 1 + typeArguments ∧ ((∃ word : Token, named = [word] ∧ word.kind = .word) ∨
        named = [] ∧ ¬Names (arguments ++ behind))
  | .classLiteral, read, _ => ∃ front word, read = front ++ [word] ∧ word.isWord "class"
  | .pattern, _, _ => True

/-- Whether tokens that are copied as an allocation are all of it, with a class body at the end. -/
def EndsInBody (read behind : List Token) : Prop :=
  ∃ front body, read = front ++ body ∧ body ≠ [] ∧ IsGroup .openBrace .closeBrace body behind

namespace Expr

/-- An allocation of a type with arguments and without a class body. The parentheses may be left out
if there are no arguments. -/
def allocation (type : TypeRef) (arguments : List Expr) (language : Language Fate) :
    Language Fate :=
  shows .word "new" * (1 + passes typeArguments) * type.whole *
    (if arguments.isEmpty then lacks (·.kind = .openParen) + parens language
      else parens language) * lacks (·.kind = .openBrace)

/-- Whether an expression is a primary one, which selectors may follow. -/
def isPrimary : Expr → Bool
  | name .. | literal .. | this _ | super _ | fieldAccess .. | arrayAccess .. | call ..
  | memberCall .. | creation .. | innerCreation .. | update .. | parenthesized .. => true
  | excerpt _ kind => kind ≠ .lambda
  | unary .. | binary .. | instanceOf .. | conditional .. | assignment .. | cast ..
  | missing _ => false

/-- What may stand in front of an expression, which is what may stand in front of the first of its
operands. -/
def lead : Expr → Language Fate
  | binary _ _ left _ => left.lead
  | instanceOf _ tested _ _ => tested.lead
  | conditional _ condition _ _ => condition.lead
  | assignment _ _ target _ => target.lead
  | expr => if expr.isPrimary then Fate.lead else 1

/-- What may stand behind an expression. -/
def trail (expr : Expr) : Language Fate := if expr.isPrimary then Fate.trail else 1

theorem lead_of_isPrimary {expr : Expr} (primary : expr.isPrimary) : expr.lead = Fate.lead := by
  cases expr with
  | binary | instanceOf | conditional | assignment => cases primary
  | _ => exact if_pos primary

theorem trail_of_isPrimary {expr : Expr} (primary : expr.isPrimary) : expr.trail = Fate.trail :=
  if_pos primary

/-- Either nothing stands in front of an expression, or what may stand in front of a primary one. -/
theorem lead_eq_or : ∀ expr : Expr, expr.lead = 1 ∨ expr.lead = Fate.lead
  | binary _ _ left _ => left.lead_eq_or
  | instanceOf _ tested _ _ => tested.lead_eq_or
  | conditional _ condition _ _ => condition.lead_eq_or
  | assignment _ _ target _ => target.lead_eq_or
  | name .. | literal .. | this _ | super _ | fieldAccess .. | arrayAccess .. | call ..
  | memberCall .. | creation .. | innerCreation .. | update .. | parenthesized .. | excerpt ..
  | unary .. | cast .. | missing _ => (ite_eq_or_eq _ _ _).symm

theorem trail_eq_or (expr : Expr) : expr.trail = 1 ∨ expr.trail = Fate.trail :=
  (ite_eq_or_eq _ _ _).symm

/-- Nothing needs to stand in front of an expression. -/
theorem nil_mem_lead (expr : Expr) : [] ∈ expr.lead := by
  rcases expr.lead_eq_or with nothing | primary
  · rw [nothing]
    rfl
  · rw [primary]
    exact Language.nil_mem_kstar _

/-- Nothing needs to stand behind an expression. -/
theorem nil_mem_trail (expr : Expr) : [] ∈ expr.trail := by
  rcases expr.trail_eq_or with nothing | primary
  · rw [nothing]
    rfl
  · rw [primary]
    exact Language.nil_mem_kstar _

theorem lead_le (expr : Expr) : expr.lead ≤ Fate.lead := by
  rcases expr.lead_eq_or with nothing | primary
  · rw [nothing]
    exact one_le_kstar
  · exact primary.le

/-- An expression with what may stand in front of it and behind it. -/
def around (expr : Expr) (language : Language Fate) : Language Fate :=
  expr.lead * language * expr.trail

/-- Whether what was read as an expression is the target of a cast whose operand follows. -/
def TargetsCast : Expr → List Token → List Token → Prop
  | parenthesized .., read, behind =>
    IsCastTarget read ∧ ∃ next ∈ behind.head?, next.beginsCastOperand
  | _, _, _ => False

/-- Whether what was read as an expression is what the arrow of a lambda follows. -/
def HeadsLambda : Expr → List Token → List Token → Prop
  | name .., read, behind | parenthesized .., read, behind =>
    read ∈ parameters ∧ ∃ next ∈ behind.head?, next.kind = .arrow
  | _, _, _ => False

/-- An operand of an operator. -/
def operand (expr : Expr) (language : Language Fate) : Language Fate :=
  upTo (expr.around language) fun read behind => ¬expr.TargetsCast read behind

/-- A whole expression. -/
def whole (expr : Expr) (language : Language Fate) : Language Fate :=
  upTo (expr.around language) fun read behind =>
    ¬expr.TargetsCast read behind ∧ ¬expr.HeadsLambda read behind

/-- Whether an expression that was read from some tokens ends in front of others. -/
structure EndsBefore (expr : Expr) (read behind : List Token) : Prop where
  /-- The grammar reads the expression from these tokens and no more. -/
  parsed : ∃ start after, Parser.expr start = (some expr, after) ∧ start.rest = read ++ behind ∧
    after.rest = behind
  /-- The tokens behind it do not go on with it. -/
  stops : ¬expr.GoesOn read behind

/-- An argument. What stands behind its expression, up to the next comma, is lost. -/
def argument (expr : Expr) (language : Language Fate) : Language Fate :=
  {fates | ∃ read ∈ whole expr language, ∃ later ∈ loses stray fun run behind =>
      run = [] ∨ expr = .missing expr.span ∨ expr.EndsBefore (Fate.tokens read) (run ++ behind),
    fates = read ++ later}

/-- What stands in front of some arguments and behind the one before them: a comma, unless the next
one is missing. -/
def comma : List Expr → Language Fate
  | [] => 1 + looseComma
  | .missing _ :: _ => 1 + showsKinds [.comma]
  | _ :: _ => showsKinds [.comma]

mutual

/-- The fates that the tokens of an expression may have. -/
def reading : Expr → Language Fate
  | name _ text =>
    shows .word text * if isPrimitive text then loosePairs else lacks (·.kind = .openParen)
  | literal _ kind text => shows kind.tokenKind text
  | this _ => shows .word "this" * lacks (·.kind = .openParen)
  | super _ => shows .word "super" * lacks (·.kind = .openParen)
  | fieldAccess _ receiver field =>
    reading receiver * receiver.trail * showsKinds [.dot] * (1 + passes typeArguments) *
      shows .word field.text * lacks (·.kind = .openParen)
  | arrayAccess _ array index =>
    reading array * array.trail * showsKinds [.openBracket] * whole index (reading index) *
      (showsKinds [.closeBracket] + supplies .closeBracket "]")
  | call _ method arguments => shows .word method.text * parens (readings arguments)
  | memberCall _ receiver method arguments =>
    reading receiver * receiver.trail * showsKinds [.dot] * (1 + passes typeArguments) *
      shows .word method.text * parens (readings arguments)
  | creation span type arguments body =>
    if body.isSome then upTo (copies span) EndsInBody
    else allocation type arguments (readings arguments)
  | innerCreation span outer type arguments body =>
    if body.isSome then upTo (copies span) EndsInBody
    else
      reading outer * outer.trail * showsKinds [.dot] * (1 + passes typeArguments) *
        allocation type arguments (readings arguments)
  | unary _ op inner => showsKinds (op.lexemes.map (·.1)) * operand inner (reading inner)
  | update _ op operand => reading operand * operand.trail * showsKinds (op.lexemes.map (·.1))
  | binary _ op left right =>
    reading left * left.trail * showsKinds (op.lexemes.map (·.1)) * operand right (reading right)
  | instanceOf _ tested type binding =>
    reading tested * tested.trail * shows .word "instanceof" * (1 + passes (ofWord "final")) *
      type.whole * passedGroup *
        (binding.map (shows .word)).getD (lacks (·.isName))
  | conditional _ condition whenTrue whenFalse =>
    reading condition * condition.trail * showsKinds [.question] *
      whole whenTrue (reading whenTrue) *
      (showsKinds [.colon] + supplies .colon ":") * whole whenFalse (reading whenFalse)
  | assignment _ op target value =>
    reading target * target.trail * showsKinds (op.lexemes.map (·.1)) * whole value (reading value)
  | cast _ type inner =>
    showsKinds [.openParen] * type.reading * showsKinds [.closeParen] *
      whole inner (reading inner)
  | parenthesized _ inner => parens (whole inner (reading inner))
  | excerpt span kind => upTo (copies span) kind.IsWhole
  | missing _ => ⊤

/-- The fates that the tokens of some arguments may have. -/
def readings : List Expr → Language Fate
  | [] => lacks (·.kind ≠ .closeParen)
  | expr :: exprs => argument expr (reading expr) * comma exprs * readings exprs

end

end Expr

end JavaOutline
