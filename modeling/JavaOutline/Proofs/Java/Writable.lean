import JavaOutline.Java.Render
import JavaOutline.Java.Word
import JavaOutline.Proofs.Token.Lexeme

/-!
# Expressions that can be written and read again

A writable expression is one whose rendering depends on the expression alone: it has no excerpts
and no missing parts, and its names and literals are tokens. Its rendering scans by itself into the
tokens of its spelling. Neither the spans of an expression nor the parentheses of its source can be
told from its rendering, so that expressions are compared stripped of both.
-/

namespace JavaOutline

open Token (Lexeme Scans Ends spelled)

/-- Whether a text is an identifier. -/
def isIdentifier (text : String) : Bool :=
  Token.isWordText text && !isReserved text

/-- What a literal is as a token. -/
def LiteralKind.tokenKind : LiteralKind → TokenKind
  | integer => .integer
  | floating => .floating
  | character => .character
  | string => .string
  | textBlock => .textBlock
  | boolean | null => .word

/-- Whether a literal is a number. -/
def LiteralKind.isNumber : LiteralKind → Bool
  | integer | floating => true
  | _ => false

/-- Whether a text is a literal of a kind. -/
def LiteralKind.isWritten (kind : LiteralKind) (text : String) : Bool :=
  match kind with
  | boolean => text = "true" || text = "false"
  | null => text = "null"
  | kind => Token.isLexeme kind.tokenKind text && Token.isTerminated kind.tokenKind text

/-- The text of a type: words with dots between them, and bracket pairs. -/
def typeText (first : String) (more : List String) (pairs : Nat) : String :=
  (List.replicate pairs "[]").foldl (· ++ ·) (".".intercalate (first :: more))

/-- Whether a type is a dotted name. -/
def TypeRef.IsDotted (type : TypeRef) : Prop :=
  ∃ first more, (∀ word ∈ first :: more, isIdentifier word) ∧ type.text = typeText first more 0

/-- Whether a type is a dotted name or a primitive type, or an array of these. -/
def TypeRef.IsPlain (type : TypeRef) : Prop :=
  ∃ first more pairs,
    ((∀ word ∈ first :: more, isIdentifier word) ∨ JavaOutline.isPrimitive first ∧ more = []) ∧
      type.text = typeText first more pairs

namespace Expr

/-- Whether an expression is a number. -/
def isNumber : Expr → Bool
  | literal _ kind _ => kind.isNumber
  | _ => false

mutual

/-- Whether an expression is built from names, literals, `this` and `super` by operators, casts,
type tests, selections, calls and allocations without a class body. Nothing is selected from a
number, because the dot would be part of it. -/
def Writable : Expr → Prop
  | name _ text => isIdentifier text
  | literal _ kind text => kind.isWritten text
  | this _ | super _ => True
  | fieldAccess _ receiver field =>
    receiver.Writable ∧ receiver.isNumber = false ∧ isIdentifier field.text
  | arrayAccess _ array index => array.Writable ∧ index.Writable
  | call _ method arguments =>
    (isIdentifier method.text ∨ method.text = "this" ∨ method.text = "super") ∧
      AllWritable arguments
  | memberCall _ receiver method arguments =>
    receiver.Writable ∧ receiver.isNumber = false ∧ isIdentifier method.text ∧
      AllWritable arguments
  | creation _ type arguments body => type.IsDotted ∧ AllWritable arguments ∧ body = none
  | innerCreation _ outer type arguments body =>
    outer.Writable ∧ outer.isNumber = false ∧ type.IsDotted ∧ AllWritable arguments ∧ body = none
  | unary _ _ operand => operand.Writable
  | update _ _ operand => operand.Writable
  | binary _ _ left right => left.Writable ∧ right.Writable
  | instanceOf _ operand type binding =>
    operand.Writable ∧ type.IsPlain ∧ ∀ name ∈ binding, isIdentifier name
  | conditional _ condition whenTrue whenFalse =>
    condition.Writable ∧ whenTrue.Writable ∧ whenFalse.Writable
  | assignment _ _ target value => target.Writable ∧ value.Writable
  | cast _ type operand => type.IsPlain ∧ operand.Writable
  | parenthesized _ inner => inner.Writable
  | excerpt .. | missing _ => False

/-- Whether all of some expressions are writable. -/
def AllWritable : List Expr → Prop
  | [] => True
  | expr :: exprs => expr.Writable ∧ AllWritable exprs

end

mutual

/-- An expression without its spans and its parentheses. -/
def strip : Expr → Expr
  | name _ text => .name default text
  | literal _ kind text => .literal default kind text
  | this _ => .this default
  | super _ => .super default
  | fieldAccess _ receiver field => .fieldAccess default receiver.strip ⟨field.text, default⟩
  | arrayAccess _ array index => .arrayAccess default array.strip index.strip
  | call _ method arguments => .call default ⟨method.text, default⟩ (stripAll arguments)
  | memberCall _ receiver method arguments =>
    .memberCall default receiver.strip ⟨method.text, default⟩ (stripAll arguments)
  | creation _ type arguments body =>
    .creation default ⟨type.text, default⟩ (stripAll arguments) (body.map fun _ => default)
  | innerCreation _ outer type arguments body =>
    .innerCreation default outer.strip ⟨type.text, default⟩ (stripAll arguments)
      (body.map fun _ => default)
  | unary _ op operand => .unary default op operand.strip
  | update _ op operand => .update default op operand.strip
  | binary _ op left right => .binary default op left.strip right.strip
  | instanceOf _ operand type binding =>
    .instanceOf default operand.strip ⟨type.text, default⟩ binding
  | conditional _ condition whenTrue whenFalse =>
    .conditional default condition.strip whenTrue.strip whenFalse.strip
  | assignment _ op target value => .assignment default op target.strip value.strip
  | cast _ type operand => .cast default ⟨type.text, default⟩ operand.strip
  | parenthesized _ inner => inner.strip
  | excerpt _ kind => .excerpt default kind
  | missing _ => .missing default

/-- Some expressions without their spans and their parentheses. -/
def stripAll : List Expr → List Expr
  | [] => []
  | expr :: exprs => expr.strip :: stripAll exprs

end

end Expr

/-! ## Spellings -/

/-- The tokens of a word. -/
def wordSpelling (text : String) : Language Token := spelled [(.word, text)]

/-- The lexemes of an operator before its operand. -/
def UnaryOp.lexemes : UnaryOp → List Lexeme
  | plus => [(.plus, "+")]
  | minus => [(.minus, "-")]
  | not => [(.bang, "!")]
  | complement => [(.tilde, "~")]
  | increment => [(.increment, "++")]
  | decrement => [(.decrement, "--")]

/-- The lexemes of an operator after its operand. -/
def UpdateOp.lexemes : UpdateOp → List Lexeme
  | increment => [(.increment, "++")]
  | decrement => [(.decrement, "--")]

/-- The lexemes of a binary operator. -/
def BinaryOp.lexemes : BinaryOp → List Lexeme
  | or => [(.pipePipe, "||")]
  | and => [(.ampAmp, "&&")]
  | bitOr => [(.pipe, "|")]
  | bitXor => [(.caret, "^")]
  | bitAnd => [(.amp, "&")]
  | equal => [(.equal, "==")]
  | notEqual => [(.notEqual, "!=")]
  | less => [(.less, "<")]
  | greater => [(.greater, ">")]
  | lessEqual => [(.lessEqual, "<=")]
  | greaterEqual => [(.greaterEqual, ">=")]
  | shiftLeft => [(.shiftLeft, "<<")]
  | shiftRight => [(.greater, ">"), (.greater, ">")]
  | shiftRightZero => [(.greater, ">"), (.greater, ">"), (.greater, ">")]
  | add => [(.plus, "+")]
  | subtract => [(.minus, "-")]
  | multiply => [(.star, "*")]
  | divide => [(.slash, "/")]
  | remainder => [(.percent, "%")]

/-- The lexemes of an assignment. -/
def AssignOp.lexemes : AssignOp → List Lexeme
  | assign => [(.assign, "=")]
  | add => [(.plusAssign, "+=")]
  | subtract => [(.minusAssign, "-=")]
  | multiply => [(.starAssign, "*=")]
  | divide => [(.slashAssign, "/=")]
  | remainder => [(.percentAssign, "%=")]
  | bitAnd => [(.ampAssign, "&=")]
  | bitOr => [(.pipeAssign, "|=")]
  | bitXor => [(.caretAssign, "^=")]
  | shiftLeft => [(.shiftLeftAssign, "<<=")]
  | shiftRight => [(.greater, ">"), (.greaterEqual, ">=")]
  | shiftRightZero => [(.greater, ">"), (.greater, ">"), (.greaterEqual, ">=")]

/-- Some tokens in parentheses. -/
def inParens (inner : Language Token) : Language Token :=
  spelled [(.openParen, "(")] * inner * spelled [(.closeParen, ")")]

/-- Tokens with commas between them. -/
def withCommas : List (Language Token) → Language Token
  | [] => 1
  | first :: more => first * (more.map (spelled [(.comma, ",")] * ·)).prod

/-- The tokens of a type of the given words and bracket pairs. -/
def typeSpelling (first : String) (more : List String) (pairs : Nat) : Language Token :=
  wordSpelling first * ((more.map wordSpelling).map (spelled [(.dot, ".")] * ·)).prod *
    spelled [(.openBracket, "["), (.closeBracket, "]")] ^ pairs

/-- The tokens of a type. -/
def TypeRef.spelling (type : TypeRef) : Language Token :=
  {tokens | ∃ first more pairs,
    ((∀ word ∈ first :: more, isIdentifier word) ∨ JavaOutline.isPrimitive first ∧ more = []) ∧
      type.text = typeText first more pairs ∧ tokens ∈ typeSpelling first more pairs}

namespace Expr

mutual

/-- The tokens of the rendering of an expression. -/
def spelling : Expr → Language Token
  | name _ text => wordSpelling text
  | literal _ kind text => spelled [(kind.tokenKind, text)]
  | this _ => wordSpelling "this"
  | super _ => wordSpelling "super"
  | fieldAccess _ receiver field =>
    receiver.spelling * (spelled [(.dot, ".")] * wordSpelling field.text)
  | arrayAccess _ array index =>
    array.spelling *
      (spelled [(.openBracket, "[")] * index.spelling * spelled [(.closeBracket, "]")])
  | call _ method arguments =>
    wordSpelling method.text * inParens (withCommas (spellings arguments))
  | memberCall _ receiver method arguments =>
    receiver.spelling * (spelled [(.dot, ".")] * wordSpelling method.text *
      inParens (withCommas (spellings arguments)))
  | creation _ type arguments _ =>
    wordSpelling "new" * type.spelling * inParens (withCommas (spellings arguments))
  | innerCreation _ outer type arguments _ =>
    outer.spelling * (spelled [(.dot, ".")] * wordSpelling "new" * type.spelling *
      inParens (withCommas (spellings arguments)))
  | unary _ op operand => inParens (spelled op.lexemes * operand.spelling)
  | update _ op operand => inParens (operand.spelling * spelled op.lexemes)
  | binary _ op left right => inParens (left.spelling * spelled op.lexemes * right.spelling)
  | instanceOf _ operand type binding =>
    inParens (operand.spelling * wordSpelling "instanceof" * type.spelling *
      (binding.map wordSpelling).getD 1)
  | conditional _ condition whenTrue whenFalse =>
    inParens (condition.spelling * spelled [(.question, "?")] * whenTrue.spelling *
      spelled [(.colon, ":")] * whenFalse.spelling)
  | assignment _ op target value =>
    inParens (target.spelling * spelled op.lexemes * value.spelling)
  | cast _ type operand => inParens (inParens type.spelling * operand.spelling)
  | parenthesized _ inner => if inner.hasParens then inner.spelling else inParens inner.spelling
  | excerpt .. | missing _ => 0

/-- The tokens of the renderings of some expressions. -/
def spellings : List Expr → List (Language Token)
  | [] => []
  | expr :: exprs => expr.spelling :: spellings exprs

end

end Expr

/-! ## Scanning renderings -/

/-- Whether a text goes on with a blank, as it does after an operator before its operand. -/
def BeginsBlank (rest : List Char) : Prop :=
  ∃ more, rest = ' ' :: more

theorem UnaryOp.scans_symbol (op : UnaryOp) :
    Scans op.symbol BeginsBlank (spelled op.lexemes) := by
  rintro offset _ ⟨more, rfl⟩
  cases op <;> exact ⟨[⟨_, _, _⟩], ⟨rfl, .singleton _⟩, rfl⟩

theorem UpdateOp.scans_symbol (op : UpdateOp) :
    Scans op.symbol (fun rest => ∃ more, rest = ')' :: more) (spelled op.lexemes) := by
  rintro offset _ ⟨more, rfl⟩
  cases op <;> exact ⟨[⟨_, _, _⟩], ⟨rfl, .singleton _⟩, rfl⟩

theorem BinaryOp.scans_symbol (op : BinaryOp) :
    Scans op.symbol BeginsBlank (spelled op.lexemes) := by
  rintro offset _ ⟨more, rfl⟩
  cases op with
  | shiftRight =>
      exact ⟨[⟨_, _, ⟨offset, offset + 1⟩⟩, ⟨_, _, ⟨offset + 1, offset + 2⟩⟩],
        ⟨rfl, .cons_cons rfl (.singleton _)⟩, rfl⟩
  | shiftRightZero =>
      exact ⟨[⟨_, _, ⟨offset, offset + 1⟩⟩, ⟨_, _, ⟨offset + 1, offset + 2⟩⟩,
        ⟨_, _, ⟨offset + 2, offset + 3⟩⟩],
        ⟨rfl, .cons_cons rfl (.cons_cons rfl (.singleton _))⟩, rfl⟩
  | _ => exact ⟨[⟨_, _, _⟩], ⟨rfl, .singleton _⟩, rfl⟩

theorem AssignOp.scans_symbol (op : AssignOp) :
    Scans op.symbol BeginsBlank (spelled op.lexemes) := by
  rintro offset _ ⟨more, rfl⟩
  cases op with
  | shiftRight =>
      exact ⟨[⟨_, _, ⟨offset, offset + 1⟩⟩, ⟨_, _, ⟨offset + 1, offset + 3⟩⟩],
        ⟨rfl, .cons_cons rfl (.singleton _)⟩, rfl⟩
  | shiftRightZero =>
      exact ⟨[⟨_, _, ⟨offset, offset + 1⟩⟩, ⟨_, _, ⟨offset + 1, offset + 2⟩⟩,
        ⟨_, _, ⟨offset + 2, offset + 4⟩⟩],
        ⟨rfl, .cons_cons rfl (.cons_cons rfl (.singleton _))⟩, rfl⟩
  | _ => exact ⟨[⟨_, _, _⟩], ⟨rfl, .singleton _⟩, rfl⟩

namespace Token

theorem scans_openParen : Scans "(" (fun _ => True) (spelled [(.openParen, "(")]) :=
  fun _ _ _ => ⟨[⟨_, _, _⟩], ⟨rfl, .singleton _⟩, rfl⟩

theorem scans_closeParen : Scans ")" (fun _ => True) (spelled [(.closeParen, ")")]) :=
  fun _ _ _ => ⟨[⟨_, _, _⟩], ⟨rfl, .singleton _⟩, rfl⟩

theorem scans_openBracket : Scans "[" (fun _ => True) (spelled [(.openBracket, "[")]) :=
  fun _ _ _ => ⟨[⟨_, _, _⟩], ⟨rfl, .singleton _⟩, rfl⟩

theorem scans_closeBracket : Scans "]" (fun _ => True) (spelled [(.closeBracket, "]")]) :=
  fun _ _ _ => ⟨[⟨_, _, _⟩], ⟨rfl, .singleton _⟩, rfl⟩

theorem scans_brackets :
    Scans "[]" (fun _ => True) (spelled [(.openBracket, "["), (.closeBracket, "]")]) :=
  fun offset _ _ => ⟨[⟨_, _, ⟨offset, offset + 1⟩⟩, ⟨_, _, ⟨offset + 1, offset + 2⟩⟩],
    ⟨rfl, .cons_cons rfl (.singleton _)⟩, rfl⟩

theorem scans_new : Scans "new" (Ends true) (wordSpelling "new") :=
  scans_word (by decide)

theorem scans_instanceof :
    Scans " instanceof " (fun _ => True) (wordSpelling "instanceof") := by
  have word : Scans "instanceof" (Ends true) (wordSpelling "instanceof") :=
    scans_word (by decide)
  have whole := (Scans.blank.append word fun _ _ => trivial).append_blank
    fun rest => ends_cons rest (by decide)
  rwa [one_mul] at whole

theorem scans_comma : Scans ", " (fun _ => True) (spelled [(.comma, ",")]) :=
  fun _ _ _ => ⟨[⟨_, _, _⟩], ⟨rfl, .singleton _⟩, rfl⟩

theorem scans_question : Scans " ? " (fun _ => True) (spelled [(.question, "?")]) :=
  fun _ _ _ => ⟨[⟨_, _, _⟩], ⟨rfl, .singleton _⟩, rfl⟩

theorem scans_colon : Scans " : " (fun _ => True) (spelled [(.colon, ":")]) :=
  fun _ _ _ => ⟨[⟨_, _, _⟩], ⟨rfl, .singleton _⟩, rfl⟩

variable {text : String} {next next' : List Char → Prop} {spelling : Language Token}

theorem Scans.group (scans : Scans text next spelling)
    (allows : ∀ rest, next (')' :: rest)) :
    Scans ("(" ++ text ++ ")") (fun _ => True) (inParens spelling) :=
  (scans_openParen.append scans fun _ _ => trivial).append scans_closeParen
    fun rest _ => allows rest

/-- Texts with a separator between them scan by themselves if each of them does. -/
theorem Scans.intercalate {separator : String} {between : Language Token}
    (scans : Scans text next spelling) (separates : Scans separator next' between)
    (allows : ∀ rest, next (separator.toList ++ rest)) {texts : List String}
    {spellings : List (Language Token)}
    (all : List.Forall₂ (fun text spelling =>
      Scans text next spelling ∧ ∀ rest, next' (text.toList ++ rest)) texts spellings) :
    Scans (separator.intercalate (text :: texts)) next
      (spelling * (spellings.map (between * ·)).prod) := by
  induction all generalizing text spelling with
  | nil =>
      rw [List.map_nil, List.prod_nil, mul_one]
      exact scans
  | @cons later laterSpelling texts spellings first _ induction =>
      have joined := (scans.append separates fun rest _ => allows rest).append first.1
        fun rest _ => first.2 rest
      have whole := induction joined
      rw [mul_assoc, mul_assoc] at whole
      rw [List.map_cons, List.prod_cons, mul_assoc]
      exact whole

theorem Scans.brackets (scans : Scans text (Ends true) spelling) (pairs : Nat) :
    Scans ((List.replicate pairs "[]").foldl (· ++ ·) text) (Ends true)
      (spelling * spelled [(.openBracket, "["), (.closeBracket, "]")] ^ pairs) := by
  induction pairs generalizing text spelling with
  | zero =>
      rw [pow_zero, mul_one]
      exact scans
  | succ pairs induction =>
      have joined := scans.append scans_brackets fun rest _ => ends_cons (c := '[') _ (by decide)
      have whole := induction (joined.mono fun _ _ => trivial)
      rw [pow_succ', ← mul_assoc]
      exact whole

end Token

theorem isWordText_of_isIdentifier {text : String} (identifier : isIdentifier text = true) :
    Token.isWordText text = true := by
  simp only [isIdentifier, Bool.and_eq_true] at identifier
  exact identifier.1

theorem isWordText_of_isPrimitive {text : String} (primitive : isPrimitive text = true) :
    Token.isWordText text = true := by
  have checked : ∀ word ∈ primitiveTypes, Token.isWordText word = true := by decide
  exact checked text (by simpa [isPrimitive] using primitive)

theorem TypeRef.scans_text {type : TypeRef} (plain : type.IsPlain) :
    Scans type.text (Ends true) type.spelling := by
  obtain ⟨first, more, pairs, words, text_eq⟩ := plain
  have first_word : Token.isWordText first = true := by
    rcases words with identifiers | ⟨primitive, -⟩
    · exact isWordText_of_isIdentifier (identifiers first (by simp))
    · exact isWordText_of_isPrimitive primitive
  have more_words : ∀ word ∈ more, Token.isWordText word = true := by
    rcases words with identifiers | ⟨-, rfl⟩
    · intro word member
      exact isWordText_of_isIdentifier (identifiers word (by simp [member]))
    · simp
  have all : List.Forall₂ (fun text spelling => Scans text (Ends true) spelling ∧
      ∀ rest, ∃ c more, text.toList ++ rest = c :: more ∧ isIdentifierStart c = true)
      more (more.map wordSpelling) := by
    rw [List.forall₂_map_right_iff, List.forall₂_same]
    intro word member
    obtain ⟨c, cs, chars_eq, start, -⟩ := Token.exists_cons_of_isWordText (more_words word member)
    exact ⟨Token.scans_word (more_words word member),
      fun rest => ⟨c, cs ++ rest, by rw [chars_eq, List.cons_append], start⟩⟩
  have scans := ((Token.scans_word first_word).intercalate Token.scans_dot
    (fun rest => Token.ends_cons (c := '.') rest (by decide)) all).brackets pairs
  intro offset rest ends
  obtain ⟨tokens, member, scan_eq⟩ := scans offset rest ends
  refine ⟨tokens, ⟨first, more, pairs, words, text_eq, member⟩, ?_⟩
  rw [text_eq]
  exact scan_eq

theorem TypeRef.IsDotted.isPlain {type : TypeRef} (dotted : type.IsDotted) : type.IsPlain := by
  obtain ⟨first, more, identifiers, text_eq⟩ := dotted
  exact ⟨first, more, 0, .inl identifiers, text_eq⟩

theorem LiteralKind.scans_text {kind : LiteralKind} {text : String}
    (written : kind.isWritten text = true) :
    Scans text (Ends !kind.isNumber) (spelled [(kind.tokenKind, text)]) := by
  have words : ∀ word ∈ ["true", "false", "null"], Token.isWordText word = true := by decide
  cases kind with
  | boolean =>
      apply Token.scans_word (words text _)
      simp only [isWritten, Bool.or_eq_true, decide_eq_true_eq] at written
      rcases written with rfl | rfl <;> simp
  | null =>
      apply Token.scans_word (words text _)
      simp only [isWritten, decide_eq_true_eq] at written
      simp [written]
  | _ =>
      simp only [isWritten, Bool.and_eq_true] at written
      exact Token.scans_literal written.1 rfl written.2

namespace Token

theorem Ends.of_false {dot : Bool} {rest : List Char} (ends : Ends false rest) : Ends dot rest := by
  obtain ⟨c, more, rfl, stop | ⟨impossible, -⟩⟩ := ends
  · exact ends_cons more (.inl stop)
  · cases impossible

/-- What ends every word and every number may stand behind an operand. -/
theorem Ends.before {c : Char} {dot : Bool} (stop : c ∈ [' ', ')', ']', ',', '[', '('])
    (rest : List Char) : Ends dot (c :: rest) :=
  ends_cons rest (.inl stop)

variable {text later field : String} {dot dot' : Bool} {spelling following between : Language Token}

/-- A selection scans by itself if the operand does. -/
theorem Scans.select (scans : Scans text (Ends true) spelling) (word : isWordText field = true) :
    Scans (text ++ "." ++ field) (Ends true)
      (spelling * (spelled [(.dot, ".")] * wordSpelling field)) := by
  have dotted := scans.append scans_dot fun rest _ => ends_cons (c := '.') rest (by decide)
  have whole := dotted.append (scans_word word) fun rest _ => by
    obtain ⟨c, cs, chars_eq, start, -⟩ := exists_cons_of_isWordText word
    exact ⟨c, cs ++ rest, by rw [chars_eq, List.cons_append], start⟩
  rwa [mul_assoc] at whole

/-- An operator with its two operands scans by itself if they do. -/
theorem Scans.operation (scans : Scans text (Ends dot) spelling) {symbol : String}
    (operator : Scans symbol BeginsBlank between) (scans' : Scans later (Ends dot') following) :
    Scans ("(" ++ text ++ " " ++ symbol ++ " " ++ later ++ ")") (fun _ => True)
      (inParens (spelling * between * following)) := by
  have left := (scans.append_blank (Ends.before (by decide))).append operator fun _ _ => trivial
  have right := (left.append_blank fun rest => ⟨rest, rfl⟩).append scans'
    fun _ _ => trivial
  simpa only [String.append_assoc] using right.group (Ends.before (by decide))

/-- Arguments in parentheses scan by themselves if each of them does. -/
theorem scans_arguments {texts : List String} {spellings : List (Language Token)}
    (all : List.Forall₂ (Scans · (Ends false) ·) texts spellings) :
    Scans ("(" ++ ", ".intercalate texts ++ ")") (fun _ => True)
      (inParens (withCommas spellings)) := by
  have inner : Scans (", ".intercalate texts) (Ends false) (withCommas spellings) := by
    cases all with
    | nil => exact fun offset rest _ => ⟨[], rfl, rfl⟩
    | cons first more =>
        exact first.intercalate scans_comma (fun rest => Ends.before (c := ',') (by decide) _)
          (more.imp fun _ _ scans => ⟨scans, fun _ => trivial⟩)
  exact inner.group (Ends.before (by decide))

/-- A call scans by itself if what is called and the arguments do. -/
theorem Scans.applied (scans : Scans text (Ends true) spelling) {texts : List String}
    {spellings : List (Language Token)}
    (all : List.Forall₂ (Scans · (Ends false) ·) texts spellings) :
    Scans (text ++ "(" ++ ", ".intercalate texts ++ ")") (fun _ => True)
      (spelling * inParens (withCommas spellings)) := by
  have whole := scans.append (scans_arguments all) fun rest _ => by
    rw [String.toList_append, String.toList_append, List.append_assoc, List.append_assoc]
    exact Ends.before (c := '(') (by decide) _
  simpa only [String.append_assoc] using whole

end Token

namespace Expr

open Token

mutual

/-- A writable expression has a rendering, and it scans by itself into the tokens of its spelling;
in front of a dot it does so unless the expression is a number. -/
theorem exists_scans_render (source : Source) :
    ∀ expr : Expr, expr.Writable → ∃ text, expr.render source = .ok text ∧
      Scans text (Ends !expr.isNumber) expr.spelling
  | name _ text, identifier =>
      ⟨text, rfl, scans_word (isWordText_of_isIdentifier identifier)⟩
  | literal _ kind text, written => ⟨text, rfl, LiteralKind.scans_text written⟩
  | this _, _ => ⟨"this", rfl, scans_word (by decide)⟩
  | super _, _ => ⟨"super", rfl, scans_word (by decide)⟩
  | fieldAccess _ receiver field, ⟨writable, no_number, identifier⟩ => by
      obtain ⟨text, render_eq, scans⟩ := exists_scans_render source receiver writable
      rw [no_number] at scans
      refine ⟨_, by rw [render, render_eq]; rfl, ?_⟩
      exact scans.select (isWordText_of_isIdentifier identifier)
  | arrayAccess _ array index, ⟨array_writable, index_writable⟩ => by
      obtain ⟨text, render_eq, scans⟩ := exists_scans_render source array array_writable
      obtain ⟨text', render_eq', scans'⟩ := exists_scans_render source index index_writable
      refine ⟨_, by rw [render, render_eq, render_eq']; rfl, ?_⟩
      have whole := ((scans.append scans_openBracket fun rest _ =>
        Ends.before (c := '[') (by decide) rest).append scans' fun _ _ => trivial).append
          scans_closeBracket fun rest _ => Ends.before (c := ']') (by decide) rest
      rw [spelling, ← mul_assoc, ← mul_assoc]
      exact whole.mono fun _ _ => trivial
  | call _ method arguments, ⟨named, writable⟩ => by
      obtain ⟨texts, render_eq, scans⟩ := exists_scans_renderAll source arguments writable
      refine ⟨_, by rw [render, render_eq]; rfl, ?_⟩
      have word : isWordText method.text = true := by
        rcases named with identifier | this_eq | super_eq
        · exact isWordText_of_isIdentifier identifier
        · rw [this_eq]; decide
        · rw [super_eq]; decide
      exact ((scans_word word).applied scans).mono fun _ _ => trivial
  | memberCall _ receiver method arguments, ⟨writable, no_number, identifier, all_writable⟩ => by
      obtain ⟨text, render_eq, scans⟩ := exists_scans_render source receiver writable
      obtain ⟨texts, render_eq', scans'⟩ := exists_scans_renderAll source arguments all_writable
      rw [no_number] at scans
      refine ⟨_, by rw [render, render_eq, render_eq']; rfl, ?_⟩
      have whole := (scans.select (isWordText_of_isIdentifier identifier)).applied scans'
      rw [spelling, ← mul_assoc]
      exact whole.mono fun _ _ => trivial
  | creation span type arguments body, ⟨dotted, writable, no_body⟩ => by
      obtain ⟨texts, render_eq, scans⟩ := exists_scans_renderAll source arguments writable
      subst no_body
      refine ⟨_, by rw [render, render_eq]; rfl, ?_⟩
      have allocated := (scans_new.append_blank (Ends.before (by decide))).append
        (TypeRef.scans_text dotted.isPlain) fun _ _ => trivial
      exact (allocated.applied scans).mono fun _ _ => trivial
  | innerCreation _ outer type arguments body,
      ⟨writable, no_number, dotted, all_writable, no_body⟩ => by
      obtain ⟨text, render_eq, scans⟩ := exists_scans_render source outer writable
      obtain ⟨texts, render_eq', scans'⟩ := exists_scans_renderAll source arguments all_writable
      rw [no_number] at scans
      subst no_body
      refine ⟨_, by rw [render, render_eq, render_eq']; rfl, ?_⟩
      have selected : Scans (text ++ "." ++ "new") _ _ := scans.select (by decide)
      have allocated := (selected.append_blank (Ends.before (by decide))).append
        (TypeRef.scans_text dotted.isPlain) fun _ _ => trivial
      have whole := allocated.applied scans'
      have text_eq : text ++ "." ++ "new" ++ " " = text ++ ".new " := by
        rw [String.append_assoc, String.append_assoc]
        rfl
      rw [text_eq] at whole
      rw [spelling, ← mul_assoc, ← mul_assoc]
      exact whole.mono fun _ _ => trivial
  | unary _ op operand, writable => by
      obtain ⟨text, render_eq, scans⟩ := exists_scans_render source operand writable
      refine ⟨_, by rw [render, render_eq]; rfl, ?_⟩
      have inner := (op.scans_symbol.append_blank fun rest => ⟨rest, rfl⟩).append
        scans fun _ _ => trivial
      have whole := inner.group (Ends.before (by decide))
      simp only [← String.append_assoc] at whole
      exact whole.mono fun _ _ => trivial
  | update _ op operand, writable => by
      obtain ⟨text, render_eq, scans⟩ := exists_scans_render source operand writable
      refine ⟨_, by rw [render, render_eq]; rfl, ?_⟩
      have inner := (scans.append_blank (Ends.before (by decide))).append op.scans_symbol
        fun _ _ => trivial
      have whole := inner.group fun rest => ⟨rest, rfl⟩
      simp only [← String.append_assoc] at whole
      exact whole.mono fun _ _ => trivial
  | binary _ op left right, ⟨left_writable, right_writable⟩ => by
      obtain ⟨text, render_eq, scans⟩ := exists_scans_render source left left_writable
      obtain ⟨text', render_eq', scans'⟩ := exists_scans_render source right right_writable
      refine ⟨_, by rw [render, render_eq, render_eq']; rfl, ?_⟩
      exact (scans.operation op.scans_symbol scans').mono fun _ _ => trivial
  | instanceOf _ operand type none, ⟨writable, plain, _⟩ => by
      obtain ⟨text, render_eq, scans⟩ := exists_scans_render source operand writable
      refine ⟨_, by rw [render, render_eq]; rfl, ?_⟩
      have inner := (scans.append scans_instanceof fun rest _ =>
        Ends.before (c := ' ') (by decide) _).append (TypeRef.scans_text plain) fun _ _ => trivial
      have whole := inner.group (Ends.before (by decide))
      rw [spelling, Option.map_none, Option.getD_none, mul_one, String.append_empty]
      simp only [← String.append_assoc] at whole
      exact whole.mono fun _ _ => trivial
  | instanceOf _ operand type (some binding), ⟨writable, plain, identifier⟩ => by
      obtain ⟨text, render_eq, scans⟩ := exists_scans_render source operand writable
      refine ⟨_, by rw [render, render_eq]; rfl, ?_⟩
      have tested := (scans.append scans_instanceof fun rest _ =>
        Ends.before (c := ' ') (by decide) _).append (TypeRef.scans_text plain) fun _ _ => trivial
      have inner := (tested.append_blank (Ends.before (by decide))).append
        (scans_word (isWordText_of_isIdentifier (identifier binding rfl))) fun _ _ => trivial
      have whole := inner.group (Ends.before (by decide))
      simp only [← String.append_assoc] at whole
      simp only [← String.append_assoc]
      exact whole.mono fun _ _ => trivial
  | conditional _ condition whenTrue whenFalse, ⟨writable, true_writable, false_writable⟩ => by
      obtain ⟨text, render_eq, scans⟩ := exists_scans_render source condition writable
      obtain ⟨text', render_eq', scans'⟩ := exists_scans_render source whenTrue true_writable
      obtain ⟨text'', render_eq'', scans''⟩ := exists_scans_render source whenFalse false_writable
      refine ⟨_, by rw [render, render_eq, render_eq', render_eq'']; rfl, ?_⟩
      have tested := (scans.append scans_question fun rest _ =>
        Ends.before (c := ' ') (by decide) _).append scans' fun _ _ => trivial
      have inner := (tested.append scans_colon fun rest _ =>
        Ends.before (c := ' ') (by decide) _).append scans'' fun _ _ => trivial
      have whole := inner.group (Ends.before (by decide))
      simp only [← String.append_assoc] at whole
      exact whole.mono fun _ _ => trivial
  | assignment _ op target value, ⟨target_writable, value_writable⟩ => by
      obtain ⟨text, render_eq, scans⟩ := exists_scans_render source target target_writable
      obtain ⟨text', render_eq', scans'⟩ := exists_scans_render source value value_writable
      refine ⟨_, by rw [render, render_eq, render_eq']; rfl, ?_⟩
      exact (scans.operation op.scans_symbol scans').mono fun _ _ => trivial
  | cast _ type operand, ⟨plain, writable⟩ => by
      obtain ⟨text, render_eq, scans⟩ := exists_scans_render source operand writable
      refine ⟨_, by rw [render, render_eq]; rfl, ?_⟩
      have target := (TypeRef.scans_text plain).group (Ends.before (by decide))
      have inner := (target.append_blank fun _ => trivial).append scans fun _ _ => trivial
      have whole := inner.group (Ends.before (by decide))
      have text_eq : "((" ++ type.text ++ ") " ++ text ++ ")" =
          "(" ++ ("(" ++ type.text ++ ")" ++ " " ++ text) ++ ")" := by
        rw [show "((" = "(" ++ "(" from rfl, show ") " = ")" ++ " " from rfl]
        simp only [String.append_assoc]
      rw [text_eq]
      exact whole.mono fun _ _ => trivial
  | parenthesized _ inner, writable => by
      obtain ⟨text, render_eq, scans⟩ := exists_scans_render source inner writable
      refine ⟨_, by rw [render, render_eq]; rfl, ?_⟩
      rw [spelling]
      split_ifs with parens
      · have no_number : inner.isNumber = false := by
          cases inner <;> simp [hasParens] at parens <;> rfl
        rwa [no_number] at scans
      · exact (scans.group (Ends.before (by decide))).mono fun _ _ => trivial

/-- Writable expressions have renderings that scan by themselves in front of a comma. -/
theorem exists_scans_renderAll (source : Source) :
    ∀ exprs : List Expr, AllWritable exprs → ∃ texts, renderAll source exprs = .ok texts ∧
      List.Forall₂ (Scans · (Ends false) ·) texts (spellings exprs)
  | [], _ => ⟨[], rfl, .nil⟩
  | expr :: exprs, ⟨writable, all_writable⟩ => by
      obtain ⟨text, render_eq, scans⟩ := exists_scans_render source expr writable
      obtain ⟨texts, render_eq', scans'⟩ := exists_scans_renderAll source exprs all_writable
      refine ⟨text :: texts, by rw [renderAll, render_eq, render_eq']; rfl, .cons ?_ scans'⟩
      exact scans.mono fun rest ends => ends.of_false

end

end Expr

end JavaOutline
