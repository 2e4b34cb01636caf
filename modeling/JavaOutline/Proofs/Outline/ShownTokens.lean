import JavaOutline.Proofs.Java.Renderings
import JavaOutline.Proofs.Outline.Acceptance

/-!
# The tokens of a rendered expression

By induction on an expression: if the tokens of the source from one place to another have the fates
of one of its readings, its rendering scans into those that are shown, parentheses apart. Operators
and separators stand with blanks around them or are marks that need none; only a selection puts a
dot right behind its operand.
-/

namespace JavaOutline

open scoped Computability
open Token (Scans Ends lexeme spelled)
open Fate (shows showsKinds supplies passes lacks parens ofWord typeArguments annotation
  annotated ampersand passedGroup kept texts Stands)

/-! ## Types -/

/-- Types and the ampersands between them consist of annotations and of parts of their text. -/
theorem annotated_types_le :
    annotated * (ampersand * annotated)∗ ≤ ( annotation + Fate.types)∗ := by
  have both {left right : Language Fate} (first : left ≤ ( annotation + Fate.types)∗)
      (second : right ≤ ( annotation + Fate.types)∗) :
      left * right ≤ ( annotation + Fate.types)∗ :=
    (mul_le_mul' first second).trans (kstar_mul_kstar _).le
  have many {language : Language Fate} (one : language ≤ ( annotation + Fate.types)∗) :
      language∗ ≤ ( annotation + Fate.types)∗ :=
    (kstar_mono one).trans (kstar_idem _).le
  have annotations : annotation ≤ ( annotation + Fate.types)∗ := le_self_add.trans le_kstar
  have parts : Fate.types ≤ ( annotation + Fate.types)∗ := le_add_self.trans le_kstar
  have ampersands : ampersand ≤ ( annotation + Fate.types)∗ := by
    rintro _ ⟨token, kind_eq, rfl⟩
    exact parts ⟨token, by simp [Token.isTypePart, kind_eq, TokenKind.isTypeArgument], rfl⟩
  have type : annotated ≤ ( annotation + Fate.types)∗ :=
    both (many annotations) (both parts (many parts))
  exact both type (many (both ampersands type))

/-- Besides annotations, a type has tokens that are parts of its text. -/
theorem exists_of_mem_types {fates : List Fate}
    (member : fates ∈ annotated * (ampersand * annotated)∗) :
    ∃ found : List Token, kept fates = found.map .typed ∧ ∀ token ∈ found, token.isTypePart := by
  obtain ⟨parts, rfl, parts_mem⟩ := Language.mem_kstar.mp (annotated_types_le member)
  clear member
  induction parts with
  | nil => exact ⟨[], rfl, nofun⟩
  | cons part parts induction =>
      obtain ⟨part_mem, parts_mem⟩ := List.forall_mem_cons.mp parts_mem
      obtain ⟨found, kept_eq, all⟩ := induction parts_mem
      rw [List.flatten_cons, Fate.kept_append, kept_eq]
      rcases part_mem with passed | ⟨token, part, rfl⟩
      · have silent : kept part = [] := Silent.annotation part passed
        exact ⟨found, by rw [silent, List.nil_append], all⟩
      · exact ⟨token :: found, rfl, List.forall_mem_cons.mpr ⟨part, all⟩⟩

namespace Renders

variable {source : Source} {closed closed' : Bool} {language : Language Fate} {text : String}

/-- A type. -/
theorem type (type : TypeRef) : Renders source false type.reading type.text := by
  rintro fates ⟨member, text_eq⟩ stands dot selectable
  obtain ⟨found, kept_eq, parts⟩ := exists_of_mem_types member
  have scanned (token : Token) (token_mem : token ∈ found) :
      token ∈ Token.scan 0 source.chars := by
    have typed : Fate.typed token ∈ kept fates := by
      rw [kept_eq]
      exact List.mem_map_of_mem token_mem
    exact stands.mem_scan (Fate.mem_tokens_of_mem_kept typed rfl)
  have spaced := stands.spaced
  rw [Fate.Spaced, kept_eq, List.isChain_map] at spaced
  have scans : Scans _ (Ends dot) _ := Token.scans_typeText parts
    (fun token member => Token.isSpelled_of_mem_scanFrom (scanned token member))
    (fun token member => Token.isWordText_of_mem_scanFrom (scanned token member)) spaced
    fun dot_eq last found_eq => selectable dot_eq (.typed last)
      (by rw [kept_eq, List.getLast?_map, found_eq]; rfl) last rfl
  have text_eq : type.text = String.join (found.map Token.typeArgumentText) := by
    rw [text_eq, ← Fate.typeText_kept, kept_eq, Fate.typeText, List.filterMap_map]
    exact congrArg String.join (List.filterMap_eq_map (f := Token.typeArgumentText) ▸ rfl)
  have texts_eq : texts fates = found.map (·.text) := by
    rw [← Fate.texts_kept, kept_eq, texts, List.filterMap_map]
    exact List.filterMap_eq_map (f := Token.text) ▸ rfl
  rw [text_eq]
  refine (scans.mono fun rest ends => ends.resolve_left Bool.false_ne_true).widen ?_
  intro others lexemes_eq
  have lexemes_eq : others.map lexeme = found.map lexeme := lexemes_eq
  change unparen (others.map (·.text)) = _
  have same := congrArg (List.map Prod.snd) lexemes_eq
  rw [List.map_map, List.map_map] at same
  rw [texts_eq]
  exact congrArg unparen same

theorem whole_type (type : TypeRef) : Renders source false type.whole type.text := by
  have read : Renders source false type.reading type.text := .type type
  refine .add ?_ (read.upTo _)
  rintro fates ⟨rfl, text_eq⟩ stands dot -
  rw [text_eq]
  exact fun offset rest _ => ⟨[], rfl, rfl⟩

/-! ## Selections -/

theorem selector (field : String) :
    Renders source false (showsKinds [.dot] * (1 + passes typeArguments) * shows .word field)
      ("." ++ field) := by
  rintro _ ⟨_, ⟨mark, mark_mem, skipped, skipped_mem, rfl⟩, word, ⟨span, rfl⟩, rfl⟩ stands dot -
  have mark_eq := stands.of_append_left.of_append_left.texts_eq [(.dot, ".")] (by decide) mark_mem
  have skipped_eq : texts skipped = [] := by
    rw [← Fate.texts_kept, (Silent.one.add (.passes _)) skipped skipped_mem]
    rfl
  have word_mem : ⟨.word, field, span⟩ ∈ Token.scan 0 source.chars :=
    stands.of_append_right.mem_scan List.mem_cons_self
  have scans := Token.scans_dot.append
    (Token.scans_word (Token.isWordText_of_mem_scanFrom word_mem rfl)) fun rest _ => by
      obtain ⟨c, cs, chars_eq, start, -⟩ := Token.exists_cons_of_isWordText
        (Token.isWordText_of_mem_scanFrom word_mem rfl)
      exact ⟨c, cs ++ rest, by rw [chars_eq, List.cons_append], start⟩
  refine (scans.mono fun rest ends => (ends.resolve_left Bool.false_ne_true).withDot).widen ?_
  rintro _ ⟨dots, ⟨dots_eq, -⟩, words, ⟨words_eq, -⟩, rfl⟩
  obtain ⟨first, rfl, first_eq⟩ := List.map_eq_singleton_iff.mp dots_eq
  obtain ⟨last, rfl, last_eq⟩ := List.map_eq_singleton_iff.mp words_eq
  have first_eq : first.text = "." := congrArg Prod.snd first_eq
  have last_eq : last.text = field := congrArg Prod.snd last_eq
  change unparen [first.text, last.text] = unparen (texts (mark ++ skipped ++ [Fate.shown _]))
  rw [Fate.texts_append, Fate.texts_append, mark_eq, skipped_eq, first_eq, last_eq]
  rfl

/-- A selection puts a dot right behind what it selects from. -/
theorem select (renders : Renders source closed language text) (field : String) :
    Renders source false
      (language * showsKinds [.dot] * (1 + passes typeArguments) * shows .word field)
      (text ++ "." ++ field) := by
  have whole : Renders source false _ _ :=
    Renders.mul_dot renders (selector field) ?_
  · rw [mul_assoc _ _ (shows .word field), mul_assoc, ← mul_assoc (showsKinds [.dot]),
      String.append_assoc]
    exact whole
  · rintro _ ⟨_, ⟨_, ⟨marks, kinds_eq, rfl⟩, skipped, skipped_mem, rfl⟩, word, -, rfl⟩
    obtain ⟨dot, rfl, kind_eq⟩ := List.map_eq_singleton_iff.mp kinds_eq
    exact ⟨dot, _, rfl, kind_eq⟩

/-! ## Parentheses -/

/-- Where nothing but parentheses is shown, nothing is left. -/
theorem hide {front back : Language Fate} (renders : Renders source true language text)
    (opens : ∀ fates ∈ front, Stands source fates → unparen (texts fates) = [])
    (closes : ∀ fates ∈ back, Stands source fates → unparen (texts fates) = []) :
    Renders source true (front * language * back) text := by
  rintro _ ⟨_, ⟨opening, opening_mem, fates, member, rfl⟩, closing, closing_mem, rfl⟩ stands dot -
  have opening_eq := opens opening opening_mem stands.of_append_left.of_append_left
  have closing_eq := closes closing closing_mem stands.of_append_right
  have scans := renders fates member stands.of_append_left.of_append_right false nofun
  have same : renderedAs (opening ++ fates ++ closing) = renderedAs fates := by
    rw [renderedAs, Fate.texts_append, Fate.texts_append, unparen_append, unparen_append,
      opening_eq, closing_eq, List.nil_append, List.append_nil]
    rfl
  exact same ▸ scans.mono fun _ _ => .inl rfl

theorem unparen_openParen (fates : List Fate) (member : fates ∈ showsKinds [.openParen])
    (stands : Stands source fates) : unparen (texts fates) = [] := by
  rw [stands.texts_eq [(.openParen, "(")] (by decide) member]
  rfl

theorem unparen_closeParen (fates : List Fate) (member : fates ∈ showsKinds [.closeParen])
    (stands : Stands source fates) : unparen (texts fates) = [] := by
  rw [stands.texts_eq [(.closeParen, ")")] (by decide) member]
  rfl

/-- Parentheses that are not shown again. -/
theorem parens_of_closed (renders : Renders source true language text) :
    Renders source true (parens language) text := by
  refine renders.hide unparen_openParen fun fates member stands => ?_
  rcases member with none | member
  · rw [← Fate.texts_kept, Silent.lacks _ fates none]
    rfl
  · exact unparen_closeParen fates member stands

theorem parens (renders : Renders source closed language text) :
    Renders source true (parens language) ("(" ++ text ++ ")") :=
  renders.group.parens_of_closed

/-! ## Operators and arguments -/

theorem nothing : Renders source closed 1 "" := by
  rintro fates rfl stands dot -
  exact fun offset rest _ => ⟨[], rfl, rfl⟩

/-- A blank may be put between what is shown. -/
theorem append_blank (renders : Renders source closed language text) :
    Renders source true language (text ++ " ") := by
  have blank : Renders source true 1 " " := by
    rintro fates rfl stands dot -
    exact fun offset rest _ => ⟨[], rfl, rfl⟩
  have whole := renders.mul blank (.inr ⟨' ', [], rfl, by decide⟩)
  rwa [mul_one] at whole

theorem after_blank (renders : Renders source closed language text) :
    Renders source closed language (" " ++ text) := by
  have empty : Renders source true 1 "" := nothing
  have blank : Renders source true 1 " " := by simpa using empty.append_blank
  have whole := blank.mul renders (.inl rfl)
  rwa [one_mul] at whole

/-- A punctuation mark, with blanks around it or without. -/
theorem mark {kind : TokenKind} {shown : String} (known : (shown.toList, kind) ∈ Token.punctuation)
    (scans : Scans text (fun _ => True) (spelled [(kind, shown)])) :
    Renders source true (showsKinds [kind]) text := by
  have single : ∀ lexeme ∈ [(kind, shown)], (lexeme.2.toList, lexeme.1) ∈ Token.punctuation := by
    simpa using known
  exact marks single scans

/-- An operator with blanks around it. -/
theorem operator {symbol : String} {lexemes : List Token.Lexeme}
    (known : ∀ lexeme ∈ lexemes, (lexeme.2.toList, lexeme.1) ∈ Token.punctuation)
    (scans : Scans symbol BeginsBlank (spelled lexemes)) :
    Renders source true (showsKinds (lexemes.map (·.1))) (" " ++ symbol ++ " ") := by
  have whole := (Scans.blank.append scans fun _ _ => trivial).append_blank fun rest => ⟨rest, rfl⟩
  rw [one_mul] at whole
  exact marks known whole

/-- An operator with its two operands. -/
theorem operation {right : Language Fate} {text' symbol : String} {lexemes : List Token.Lexeme}
    (first : Renders source closed language text)
    (known : ∀ lexeme ∈ lexemes, (lexeme.2.toList, lexeme.1) ∈ Token.punctuation)
    (scans : Scans symbol BeginsBlank (spelled lexemes))
    (second : Renders source closed' right text') :
    Renders source true (language * showsKinds (lexemes.map (·.1)) * right)
      ("(" ++ text ++ " " ++ symbol ++ " " ++ text' ++ ")") := by
  have begins : BeginsEnding (" " ++ symbol ++ " ") :=
    .append (.append ⟨' ', [], rfl, by decide⟩ symbol) " "
  have left := first.mul (operator known scans) (.inr begins)
  have whole := (left.mul second (.inl rfl)).group
  simpa only [String.append_assoc] using whole

/-- Arguments in parentheses behind what is called. -/
theorem applied {right : Language Fate} {text' : String}
    (first : Renders source closed language text) (second : Renders source closed' right text') :
    Renders source true (language * Fate.parens right) (text ++ "(" ++ text' ++ ")") := by
  have begins : BeginsEnding ("(" ++ text' ++ ")") :=
    .append (.append ⟨'(', [], rfl, by decide⟩ text') ")"
  simpa only [String.append_assoc] using first.mul second.parens (.inr begins)

/-- An index in brackets; the closing one may be missing. -/
theorem indexed {index : Language Fate} {text' : String}
    (first : Renders source closed language text) (second : Renders source closed' index text') :
    Renders source true
      (language * showsKinds [.openBracket] * index *
        (showsKinds [.closeBracket] + supplies .closeBracket "]"))
      (text ++ "[" ++ text' ++ "]") := by
  have opening : Renders source true (showsKinds [.openBracket]) "[" :=
    mark (by decide) Token.scans_openBracket
  have closing : Renders source true
      (showsKinds [.closeBracket] + supplies .closeBracket "]") "]" :=
    (mark (by decide) Token.scans_closeBracket).add (supplied Token.scans_closeBracket)
  have opened := first.mul opening (.inr ⟨'[', [], rfl, by decide⟩)
  exact (opened.mul second (.inl rfl)).mul closing (.inr ⟨']', [], rfl, by decide⟩)

/-- A type test, up to what it binds. -/
theorem tested (renders : Renders source closed language text) (type : TypeRef) :
    Renders source false
      (language * shows .word "instanceof" * (1 + passes (ofWord "final")) * type.whole *
        passedGroup) (text ++ " instanceof " ++ type.text) := by
  have word : Renders source true (shows .word "instanceof") " instanceof " :=
    keyword Token.scans_instanceof
  have written : Renders source false type.whole type.text := whole_type type
  have test := renders.mul word (.inr ⟨' ', _, rfl, by decide⟩)
  have finals : Silent (1 + passes (ofWord "final")) := .add .one (.passes _)
  exact ((test.skip_right finals).mul written (.inl rfl)).skip_right .passedGroup

/-- The choice between two operands by a third; the colon may be missing. -/
theorem chosen {closed'' : Bool} {middle right : Language Fate} {text' text'' : String}
    (first : Renders source closed language text) (second : Renders source closed' middle text')
    (third : Renders source closed'' right text'') :
    Renders source true
      (language * showsKinds [.question] * middle *
        (showsKinds [.colon] + supplies .colon ":") * right)
      ("(" ++ text ++ " ? " ++ text' ++ " : " ++ text'' ++ ")") := by
  have question : Renders source true (showsKinds [.question]) " ? " :=
    mark (by decide) Token.scans_question
  have colon : Renders source true (showsKinds [.colon] + supplies .colon ":") " : " :=
    (mark (by decide) Token.scans_colon).add (supplied Token.scans_colon)
  have asked := first.mul question (.inr ⟨' ', _, rfl, by decide⟩)
  have answered := (asked.mul second (.inl rfl)).mul colon (.inr ⟨' ', _, rfl, by decide⟩)
  have whole := (answered.mul third (.inl rfl)).group
  simpa only [String.append_assoc] using whole

/-- A cast of an operand. -/
theorem cast (type : TypeRef) (renders : Renders source closed language text) :
    Renders source true
      (showsKinds [.openParen] * type.reading * showsKinds [.closeParen] * language)
      ("((" ++ type.text ++ ") " ++ text ++ ")") := by
  have written : Renders source false type.reading type.text := .type type
  have target := (written.group.hide unparen_openParen unparen_closeParen).append_blank
  have whole := (target.mul renders (.inl rfl)).group
  have text_eq : "((" ++ type.text ++ ") " ++ text ++ ")" =
      "(" ++ ("(" ++ type.text ++ ")" ++ " " ++ text) ++ ")" := by
    rw [show "((" = "(" ++ "(" from rfl, show ") " = ")" ++ " " from rfl]
    simp only [String.append_assoc]
  rw [text_eq]
  exact whole

end Renders

theorem UnaryOp.known_lexemes (op : UnaryOp) :
    ∀ lexeme ∈ op.lexemes, (lexeme.2.toList, lexeme.1) ∈ Token.punctuation := by
  cases op <;> decide

theorem UpdateOp.known_lexemes (op : UpdateOp) :
    ∀ lexeme ∈ op.lexemes, (lexeme.2.toList, lexeme.1) ∈ Token.punctuation := by
  cases op <;> decide

theorem UpdateOp.scans_symbol_of_ends (op : UpdateOp) :
    Scans op.symbol (Ends true) (spelled op.lexemes) := by
  rintro offset _ ⟨c, more, rfl, ends⟩
  have listed : c ∈ [' ', ')', ']', ',', '[', '(', '.'] := by grind
  simp only [List.mem_cons, List.not_mem_nil, or_false] at listed
  rcases listed with rfl | rfl | rfl | rfl | rfl | rfl | rfl
  all_goals cases op <;> exact ⟨[⟨_, _, _⟩], ⟨rfl, .singleton _⟩, rfl⟩

theorem BinaryOp.known_lexemes (op : BinaryOp) :
    ∀ lexeme ∈ op.lexemes, (lexeme.2.toList, lexeme.1) ∈ Token.punctuation := by
  cases op <;> decide

theorem AssignOp.known_lexemes (op : AssignOp) :
    ∀ lexeme ∈ op.lexemes, (lexeme.2.toList, lexeme.1) ∈ Token.punctuation := by
  cases op <;> decide

namespace Expr

open Renders

/-- There is a comma in front of an argument that is not missing. -/
theorem comma_cons {expr : Expr} (found : expr ≠ .missing expr.span) (exprs : List Expr) :
    comma (expr :: exprs) = showsKinds [.comma] := by
  cases expr with
  | missing => exact absurd rfl found
  | _ => rfl

theorem found_of_render {source : Source} {expr : Expr} {text : String}
    (rendered : expr.render source = .ok text) : expr ≠ .missing expr.span := by
  intro missing
  rw [missing, render] at rendered
  cases rendered

theorem sliced_of_copy {source : Source} {expr : Expr} {text : String}
    (copied : expr.copy source = .ok text) : source.slice? expr.span = some text := by
  unfold copy at copied
  split at copied
  · next sliced => rw [sliced, Except.ok.inj copied]
  · cases copied

/-- What follows `new` in an allocation. -/
theorem allocates {source : Source} {arguments : List Expr} {texts : List String} (type : TypeRef)
    (render_eq : renderAll source arguments = .ok texts)
    (renders : Renders source false (readings arguments) (", ".intercalate texts)) :
    Renders source true
      ((1 + passes typeArguments) * type.whole *
        (if arguments.isEmpty then lacks (·.kind = .openParen) + Fate.parens (readings arguments)
          else Fate.parens (readings arguments)) * lacks (·.kind = .openBrace))
      (" " ++ (type.text ++ ("(" ++ ", ".intercalate texts ++ ")"))) := by
  have applied : Renders source true
      (if arguments.isEmpty then lacks (·.kind = .openParen) + Fate.parens (readings arguments)
        else Fate.parens (readings arguments)) ("(" ++ ", ".intercalate texts ++ ")") := by
    split_ifs with empty
    · obtain rfl := List.isEmpty_iff.mp empty
      obtain rfl := Except.ok.inj render_eq
      have nowhere : Renders source true 1 "" := nothing
      exact (nowhere.upTo _).group.add renders.parens
    · exact renders.parens
  have written : Renders source false type.whole type.text := .whole_type type
  have named := written.skip_left (.add .one (.passes typeArguments))
  have allocated := named.mul applied (.inr (.append (.append ⟨'(', [], rfl, by decide⟩ _) _))
  exact (allocated.skip_right (.lacks _)).after_blank

mutual

/-- The rendering of an expression scans into the tokens that are shown of it. -/
theorem renders_render (source : Source) : ∀ (expr : Expr) {text : String},
    expr.render source = .ok text → Renders source expr.hasParens expr.reading text
  | name _ text, _, rendered => by
      obtain rfl := Except.ok.inj rendered
      have silent : Silent
          (if isPrimitive text then Fate.loosePairs else lacks (·.kind = .openParen)) := by
        split_ifs
        · exact .loses _ _
        · exact .lacks _
      exact (Renders.token .word text).skip_right silent
  | literal _ kind text, _, rendered => by
      obtain rfl := Except.ok.inj rendered
      exact .token kind.tokenKind text
  | this _, _, rendered => by
      obtain rfl := Except.ok.inj rendered
      exact (Renders.token .word "this").skip_right (.lacks _)
  | super _, _, rendered => by
      obtain rfl := Except.ok.inj rendered
      exact (Renders.token .word "super").skip_right (.lacks _)
  | fieldAccess _ receiver field, _, rendered => by
      obtain ⟨text, render_eq, later⟩ := Except.exists_of_bind_eq_ok rendered
      obtain rfl := Except.ok.inj later
      have inner := (renders_render source receiver render_eq).before_trail receiver
      exact (inner.select field.text).skip_right (.lacks _)
  | arrayAccess _ array index, _, rendered => by
      obtain ⟨text, render_eq, later⟩ := Except.exists_of_bind_eq_ok rendered
      obtain ⟨text', render_eq', later⟩ := Except.exists_of_bind_eq_ok later
      obtain rfl := Except.ok.inj later
      have inner := (renders_render source array render_eq).before_trail array
      exact (inner.indexed ((renders_render source index render_eq').whole index)).open_
  | call _ method arguments, _, rendered => by
      obtain ⟨texts, render_eq, later⟩ := Except.exists_of_bind_eq_ok rendered
      obtain rfl := Except.ok.inj later
      exact ((Renders.token .word method.text).applied
        (renders_renderAll source arguments render_eq)).open_
  | memberCall _ receiver method arguments, _, rendered => by
      obtain ⟨text, render_eq, later⟩ := Except.exists_of_bind_eq_ok rendered
      obtain ⟨texts, render_eq', later⟩ := Except.exists_of_bind_eq_ok later
      obtain rfl := Except.ok.inj later
      have inner := (renders_render source receiver render_eq).before_trail receiver
      exact ((inner.select method.text).applied
        (renders_renderAll source arguments render_eq')).open_
  | creation span type arguments (some body), _, rendered =>
      (Renders.copied (sliced_of_copy rendered)).upTo _
  | creation span type arguments none, _, rendered => by
      obtain ⟨texts, render_eq, later⟩ := Except.exists_of_bind_eq_ok rendered
      obtain rfl := Except.ok.inj later
      have allocated := allocates type render_eq (renders_renderAll source arguments render_eq)
      have whole := (Renders.token .word "new").mul allocated
        (.inr (.append ⟨' ', [], rfl, by decide⟩ _))
      change Renders source false (allocation type arguments (readings arguments)) _
      rw [show "new " = "new" ++ " " from rfl]
      simp only [allocation, String.append_assoc, mul_assoc] at whole ⊢
      exact whole.open_
  | innerCreation span outer type arguments (some body), _, rendered =>
      (Renders.copied (sliced_of_copy rendered)).upTo _
  | innerCreation span outer type arguments none, _, rendered => by
      obtain ⟨text, render_eq, later⟩ := Except.exists_of_bind_eq_ok rendered
      obtain ⟨texts, render_eq', later⟩ := Except.exists_of_bind_eq_ok later
      obtain rfl := Except.ok.inj later
      have allocated := allocates type render_eq' (renders_renderAll source arguments render_eq')
      have inner := (renders_render source outer render_eq).before_trail outer
      have whole := (inner.select "new").mul allocated
        (.inr (.append ⟨' ', [], rfl, by decide⟩ _))
      change Renders source false (outer.reading * outer.trail * showsKinds [.dot] *
        (1 + passes typeArguments) * allocation type arguments (readings arguments)) _
      rw [show ".new " = "." ++ ("new" ++ " ") from rfl]
      simp only [allocation, String.append_assoc, mul_assoc] at whole ⊢
      exact whole.open_
  | unary _ op inner, _, rendered => by
      obtain ⟨text, render_eq, later⟩ := Except.exists_of_bind_eq_ok rendered
      obtain rfl := Except.ok.inj later
      have symbol : Renders source true _ (op.symbol ++ " ") :=
        marks op.known_lexemes (op.scans_symbol.append_blank fun rest => ⟨rest, rfl⟩)
      have applied := symbol.mul ((renders_render source inner render_eq).operand inner) (.inl rfl)
      have whole := applied.group
      simp only [String.append_assoc] at whole ⊢
      exact whole
  | update _ op operand, _, rendered => by
      obtain ⟨text, render_eq, later⟩ := Except.exists_of_bind_eq_ok rendered
      obtain rfl := Except.ok.inj later
      have symbol : Renders source false _ (" " ++ op.symbol) :=
        (open_marks op.known_lexemes op.scans_symbol_of_ends).after_blank
      have inner := (renders_render source operand render_eq).before_trail operand
      have whole := (inner.mul symbol (.inr (.append ⟨' ', [], rfl, by decide⟩ _))).group
      simp only [String.append_assoc] at whole ⊢
      exact whole
  | binary _ op left right, _, rendered => by
      obtain ⟨text, render_eq, later⟩ := Except.exists_of_bind_eq_ok rendered
      obtain ⟨text', render_eq', later⟩ := Except.exists_of_bind_eq_ok later
      obtain rfl := Except.ok.inj later
      have first := (renders_render source left render_eq).before_trail left
      exact first.operation op.known_lexemes op.scans_symbol
        ((renders_render source right render_eq').operand right)
  | instanceOf _ examined type binding, _, rendered => by
      obtain ⟨text, render_eq, later⟩ := Except.exists_of_bind_eq_ok rendered
      obtain rfl := Except.ok.inj later
      have inner := (renders_render source examined render_eq).before_trail examined
      have tested := inner.tested type
      cases binding with
      | none =>
          have whole := (tested.skip_right (.lacks (·.isName = true))).group
          simp only [String.append_empty, String.append_assoc] at whole ⊢
          exact whole
      | some binding =>
          have bound : Renders source false (shows .word binding) (" " ++ binding) :=
            (Renders.token .word binding).after_blank
          have whole := (tested.mul bound (.inr (.append ⟨' ', [], rfl, by decide⟩ _))).group
          simp only [String.append_assoc] at whole ⊢
          exact whole
  | conditional _ condition whenTrue whenFalse, _, rendered => by
      obtain ⟨text, render_eq, later⟩ := Except.exists_of_bind_eq_ok rendered
      obtain ⟨text', render_eq', later⟩ := Except.exists_of_bind_eq_ok later
      obtain ⟨text'', render_eq'', later⟩ := Except.exists_of_bind_eq_ok later
      obtain rfl := Except.ok.inj later
      have first := (renders_render source condition render_eq).before_trail condition
      exact first.chosen
        ((renders_render source whenTrue render_eq').whole whenTrue)
        ((renders_render source whenFalse render_eq'').whole whenFalse)
  | assignment _ op target value, _, rendered => by
      obtain ⟨text, render_eq, later⟩ := Except.exists_of_bind_eq_ok rendered
      obtain ⟨text', render_eq', later⟩ := Except.exists_of_bind_eq_ok later
      obtain rfl := Except.ok.inj later
      have first := (renders_render source target render_eq).before_trail target
      exact first.operation op.known_lexemes op.scans_symbol
        ((renders_render source value render_eq').whole value)
  | cast _ type inner, _, rendered => by
      obtain ⟨text, render_eq, later⟩ := Except.exists_of_bind_eq_ok rendered
      obtain rfl := Except.ok.inj later
      exact .cast type ((renders_render source inner render_eq).whole inner)
  | parenthesized _ inner, _, rendered => by
      obtain ⟨text, render_eq, later⟩ := Except.exists_of_bind_eq_ok rendered
      obtain rfl := Except.ok.inj later
      have inside := (renders_render source inner render_eq).whole inner
      change Renders source true _ _
      split_ifs with closed
      · rw [closed] at inside
        exact inside.parens_of_closed
      · exact inside.parens
  | excerpt span kind, _, rendered => (Renders.copied (sliced_of_copy rendered)).upTo _
  | missing _, _, rendered => by cases rendered

/-- The renderings of arguments with commas between them scan into the tokens that are shown. -/
theorem renders_renderAll (source : Source) : ∀ (exprs : List Expr) {texts : List String},
    renderAll source exprs = .ok texts →
      Renders source false (readings exprs) (", ".intercalate texts)
  | [], _, rendered => by
      obtain rfl := Except.ok.inj rendered
      have ends : Renders source false (lacks (·.kind ≠ .closeParen)) "" := Renders.nothing.upTo _
      rw [readings]
      exact ends
  | [expr], _, rendered => by
      obtain ⟨text, render_eq, later⟩ := Except.exists_of_bind_eq_ok rendered
      obtain rfl := Except.ok.inj later
      have argument := (renders_render source expr render_eq).open_.argument expr
      exact (argument.skip_right (.add .one (.loses _ _))).skip_right (.lacks _)
  | expr :: following :: exprs, _, rendered => by
      obtain ⟨text, render_eq, later⟩ := Except.exists_of_bind_eq_ok rendered
      obtain ⟨texts, render_eq', later⟩ := Except.exists_of_bind_eq_ok later
      obtain rfl := Except.ok.inj later
      obtain ⟨text', render_eq'', later⟩ := Except.exists_of_bind_eq_ok render_eq'
      obtain ⟨texts', -, later⟩ := Except.exists_of_bind_eq_ok later
      obtain rfl := Except.ok.inj later
      have argument := (renders_render source expr render_eq).argument expr
      have separated := argument.mul (mark (by decide) Token.scans_comma)
        (.inr ⟨',', _, rfl, by decide⟩)
      have later := renders_renderAll source (following :: exprs) render_eq'
      have whole := separated.mul later (.inl rfl)
      rw [readings, comma_cons (found_of_render render_eq''), String.intercalate_cons_cons]
      simpa only [String.append_assoc] using whole

end

/-- **A rendering keeps the tokens that are shown.** If the tokens of the source from one place to
another have the fates of a reading of an expression, the rendering scans into what is shown of
them, parentheses apart. -/
theorem unparen_scan_render {source : Source} {expr : Expr} {text : String} {fates : List Fate}
    (rendered : expr.render source = .ok text) (read : fates ∈ expr.reading)
    (stands : Stands source fates) (offset : Nat) :
    unparen ((Token.scan offset text.toList).map (·.text)) = unparen (texts fates) :=
  ((renders_render source expr rendered fates read stands false nofun).mono
    fun _ ends => .inr ends).alone offset

end Expr

end JavaOutline
