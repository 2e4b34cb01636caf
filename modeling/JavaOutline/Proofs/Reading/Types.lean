import JavaOutline.Proofs.Reading.Patterns

/-!
# Types are read exactly

The grammar of types is recursive, since type arguments are types again. Type arguments are read by
counting the angle brackets that are open, token by token. Both agree: at every depth, the tokens of
type arguments are taken for their text, and the depth is the same after them. Hence a type is read
to its last token, if no token follows that could continue it, and nothing is read where there is no
type.
-/

namespace JavaOutline

/-- A mark with the text that it is written with. -/
structure Sign (kind : TokenKind) (text : String) extends Mark kind where
  text_eq : token.text = text

/-- The name of a primitive type. -/
structure PrimitiveWord where
  /-- The token. -/
  token : Token
  is_word : token.kind = .word
  primitive : isPrimitive token.text = true

/-- A word that bounds a wildcard. -/
structure BoundWord where
  /-- The token. -/
  token : Token
  is_bound : token.isWord "extends" = true ∨ token.isWord "super" = true

/-- A pair of brackets with nothing between them. -/
structure BracketPair where
  /-- The opening bracket. -/
  opening : Sign .openBracket "["
  /-- The closing bracket. -/
  closing : Sign .closeBracket "]"

mutual

/-- A type: the name of a primitive type, or words with dots between them that may each have type
arguments. Bracket pairs may follow. -/
inductive WrittenType where
  | primitive (word : PrimitiveWord) (pairs : List BracketPair)
  | named (word : Identifier) (arguments : TypeArguments) (members : TypeMembers)
      (pairs : List BracketPair)

/-- The type arguments after a word; there may be none, and none between the angle brackets. -/
inductive TypeArguments where
  | none
  | empty (opening : Mark .less) (closing : Mark .greater)
  | list (opening : Mark .less) (arguments : ArgumentList) (closing : Mark .greater)

/-- The words after the first one. -/
inductive TypeMembers where
  | none
  | cons (dot : Sign .dot ".") (word : Identifier) (arguments : TypeArguments)
      (later : TypeMembers)

/-- Type arguments with commas between them; there is at least one. -/
inductive ArgumentList where
  | last (argument : TypeArgument)
  | cons (argument : TypeArgument) (comma : Mark .comma) (later : ArgumentList)

/-- A type argument: a type, or a wildcard that may be bounded by a type. -/
inductive TypeArgument where
  | type (type : WrittenType)
  | wildcard (question : Mark .question)
  | bounded (question : Mark .question) (word : BoundWord) (bound : WrittenType)

end

namespace BracketPair

/-- The tokens of bracket pairs. -/
def tokens : List BracketPair → List Token
  | [] => []
  | pair :: pairs => pair.opening.token :: pair.closing.token :: tokens pairs

/-- The text of bracket pairs. -/
def text : List BracketPair → String
  | [] => ""
  | pair :: pairs => pair.opening.token.text ++ pair.closing.token.text ++ text pairs

end BracketPair

mutual

/-- The tokens of a type. -/
def WrittenType.tokens : WrittenType → List Token
  | .primitive word pairs => word.token :: BracketPair.tokens pairs
  | .named word arguments members pairs =>
    word.token :: (arguments.tokens ++ members.tokens ++ BracketPair.tokens pairs)

/-- The tokens of type arguments with their angle brackets. -/
def TypeArguments.tokens : TypeArguments → List Token
  | .none => []
  | .empty opening closing => [opening.token, closing.token]
  | .list opening arguments closing => opening.token :: (arguments.tokens ++ [closing.token])

/-- The tokens of the words after the first one. -/
def TypeMembers.tokens : TypeMembers → List Token
  | .none => []
  | .cons dot word arguments later =>
    dot.token :: word.token :: (arguments.tokens ++ later.tokens)

/-- The tokens of type arguments without their angle brackets. -/
def ArgumentList.tokens : ArgumentList → List Token
  | .last argument => argument.tokens
  | .cons argument comma later => argument.tokens ++ comma.token :: later.tokens

/-- The tokens of a type argument. -/
def TypeArgument.tokens : TypeArgument → List Token
  | .type type => type.tokens
  | .wildcard question => [question.token]
  | .bounded question word bound => question.token :: word.token :: bound.tokens

end

mutual

/-- The text of a type: that of its tokens, with a space on either side of a word that bounds a
wildcard. -/
def WrittenType.text : WrittenType → String
  | .primitive word pairs => word.token.text ++ BracketPair.text pairs
  | .named word arguments members pairs =>
    word.token.text ++ arguments.text ++ members.text ++ BracketPair.text pairs

/-- The text of type arguments with their angle brackets. -/
def TypeArguments.text : TypeArguments → String
  | .none => ""
  | .empty opening closing => opening.token.text ++ closing.token.text
  | .list opening arguments closing =>
    opening.token.text ++ arguments.text ++ closing.token.text

/-- The text of the words after the first one. -/
def TypeMembers.text : TypeMembers → String
  | .none => ""
  | .cons dot word arguments later =>
    dot.token.text ++ word.token.text ++ arguments.text ++ later.text

/-- The text of type arguments without their angle brackets. -/
def ArgumentList.text : ArgumentList → String
  | .last argument => argument.text
  | .cons argument comma later => argument.text ++ comma.token.text ++ later.text

/-- The text of a type argument. -/
def TypeArgument.text : TypeArgument → String
  | .type type => type.text
  | .wildcard question => question.token.text
  | .bounded question word bound =>
    question.token.text ++ (" " ++ word.token.text ++ " ") ++ bound.text

end

theorem Identifier.typeArgumentText_eq (word : Identifier) :
    word.token.typeArgumentText = word.token.text :=
  Token.typeArgumentText_of_free word.free

theorem PrimitiveWord.typeArgumentText_eq (word : PrimitiveWord) :
    word.token.typeArgumentText = word.token.text :=
  Token.typeArgumentText_of_primitive word.primitive

theorem BoundWord.is_word (word : BoundWord) : word.token.kind = .word := by
  have is_bound := word.is_bound
  simp only [Token.isWord, Bool.and_eq_true, decide_eq_true_eq] at is_bound
  rcases is_bound with ⟨kind, -⟩ | ⟨kind, -⟩ <;> exact kind

theorem BoundWord.typeArgumentText_eq (word : BoundWord) :
    word.token.typeArgumentText = " " ++ word.token.text ++ " " := by
  rcases word.is_bound with is_bound | is_bound <;> simp [Token.typeArgumentText, is_bound]

namespace Cursor

theorem finish_cons (token : Token) (rest : List Token) (behind : Nat) :
    finish ⟨token :: rest, behind⟩ = finish ⟨rest, token.span.stop⟩ :=
  (finish_tail ⟨token :: rest, behind⟩).symm

theorem finish_append (front back : List Token) (behind : Nat) :
    finish ⟨front ++ back, behind⟩ = finish ⟨back, finish ⟨front, behind⟩⟩ := by
  induction front generalizing behind with
  | nil => rfl
  | cons token front induction => rw [List.cons_append, finish_cons, finish_cons, induction]

/-- Whether tokens are taken for a text where `least` or more angle brackets are open, and leave
open as many as there were. -/
def TakesFor (least : Nat) (tokens : List Token) (text : String) : Prop :=
  ∀ depth, least ≤ depth → ∀ (before : String) (behind : Nat) (rest : List Token),
    typeRest? depth before behind (tokens ++ rest) =
      typeRest? depth (before ++ text) (finish ⟨tokens, behind⟩) rest

namespace TakesFor

variable {least : Nat} {front back tokens : List Token} {text later : String} {token : Token}

theorem nil (least : Nat) : TakesFor least [] "" := by
  intro depth _ before behind rest
  rw [List.nil_append, String.append_empty]
  rfl

theorem append (first : TakesFor least front text) (second : TakesFor least back later) :
    TakesFor least (front ++ back) (text ++ later) := by
  intro depth deep before behind rest
  rw [List.append_assoc, first depth deep, second depth deep, finish_append, String.append_assoc]

theorem cons (first : TakesFor least [token] text) (second : TakesFor least back later) :
    TakesFor least (token :: back) (text ++ later) :=
  append first second

theorem mono (takes : TakesFor 0 tokens text) (least : Nat) : TakesFor least tokens text :=
  fun depth _ => takes depth (Nat.zero_le depth)

/-- A single token among type arguments. -/
theorem argument (kind : token.kind.isTypeArgument = true) :
    TakesFor 1 [token] token.typeArgumentText := by
  intro depth deep before behind rest
  obtain ⟨depth, rfl⟩ := Nat.exists_eq_add_of_le' deep
  rw [List.singleton_append, typeRest?.eq_def]
  cases kind_eq : token.kind <;> simp_all [TokenKind.isTypeArgument, finish]

/-- What is taken for a text inside type arguments is so between angle brackets at any depth. -/
theorem angled (opening : Mark .less) (closing : Mark .greater) (inner : TakesFor 1 tokens text) :
    TakesFor 0 (opening.token :: (tokens ++ [closing.token]))
      (opening.token.text ++ text ++ closing.token.text) := by
  intro depth _ before behind rest
  have opened : typeRest? depth before behind
      (opening.token :: (tokens ++ closing.token :: rest)) =
        typeRest? (depth + 1) (before ++ opening.token.text) opening.token.span.stop
          (tokens ++ closing.token :: rest) := by
    rw [typeRest?.eq_def]
    cases depth <;> simp [opening.kind_eq]
  have closed (before : String) (behind : Nat) :
      typeRest? (depth + 1) before behind (closing.token :: rest) =
        typeRest? depth (before ++ closing.token.text) closing.token.span.stop rest := by
    simp [typeRest?, closing.kind_eq]
  rw [List.cons_append, List.append_assoc, List.singleton_append, opened,
    inner _ (Nat.le_add_left 1 depth), closed, finish_cons, finish_append, finish_cons]
  simp only [String.append_assoc]
  rfl

theorem mark {kind : TokenKind} (mark : Mark kind) (taken : kind.isTypeArgument = true)
    (no_word : kind ≠ .word) : TakesFor 1 [mark.token] mark.token.text := by
  have takes : TakesFor 1 [mark.token] mark.token.typeArgumentText :=
    argument (by rw [mark.kind_eq, taken])
  rwa [Token.typeArgumentText_of_kind (by rwa [mark.kind_eq])] at takes

theorem word (is_word : token.kind = .word) : TakesFor 1 [token] token.typeArgumentText :=
  argument (by rw [is_word]; rfl)

theorem identifier (word : Identifier) : TakesFor 1 [word.token] word.token.text :=
  word.typeArgumentText_eq ▸ .word word.is_word

/-- A word after a dot. -/
theorem member (dot : Sign .dot ".") (word : Identifier) :
    TakesFor 0 [dot.token, word.token] (dot.token.text ++ word.token.text) := by
  intro depth _ before behind rest
  cases depth with
  | zero =>
      simp [typeRest?, dot.kind_eq, dot.text_eq, word.is_word, word.free, finish,
        String.append_assoc]
  | succ depth =>
      have taken : TakesFor 1 [dot.token, word.token] (dot.token.text ++ word.token.text) :=
        cons (mark dot.toMark rfl (by decide)) (identifier word)
      exact taken (depth + 1) (Nat.le_add_left 1 depth) before behind rest

theorem pairs (pairs : List BracketPair) :
    TakesFor 1 (BracketPair.tokens pairs) (BracketPair.text pairs) := by
  induction pairs with
  | nil => exact nil 1
  | cons pair pairs induction =>
      rw [BracketPair.text, String.append_assoc]
      exact cons (mark pair.opening.toMark rfl nofun)
        (cons (mark pair.closing.toMark rfl nofun) induction)

end TakesFor

end Cursor

open Cursor (TakesFor)

mutual

/-- Type arguments are taken for their text at any depth. -/
theorem TypeArguments.takesFor :
    (arguments : TypeArguments) → TakesFor 0 arguments.tokens arguments.text
  | .none => .nil 0
  | .empty opening closing => by
    have takes := TakesFor.angled opening closing (.nil 1)
    rwa [String.append_empty] at takes
  | .list opening arguments closing => .angled opening closing arguments.takesFor

/-- The words after the first one are taken for their text at any depth. -/
theorem TypeMembers.takesFor : (members : TypeMembers) → TakesFor 0 members.tokens members.text
  | .none => .nil 0
  | .cons dot word arguments later => by
    rw [TypeMembers.text, String.append_assoc]
    exact (TakesFor.member dot word).append (arguments.takesFor.append later.takesFor)

/-- Inside type arguments, a type is taken for its text. -/
theorem WrittenType.takesFor : (type : WrittenType) → TakesFor 1 type.tokens type.text
  | .primitive word pairs =>
    .cons (word.typeArgumentText_eq ▸ .word word.is_word) (.pairs pairs)
  | .named word arguments members pairs => by
    rw [WrittenType.text, String.append_assoc, String.append_assoc]
    exact .cons (.identifier word) (by
      rw [List.append_assoc]
      exact (arguments.takesFor.mono 1).append ((members.takesFor.mono 1).append (.pairs pairs)))

theorem ArgumentList.takesFor :
    (arguments : ArgumentList) → TakesFor 1 arguments.tokens arguments.text
  | .last argument => argument.takesFor
  | .cons argument comma later => by
    rw [ArgumentList.text, String.append_assoc]
    exact argument.takesFor.append (.cons (.mark comma rfl nofun) later.takesFor)

theorem TypeArgument.takesFor :
    (argument : TypeArgument) → TakesFor 1 argument.tokens argument.text
  | .type type => type.takesFor
  | .wildcard question => .mark question rfl nofun
  | .bounded question word bound => by
    rw [TypeArgument.text, String.append_assoc]
    exact .cons (.mark question rfl nofun)
      (.cons (word.typeArgumentText_eq ▸ .word word.is_word) bound.takesFor)

end

/-- Whether tokens do not begin with one that continues a type. -/
def EndsType (rest : List Token) : Prop :=
  ∀ token ∈ rest.head?, token.kind ∉ [.less, .dot, .openBracket]

/-- Bracket pairs do not continue the name of a type, and what ends a type does not. -/
theorem EndsType.pairs {rest : List Token} (ends : EndsType rest)
    (pairs : List BracketPair) : ∀ token ∈ (BracketPair.tokens pairs ++ rest).head?,
      token.kind ≠ .less ∧ token.kind ≠ .dot := by
  cases pairs with
  | nil =>
      intro token first
      have other := ends token first
      simp only [List.mem_cons, List.not_mem_nil, or_false, not_or] at other
      exact ⟨other.1, other.2.1⟩
  | cons pair pairs =>
      rintro _ ⟨rfl⟩
      simp [pair.opening.kind_eq]

namespace Cursor

variable {rest : List Token}

theorem typeRest?_of_ends (ends : ∀ token ∈ rest.head?, token.kind ≠ .less ∧ token.kind ≠ .dot)
    (text : String) (behind : Nat) :
    typeRest? 0 text behind rest = some (text, ⟨rest, behind⟩) := by
  cases rest with
  | nil => rfl
  | cons token rest =>
      rw [typeRest?.eq_def]
      simp [ends token rfl]

theorem afterBrackets_pairs (ends : ∀ token ∈ rest.head?, token.kind ≠ .openBracket)
    (pairs : List BracketPair) (behind : Nat) :
    afterBrackets behind (BracketPair.tokens pairs ++ rest) =
      (pairs.length, ⟨rest, finish ⟨BracketPair.tokens pairs, behind⟩⟩) := by
  induction pairs generalizing behind with
  | nil =>
      match rest with
      | [] | [_] => rfl
      | token :: _ :: _ => simp [BracketPair.tokens, afterBrackets, ends token rfl, finish]
  | cons pair pairs induction =>
      simp only [BracketPair.tokens, List.cons_append, afterBrackets, pair.opening.kind_eq,
        pair.closing.kind_eq, induction, finish_cons]
      rfl

end Cursor

theorem BracketPair.foldl_replicate (pairs : List BracketPair) (text : String) :
    (List.replicate pairs.length "[]").foldl (· ++ ·) text = text ++ BracketPair.text pairs := by
  induction pairs generalizing text with
  | nil => exact String.append_empty.symm
  | cons pair pairs induction =>
      have pair_eq : "[" ++ "]" = "[]" := rfl
      rw [List.length_cons, List.replicate_succ, List.foldl_cons, induction, BracketPair.text,
        pair.opening.text_eq, pair.closing.text_eq, pair_eq, String.append_assoc]

namespace WrittenType

/-- A type is a first word, what is taken for its text at any depth, and bracket pairs. -/
theorem exists_tokens_eq (type : WrittenType) :
    ∃ (first : Token) (middle : List Token) (text : String) (pairs : List BracketPair),
      type.tokens = first :: (middle ++ BracketPair.tokens pairs) ∧
      type.text = first.text ++ text ++ BracketPair.text pairs ∧
      first.beginsType = true ∧ TakesFor 0 middle text := by
  cases type with
  | primitive word pairs =>
      refine ⟨word.token, [], "", pairs, rfl, ?_, ?_, .nil 0⟩
      · rw [text, String.append_empty]
      · simp [Token.beginsType, word.is_word, word.primitive]
  | named word arguments members pairs =>
      refine ⟨word.token, _, _, pairs, rfl, ?_, ?_, arguments.takesFor.append members.takesFor⟩
      · rw [text, ← String.append_assoc]
      · simp [Token.beginsType, word.is_word, word.free]

variable {rest : List Token}

/-- A type is read to its last token if nothing continues it. -/
theorem typeRef?_eq (type : WrittenType) (ends : EndsType rest) (behind : Nat) :
    Parser.typeRef? ⟨type.tokens ++ rest, behind⟩ =
      (some ⟨type.text, Token.spanOf type.tokens⟩,
        ⟨rest, Cursor.finish ⟨type.tokens, behind⟩⟩) := by
  obtain ⟨first, middle, text, pairs, tokens_eq, text_eq, begins, takes⟩ := type.exists_tokens_eq
  have no_sign : first.kind ≠ .atSign := by
    simp only [Token.beginsType, Bool.and_eq_true, decide_eq_true_eq] at begins
    simp [begins.1]
  have no_bracket : ∀ token ∈ rest.head?, token.kind ≠ .openBracket := by
    intro token first kind
    simpa [kind] using ends token first
  have read : Cursor.typeRest? 0 first.text first.span.stop
      (middle ++ (BracketPair.tokens pairs ++ rest)) =
        some (first.text ++ text,
          ⟨BracketPair.tokens pairs ++ rest, Cursor.finish ⟨middle, first.span.stop⟩⟩) := by
    rw [takes 0 (Nat.le_refl 0), Cursor.typeRest?_of_ends (ends.pairs pairs)]
  have nonempty : type.tokens ≠ [] := by simp [tokens_eq]
  have span_eq := Token.spanFrom_finish nonempty rest behind
  rw [tokens_eq] at span_eq ⊢
  rw [Cursor.finish_cons, Cursor.finish_append] at span_eq ⊢
  rw [List.cons_append, List.append_assoc, Parser.typeRef?_cons no_sign, if_pos begins, read]
  simp only [Cursor.afterBrackets_pairs no_bracket, BracketPair.foldl_replicate, ← text_eq]
  rw [← span_eq]
  rfl

end WrittenType

namespace Parser

/-- Where there is no type, nothing is read. -/
theorem typeRef?_of_none {cursor : Cursor} (missing : (typeRef? cursor).1 = none) :
    (typeRef? cursor).2 = cursor := by
  simp only [typeRef?, bind_apply, get_apply] at missing ⊢
  rcases rest_eq : (skipAnnotations cursor).2.rest with _ | ⟨first, rest⟩
  · rfl
  · simp only [rest_eq] at missing ⊢
    split_ifs with begins
    · simp only [begins, if_true, bind_apply] at missing ⊢
      rcases text_eq : (typeRest? first.text (advance 1 (skipAnnotations cursor).2).2).1 with
        _ | text
      · rfl
      · rw [text_eq] at missing
        cases missing
    · rfl

/-- Types are read exactly: a type is read to its last token if no token follows that could continue
it, its text is that of its tokens, and its span runs from the first to the last. Where there is no
type, nothing is read. -/
theorem typeRef?_reads_exactly :
    (∀ (type : WrittenType) (rest : List Token) (behind : Nat), EndsType rest →
      ∃ first last, type.tokens.head? = some first ∧ type.tokens.getLast? = some last ∧
        typeRef? ⟨type.tokens ++ rest, behind⟩ =
          (some ⟨type.text, ⟨first.span.start, max last.span.stop first.span.start⟩⟩,
            ⟨rest, last.span.stop⟩) ∧
        (Cursor.IsOrdered ⟨type.tokens ++ rest, behind⟩ → first.span.start < last.span.stop)) ∧
    ∀ cursor, (typeRef? cursor).1 = none → (typeRef? cursor).2 = cursor := by
  refine ⟨fun type rest behind ends => ?_, fun _ => typeRef?_of_none⟩
  have read := type.typeRef?_eq ends behind
  obtain ⟨first, middle, -, pairs, tokens_eq, -, -, -⟩ := type.exists_tokens_eq
  rw [tokens_eq] at read ⊢
  set tail := middle ++ BracketPair.tokens pairs
  have last_eq : (first :: tail).getLast? = some (tail.getLast?.getD first) := List.getLast?_cons
  refine ⟨first, tail.getLast?.getD first, rfl, last_eq, ?_, ?_⟩
  · have finish_eq : Cursor.finish ⟨first :: tail, behind⟩ =
        (tail.getLast?.getD first).span.stop := by
      rw [Cursor.finish, last_eq]
      rfl
    rw [read, finish_eq, Token.spanOf]
  · rintro ⟨source, -, -, later⟩
    have from_first : Token.InOrder source first.span.start (first :: tail ++ rest) :=
      ⟨Nat.le_refl _, later⟩
    have member : tail.getLast?.getD first ∈ first :: tail ++ rest :=
      List.mem_append_left rest (List.mem_of_getLast? last_eq)
    exact Nat.lt_of_le_of_lt (from_first.le_start member) (from_first.start_lt_stop member)

/-- The type `Map<K,? extends V[]>.E[]`, at offset 0. -/
def nestedType : WrittenType :=
  .named ⟨⟨.word, "Map", ⟨0, 3⟩⟩, rfl, by decide⟩
    (.list ⟨⟨.less, "<", ⟨3, 4⟩⟩, rfl⟩
      (.cons (.type (.named ⟨⟨.word, "K", ⟨4, 5⟩⟩, rfl, by decide⟩ .none .none []))
        ⟨⟨.comma, ",", ⟨5, 6⟩⟩, rfl⟩
        (.last (.bounded ⟨⟨.question, "?", ⟨6, 7⟩⟩, rfl⟩
          ⟨⟨.word, "extends", ⟨8, 15⟩⟩, by decide⟩
          (.named ⟨⟨.word, "V", ⟨16, 17⟩⟩, rfl, by decide⟩ .none .none
            [⟨⟨⟨⟨.openBracket, "[", ⟨17, 18⟩⟩, rfl⟩, rfl⟩,
              ⟨⟨⟨.closeBracket, "]", ⟨18, 19⟩⟩, rfl⟩, rfl⟩⟩]))))
      ⟨⟨.greater, ">", ⟨19, 20⟩⟩, rfl⟩)
    (.cons ⟨⟨⟨.dot, ".", ⟨20, 21⟩⟩, rfl⟩, rfl⟩ ⟨⟨.word, "E", ⟨21, 22⟩⟩, rfl, by decide⟩ .none .none)
    [⟨⟨⟨⟨.openBracket, "[", ⟨22, 23⟩⟩, rfl⟩, rfl⟩, ⟨⟨⟨.closeBracket, "]", ⟨23, 24⟩⟩, rfl⟩, rfl⟩⟩]

/-- The nested type is read up to the name after it, and nothing is read of type arguments that are
not closed. -/
theorem typeRef?_reads_nestedType :
    EndsType [⟨.word, "e", ⟨25, 26⟩⟩] ∧
      typeRef? ⟨nestedType.tokens ++ [⟨.word, "e", ⟨25, 26⟩⟩], 0⟩ =
        (some ⟨"Map<K,? extends V[]>.E[]", ⟨0, 24⟩⟩, ⟨[⟨.word, "e", ⟨25, 26⟩⟩], 24⟩) ∧
      (typeRef? ⟨[⟨.word, "A", ⟨0, 1⟩⟩, ⟨.less, "<", ⟨1, 2⟩⟩, ⟨.semicolon, ";", ⟨2, 3⟩⟩], 0⟩).2 =
        ⟨[⟨.word, "A", ⟨0, 1⟩⟩, ⟨.less, "<", ⟨1, 2⟩⟩, ⟨.semicolon, ";", ⟨2, 3⟩⟩], 0⟩ := by
  have ends : EndsType [⟨.word, "e", ⟨25, 26⟩⟩] := by
    rintro _ ⟨rfl⟩
    decide
  obtain ⟨first, last, first_eq, last_eq, read, -⟩ :=
    typeRef?_reads_exactly.1 nestedType _ 0 ends
  obtain rfl := Option.some.inj first_eq
  obtain rfl := Option.some.inj last_eq
  exact ⟨ends, read, typeRef?_reads_exactly.2 _ (by cbv)⟩

end Parser

end JavaOutline
