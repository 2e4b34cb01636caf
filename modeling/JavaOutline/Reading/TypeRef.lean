import JavaOutline.Java.Stmt
import JavaOutline.Reading.Skip

/-!
# Reading types

A type is a dotted name with type arguments and bracket pairs, such as `Map<String,Integer>[]`.
Type arguments are taken token by token: they run to the `>` that closes the first `<`, and their
text is that of their tokens, with a space on either side of `extends` and `super`.
-/

namespace JavaOutline

/-- Whether tokens of a kind may stand among type arguments, the angle brackets apart. -/
def TokenKind.isTypeArgument : TokenKind → Bool
  | .word | .dot | .comma | .question | .amp | .openBracket | .closeBracket | .atSign => true
  | _ => false

/-- The text of a token among type arguments. -/
def Token.typeArgumentText (token : Token) : String :=
  if token.isWord "extends" || token.isWord "super" then " " ++ token.text ++ " " else token.text

/-- Whether a type may begin with a token: with a word that is not reserved, or with the name of a
primitive type. -/
def Token.beginsType (token : Token) : Bool :=
  token.kind = .word && (!isReserved token.text || isPrimitive token.text)

namespace Token

variable {token : Token}

theorem typeArgumentText_eq_text (no_bound : token.text ≠ "extends" ∧ token.text ≠ "super") :
    token.typeArgumentText = token.text := by
  simp [typeArgumentText, isWord, no_bound]

theorem typeArgumentText_of_kind (no_word : token.kind ≠ .word) :
    token.typeArgumentText = token.text := by
  simp [typeArgumentText, isWord, no_word]

theorem typeArgumentText_of_free (free : isReserved token.text = false) :
    token.typeArgumentText = token.text := by
  refine typeArgumentText_eq_text ⟨?_, ?_⟩ <;> intro bound <;> rw [bound] at free <;> cases free

theorem typeArgumentText_of_primitive (primitive : isPrimitive token.text = true) :
    token.typeArgumentText = token.text := by
  have no_bound : ∀ word ∈ primitiveTypes, word ≠ "extends" ∧ word ≠ "super" := by decide
  exact typeArgumentText_eq_text (no_bound _ (by simpa [isPrimitive] using primitive))

end Token

namespace Cursor

/-- The rest of a type whose text so far is `text`, `depth` angle brackets deep: its whole text
without bracket pairs, and the place after it. -/
def typeRest? : (depth : Nat) → (text : String) → (behind : Nat) → List Token →
    Option (String × Cursor)
  | 0, text, behind, [] => some (text, ⟨[], behind⟩)
  | _ + 1, _, _, [] => none
  | 0, text, behind, token :: rest =>
    if token.kind = .less then typeRest? 1 (text ++ token.text) token.span.stop rest
    else if token.kind = .dot then
      match rest with
      | [] => some (text, ⟨[token], behind⟩)
      | word :: more =>
        if word.kind = .word && !isReserved word.text then
          typeRest? 0 (text ++ "." ++ word.text) word.span.stop more
        else some (text, ⟨token :: word :: more, behind⟩)
    else some (text, ⟨token :: rest, behind⟩)
  | depth + 1, text, _, token :: rest =>
    match token.kind with
    | .less => typeRest? (depth + 2) (text ++ token.text) token.span.stop rest
    | .greater => typeRest? depth (text ++ token.text) token.span.stop rest
    | kind =>
      if kind.isTypeArgument then
        typeRest? (depth + 1) (text ++ token.typeArgumentText) token.span.stop rest
      else none

/-- The place after a list of type arguments, `depth` angle brackets deep. -/
def afterTypeArguments? : (depth behind : Nat) → List Token → Option Cursor
  | 0, behind, rest => some ⟨rest, behind⟩
  | _ + 1, _, [] => none
  | depth + 1, _, token :: rest =>
    match token.kind with
    | .less => afterTypeArguments? (depth + 2) token.span.stop rest
    | .greater => afterTypeArguments? depth token.span.stop rest
    | kind =>
      if kind.isTypeArgument then afterTypeArguments? (depth + 1) token.span.stop rest else none

end Cursor

namespace Parser

/-- Skips type arguments, if the next token opens a list of them, and says whether it did. -/
def skipTypeArguments : Parser Bool := fun cursor =>
  if cursor.isAt .less then
    match Cursor.afterTypeArguments? 1 cursor.tail.behind cursor.tail.rest with
    | some after => (true, after)
    | none => (false, cursor)
  else (false, cursor)

/-- Reads the rest of a type after its first word. -/
def typeRest? (text : String) : Parser (Option String) := fun cursor =>
  match Cursor.typeRest? 0 text cursor.behind cursor.rest with
  | some (text, after) => (some text, after)
  | none => (none, cursor)

/-- Reads a type. Where there is none, nothing is read. -/
def typeRef? : Parser (Option TypeRef) := do
  let before ← get
  skipAnnotations
  match (← get).rest with
  | [] => set before; return none
  | first :: _ =>
    if first.beginsType then
      advance 1
      match ← typeRest? first.text with
      | none => set before; return none
      | some text =>
        let pairs ← skipBracketPairs
        let text := (List.replicate pairs "[]").foldl (· ++ ·) text
        return some ⟨text, ← spanFrom first.span.start⟩
    else set before; return none

/-- Reads a type; one that is missing has an empty text. -/
def typeRef : Parser TypeRef := do
  match ← typeRef? with
  | some type => return type
  | none => return ⟨"", .point (← get).here⟩

/-- Reads a type and a name, with the dots of a variable number of arguments between them and
bracket pairs after them. Tokens that were read stay read if the name is missing. -/
def parameter? : Parser (Option Parameter) := do
  let some type ← typeRef? | return none
  let type ← do
    match (← get).rest with
    | dots :: _ =>
      if dots.kind = .ellipsis then
        advance 1
        pure { type with text := type.text ++ dots.text, span := ⟨type.span.start, dots.span.stop⟩ }
      else pure type
    | [] => pure type
  match (← get).rest with
  | name :: _ =>
    if name.kind = .word then
      advance 1
      discard skipBracketPairs
      return some ⟨← spanFrom type.span.start, type, ⟨name.text, name.span⟩⟩
    else return none
  | [] => return none

end Parser

/-- Whether a type is an array type. -/
def TypeRef.isArray (type : TypeRef) : Bool :=
  [']', '['].isPrefixOf type.text.toList.reverse

/-- A reversed text without the bracket pairs it begins with. -/
def dropPairs : List Char → List Char
  | ']' :: '[' :: cs => dropPairs cs
  | cs => cs

/-- Whether a type is a primitive type or an array of one. -/
def TypeRef.isPrimitive (type : TypeRef) : Bool :=
  JavaOutline.isPrimitive (String.ofList (dropPairs type.text.toList.reverse).reverse)

end JavaOutline
