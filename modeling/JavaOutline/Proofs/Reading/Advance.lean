import Mathlib
import JavaOutline.Proofs.Reading.ParallelDeclarations
import JavaOutline.Proofs.Reading.StructuredBlocks

/-!
# Every repetition reads a token

Each loop of the grammar repeats a step until the step gives nothing. Whatever the tokens are, a
step that gives something has read at least one of them, and no step goes back behind the place
where it began.
-/

set_option mvcgen.warning false

open Std.Do

namespace JavaOutline

namespace Parser

variable {α : Type}

/-- Whether a parser reads a token whenever it finds something, and never goes back. -/
def Advances (step : Parser (Option α)) : Prop :=
  ∀ cursor, ReadOn (step cursor).1 cursor (step cursor).2

theorem advances_iff {step : Parser (Option α)} :
    Advances step ↔ ∀ before : Cursor,
      ⦃before.place⦄ step ⦃⇓ result after => ⌜ReadOn result before after⌝⦄ := by
  constructor
  · intro advances before
    refine triple_iff.mpr ?_
    rintro cursor rfl
    exact advances cursor
  · intro reads cursor
    exact triple_iff.mp (reads cursor) cursor rfl

/-! ## What is skipped -/

/-- Repeats a step that says whether it read something. -/
def whileStep (step : Parser Bool) : Parser (Option Unit) := do
  return if ← step then some () else none

/-- Skips an annotation, and says whether there was one. -/
def annotationStep : Parser Bool := do
  if ← atAnnotation then
    skipAnnotation
    return true
  return false

/-- Skips an annotation or the word `final`, and says whether there was one. -/
def variableModifierStep : Parser Bool := do
  if ← atAnnotation then
    skipAnnotation
    return true
  acceptWord "final"

/-- Skips an annotation or a modifier, and says whether there was one. -/
def modifierStep : Parser Bool := do
  if ← atAnnotation then
    skipAnnotation
    return true
  let cursor ← get
  if cursor.isAtWord "non" && cursor.isAhead 1 [.minus] && cursor.isWordAhead 2 "sealed" then
    advance 3
    return true
  if ← atModifier then
    advance 1
    return true
  return false

/-- Skips text in brackets, and says whether there was some. -/
def bracketsStep : Parser Bool := do
  let bracket := (← get).isAt .openBracket
  skipBrackets
  return bracket

/-- Skips an import, and says whether there was one. -/
def importStep : Parser Bool := do
  let isImport := (← get).isAtWord "import"
  if isImport then
    skipToAny [.semicolon]
    discard <| accept .semicolon
  return isImport

/-- Skips a constant of an enumeration, and says whether there was one. -/
def constantStep : Parser Bool := do
  if ← accept .semicolon then return false
  let cursor ← get
  if cursor.atEnd || cursor.isAt .closeBrace then return false
  skipModifiers
  unless (← get).isAt .word do return false
  advance 1
  skipParens
  skipBraces
  discard <| accept .comma
  return true

theorem skipAnnotations_eq_repeatWhile : skipAnnotations = repeatWhile annotationStep :=
  rfl

theorem skipVariableModifiers_eq_repeatWhile :
    skipVariableModifiers = repeatWhile variableModifierStep :=
  rfl

theorem skipModifiers_eq_repeatWhile : skipModifiers = repeatWhile modifierStep :=
  rfl

theorem skipConstants_eq_repeatWhile : skipConstants = repeatWhile constantStep :=
  rfl

theorem advances_annotationStep : Advances (whileStep annotationStep) := by
  refine advances_iff.mpr fun before => ?_
  mvcgen [whileStep, annotationStep] <;> grind -ring -linarith

theorem advances_variableModifierStep : Advances (whileStep variableModifierStep) := by
  refine advances_iff.mpr fun before => ?_
  mvcgen [whileStep, variableModifierStep] <;> grind -ring -linarith

theorem advances_modifierStep : Advances (whileStep modifierStep) := by
  refine advances_iff.mpr fun before => ?_
  mvcgen [whileStep, modifierStep] <;> grind -ring -linarith

theorem advances_bracketsStep : Advances (whileStep bracketsStep) := by
  refine advances_iff.mpr fun before => ?_
  mvcgen [whileStep, bracketsStep, skipBrackets]
  grind -ring -linarith

theorem place_skipToAny (stops : List TokenKind) (before : Cursor) :
    ⦃before.place⦄ skipToAny stops ⦃⇓ _ after => ⌜before.Reaches after ∧
      (before.atEnd = false → before.isAhead 0 stops = false → before.ReachesOn after)⌝⦄ := by
  refine triple_iff.mpr ?_
  rintro ⟨rest, behind⟩ rfl
  refine ⟨Cursor.reaches_beforeAny .., fun more goes_on => ?_⟩
  cases rest with
  | nil => cases more
  | cons token rest =>
      have goes_on : stops.contains token.kind = false := goes_on
      simp only [skipToAny, Cursor.beforeAny, goes_on, Bool.false_eq_true, if_false]
      exact (Cursor.reachesOn_tail rfl).trans (Cursor.reaches_beforeAny ..)

theorem atEnd_eq_false_of_isAtWord {word : String} {cursor : Cursor}
    (found : cursor.isAtWord word) : cursor.atEnd = false ∧
      cursor.isAhead 0 [.semicolon] = false := by
  obtain ⟨rest, behind⟩ := cursor
  cases rest with
  | nil => cases found
  | cons token rest =>
      have kind_eq : token.kind = .word := by
        simp only [Cursor.isAtWord, Token.isWord, List.head?_cons, Option.any_some,
          Bool.and_eq_true, decide_eq_true_eq] at found
        exact found.1
      exact ⟨rfl, by simp [Cursor.isAhead, Cursor.kindAhead?, Cursor.ahead?, kind_eq]⟩

theorem advances_importStep : Advances (whileStep importStep) := by
  refine advances_iff.mpr fun before => ?_
  have skip := place_skipToAny [.semicolon]
  mvcgen [whileStep, importStep, skip, -onward_skipToAny] <;> clear skip <;>
    grind -ring -linarith [→ atEnd_eq_false_of_isAtWord]

theorem advances_constantStep : Advances (whileStep constantStep) := by
  refine advances_iff.mpr fun before => ?_
  mvcgen [whileStep, constantStep] <;> grind -ring -linarith

/-! ## Lists inside expressions and statements -/

/-- Reads one more type of a cast to several types at once. -/
def castTypeStep : Option TypeRef → Parser (Option (Option TypeRef)) := fun type? => do
  match type? with
  | none => return none
  | some (type : TypeRef) =>
    if ← accept .amp then
      match ← typeRef? with
      | some more => return some (some ⟨type.text ++ "&" ++ more.text, type.span.cover more.span⟩)
      | none => return some none
    else return none

/-- Reads one more expression of a list, if a comma announces it. -/
def exprStep (rules : Rules) (stop : TokenKind) :
    List Expr × Bool → Parser (Option (List Expr × Bool)) := fun (exprs, more) => do
  let cursor ← get
  if !more || cursor.atEnd || cursor.isAt stop then return none
  let expr ← rules.expr
  let expr ← match expr with
    | some expr => pure expr
    | none => do
      let expr ← missing
      advance 1
      pure expr
  return some (exprs ++ [expr], ← accept .comma)

/-- Reads one more variable of a declaration, if a comma announces it. -/
def declaratorStep (rules : Rules) :
    List Declarator × Bool → Parser (Option (List Declarator × Bool)) :=
  fun (declarators, more) => do
    if !more then return none
    match (← get).rest with
    | [] => return none
    | name :: _ =>
      if name.kind = .word then
        advance 1
        discard skipBracketPairs
        let value ← if ← accept .assign then some <$> valueWith rules else pure none
        let declarator : Declarator :=
          ⟨← spanFrom name.span.start, ⟨name.text, name.span⟩, value⟩
        return some (declarators ++ [declarator], ← accept .comma)
      else return none

/-- Reads one more value of a label, if a comma announces it. -/
def caseValueStep (rules : Rules) :
    List Expr × Bool → Parser (Option (List Expr × Bool)) := fun (values, more) => do
  if !more then return none
  let value ← caseValueWith rules
  return some (values ++ [value], ← accept .comma)

/-- Reads a resource of a `try`, unless the list ends. -/
def resourceStep : Parser (Option Span) := do
  let cursor ← get
  if cursor.atEnd || cursor.isAhead 0 [.closeParen, .closeBrace, .closeBracket] then return none
  skipTo [.semicolon, .closeParen]
  let span := (← get).spanFrom cursor.here
  discard <| accept .semicolon
  return some span

/-- Reads one more type of a `catch` clause. -/
def caughtTypeStep : Parser (Option (Option TypeRef)) := do
  if ← accept .pipe then return some (← typeRef?) else return none

theorem castType?_eq (type : TypeRef) : castType? type = iterate castTypeStep (some type) :=
  rfl

theorem exprsWith_eq (rules : Rules) (stop : TokenKind) :
    exprsWith rules stop = (do return (← iterate (exprStep rules stop) ([], true)).1) :=
  rfl

theorem declaratorsWith_eq (rules : Rules) :
    declaratorsWith rules = (do return (← iterate (declaratorStep rules) ([], true)).1) :=
  rfl

theorem caseValuesWith_eq (rules : Rules) :
    caseValuesWith rules = (do return (← iterate (caseValueStep rules) ([], true)).1) :=
  rfl

theorem resources_eq : resources = (do
    unless ← accept .openParen do return []
    let spans ← many resourceStep
    discard <| accept .closeParen
    return spans.filter (!·.isEmpty)) :=
  rfl

theorem caughtTypes_eq : caughtTypes = (do
    let first ← typeRef?
    let more ← many caughtTypeStep
    return (first :: more).filterMap id) :=
  rfl

theorem advances_castTypeStep (type? : Option TypeRef) : Advances (castTypeStep type?) := by
  refine advances_iff.mpr fun before => ?_
  mvcgen [castTypeStep, -placed_typeRef?] <;> grind -ring -linarith

theorem advances_resourceStep : Advances resourceStep := by
  refine advances_iff.mpr fun before => ?_
  mvcgen [resourceStep] <;> grind -ring -linarith [Cursor.isAhead_zero]

theorem advances_caughtTypeStep : Advances caughtTypeStep := by
  refine advances_iff.mpr fun before => ?_
  mvcgen [caughtTypeStep, -placed_typeRef?] <;> grind -ring -linarith

section Rules

variable {rules : Rules} (reads : rules.Reads)

include reads

theorem advances_argumentWith : Advances (argumentWith rules) := by
  refine advances_iff.mpr fun before => ?_
  have expr := reads.expr
  mvcgen [argumentWith, expr, -Rules.Placed.expr, -Rules.Onward.expr, -placed_missing] <;>
    clear expr <;> grind -ring -linarith

theorem advances_exprStep (stop : TokenKind) (exprs : List Expr × Bool) :
    Advances (exprStep rules stop exprs) := by
  refine advances_iff.mpr fun before => ?_
  have expr := reads.expr
  mvcgen [exprStep, expr, -Rules.Placed.expr, -Rules.Onward.expr, -placed_missing] <;>
    clear expr <;> grind -ring -linarith

theorem advances_declaratorStep (declarators : List Declarator × Bool) :
    Advances (declaratorStep rules declarators) := by
  refine advances_iff.mpr fun before => ?_
  have onward := reads.onward
  mvcgen [declaratorStep, -placed_valueWith] <;> grind -ring -linarith

theorem advances_labelStep (labels : List SwitchLabel × Bool) :
    Advances (labelStep rules labels) := by
  refine advances_iff.mpr fun before => ?_
  have label := reads_labelWith reads
  mvcgen [labelStep, label, -placed_labelWith, -spans_labelWith] <;> clear label <;>
    grind -ring -linarith

/-- A value of a label may hold no token, but then no comma announces another one. -/
theorem reads_caseValueStep (values : List Expr × Bool) (before : Cursor) :
    ⦃before.place⦄ caseValueStep rules values ⦃⇓ result after => ⌜before.Reaches after ∧
      ∀ next, result = some next →
        values.2 = true ∧ (next.2 = true → before.ReachesOn after)⌝⦄ := by
  have onward := reads.onward
  mvcgen [caseValueStep, -placed_caseValueWith] <;> grind -ring -linarith

end Rules

/-! ## Statements -/

theorem readOn_expr (cursor : Cursor) : ReadOn (expr cursor).1 cursor (expr cursor).2 :=
  triple_iff.mp (reads_exprWith (onward_rules (cursor.rest.length + 1)) cursor) cursor rfl

theorem reads_stmt (before : Cursor) (more : before.atEnd = false) :
    ⦃before.place⦄ stmt ⦃⇓ _ after => ⌜before.ReachesOn after⌝⦄ := by
  refine triple_iff.mpr ?_
  rintro cursor rfl
  exact triple_iff.mp (reads_stmtUpTo cursor.rest.length cursor more) cursor rfl

theorem laidOut_stmt (before : Cursor) :
    ⦃before.place⦄ stmt ⦃⇓ stmt after => ⌜stmt.LaidOut before after⌝⦄ := by
  refine triple_iff.mpr ?_
  rintro cursor rfl
  exact triple_iff.mp (laidOut_stmtUpTo (cursor.rest.length + 1) cursor) cursor rfl

theorem advances_stmtInBlock? : Advances (stmtInBlock? stmt) := by
  refine advances_iff.mpr fun before => ?_
  have stmts := reads_stmt
  mvcgen [stmtInBlock?, stmts] <;> clear stmts <;> grind -ring -linarith

theorem advances_stmtOrLabel : Advances (stmtOrLabel stmt) := by
  refine advances_iff.mpr fun before => ?_
  have stmts := reads_stmt
  mvcgen [stmtOrLabel, stmts] <;> clear stmts <;> grind -ring -linarith

theorem advances_groupOrEnd {rules : Rules} (reads : rules.Reads) :
    Advances (groupOrEnd rules stmt) := by
  refine advances_iff.mpr fun before => ?_
  have groups := reads_groupWith laidOut_stmt reads
  have stmts := reads_stmt
  mvcgen [groupOrEnd, groups, stmts, -laidOut_groupWith] <;> clear groups <;>
    grind -ring -linarith

theorem advances_handlerWith : Advances (handlerWith stmt) := by
  refine advances_iff.mpr fun before => ?_
  have stmts := laidOut_stmt
  mvcgen [handlerWith, stmts, -laidOut_handlerWith, -placed_caughtTypes] <;> clear stmts <;>
    grind -ring -linarith

/-! ## Declarations -/

/-- Reads a parameter, or passes over a token that begins none. -/
def parameterStep : Parser (Option (Option Parameter)) := do
  let cursor ← get
  if cursor.atEnd || cursor.isAt .closeParen then return none
  skipVariableModifiers
  match ← parameter? with
  | some parameter =>
    discard <| accept .comma
    return some (some parameter)
  | none =>
    advance 1
    return some none

/-- Reads one of some declarations, unless `ends` says that none is left. A token that begins no
declaration is passed over. -/
def declarationStep (ends : Cursor → Bool) (declaration? : Parser (Option α)) :
    Parser (Option (Option α)) := do
  if ends (← get) then return none
  match ← declaration? with
  | some declaration => return some (some declaration)
  | none =>
    advance 1
    return some none

/-- Reads a member of a type, unless the type ends. -/
def memberStep (type? : Parser (Option TypeDecl)) (enclosing : String) :
    Parser (Option (Option Member)) :=
  declarationStep (fun cursor => cursor.atEnd || cursor.isAt .closeBrace)
    (memberWith type? enclosing)

/-- Reads a type of a file, unless the file ends. -/
def typeStep (depth : Nat) : Parser (Option (Option TypeDecl)) :=
  declarationStep (·.atEnd) (typeDeclUpTo depth)

theorem parameters_eq : parameters = (do
    discard <| accept .openParen
    let parameters ← many parameterStep
    discard <| accept .closeParen
    return parameters.filterMap id) :=
  rfl

theorem membersWith_eq (type? : Parser (Option TypeDecl)) (enclosing : String) :
    membersWith type? enclosing =
      (do return (← many (memberStep type? enclosing)).filterMap id) := by
  unfold membersWith memberStep declarationStep
  congr! 7 with cursor _ _ result
  cases result <;> rfl

theorem typesUpTo_eq (depth : Nat) :
    Parallel.typesUpTo depth = (do return (← many (typeStep depth)).filterMap id) := by
  unfold Parallel.typesUpTo typeStep declarationStep
  congr! 7 with cursor _ _ result
  cases result <;> rfl

theorem reads_parameter? (before : Cursor) :
    ⦃before.place⦄ parameter? ⦃⇓ result after => ⌜ReadOn result before after⌝⦄ := by
  mvcgen [parameter?, reads_typeRef?, -onward_parameter?, -placed_parameter?, -onward_typeRef?,
    -placed_typeRef?] <;> grind -ring -linarith

theorem advances_parameterStep : Advances parameterStep := by
  refine advances_iff.mpr fun before => ?_
  mvcgen [parameterStep, reads_parameter?, -onward_parameter?, -placed_parameter?] <;>
    grind -ring -linarith

theorem advances_declarationStep {ends : Cursor → Bool} {declaration? : Parser (Option α)}
    (stops : ∀ cursor, ends cursor = false → cursor.atEnd = false)
    (advances : Advances declaration?) : Advances (declarationStep ends declaration?) := by
  refine advances_iff.mpr fun before => ?_
  have reads := advances_iff.mp advances
  mvcgen [declarationStep, reads] <;> clear reads <;> grind -ring -linarith

theorem reads_block (before : Cursor) :
    ⦃before.place⦄ block ⦃⇓ _ after =>
      ⌜before.Reaches after ∧ (before.isAt .openBrace → before.ReachesOn after)⌝⦄ := by
  refine triple_iff.mpr ?_
  rintro cursor rfl
  have laysOut := laidOut_stmtUpTo (cursor.rest.length + 1)
  exact triple_iff.mp (reads_blockWith laysOut cursor) cursor rfl

theorem reads_typedMember? (start : Nat) {origin before : Cursor}
    (reaches : origin.Reaches before) :
    ⦃before.place⦄ typedMember? start ⦃⇓ result after => ⌜ReadOn result origin after⌝⦄ := by
  mvcgen [typedMember?, methodFrom, reads_typeRef?, -onward_typeRef?, -placed_typeRef?,
    -placed_parameters] <;> grind -ring -linarith [Block.LaidOut]

section Types

variable {type? : Parser (Option TypeDecl)} (types : Advances type?)

include types

theorem advances_memberWith (enclosing : String) : Advances (memberWith type? enclosing) := by
  refine advances_iff.mpr fun before => ?_
  have types := advances_iff.mp types
  have typed := @reads_typedMember?
  have blocks := reads_block
  mvcgen [memberWith, constructorFrom, types, typed, blocks, -readAfter_memberWith, -place_block,
    -placed_parameters] <;> clear types typed blocks <;> grind -ring -linarith

theorem advances_memberStep (enclosing : String) : Advances (memberStep type? enclosing) := by
  refine advances_declarationStep (fun cursor goes_on => ?_) (advances_memberWith types enclosing)
  exact (Bool.or_eq_false_iff.mp goes_on).1

theorem advances_typeDeclWith : Advances (typeDeclWith type?) := by
  refine advances_iff.mpr fun before => ?_
  have types := advances_iff.mp types
  have members enclosing := advances_iff.mp (advances_memberWith ‹Advances type?› enclosing)
  mvcgen [typeDeclWith, membersWith, types, members, -readAfter_memberWith,
    -readAfter_membersWith, -readAfter_manyMembers, -placed_manyMembers] <;>
    clear types members <;> grind -ring -linarith

end Types

theorem advances_typeDeclUpTo (depth : Nat) : Advances (typeDeclUpTo depth) := by
  induction depth with
  | zero => exact fun cursor => ⟨.refl, nofun⟩
  | succ depth induction => exact advances_typeDeclWith induction

theorem advances_typeStep (depth : Nat) : Advances (typeStep depth) :=
  advances_declarationStep (fun _ => id) (advances_typeDeclUpTo depth)

end Parser

end JavaOutline
