import Mathlib
import JavaOutline.Proofs.Reading.Advance
import JavaOutline.Proofs.Reading.Bodies

/-!
# Reading ends

The grammar bounds how often a loop repeats its step and how deep its rules are nested in each
other. These bounds are never what ends reading: a loop ends because its step finds nothing more,
and a larger bound gives the same result. A file is read to its end.
-/

set_option mvcgen.warning false

namespace JavaOutline

open Std.Do

namespace Parser

variable {α : Type} {cursor : Cursor} {n m : Nat}

/-! ## Repetitions -/

section Iterate

variable {step : α → Parser (Option α)} {value : α}

/-- A loop ends before any bound on its repetitions, if every repetition reads a token or uses up
what `extra` says of the value. -/
theorem iterateUpTo_eq_iterateUpTo (extra : α → Nat)
    (onward : ∀ value (cursor : Cursor), cursor.Reaches (step value cursor).2)
    (reads : ∀ value cursor result, (step value cursor).1 = some result →
      (step value cursor).2.rest.length + extra result < cursor.rest.length + extra value)
    (enough : cursor.rest.length + extra value ≤ n)
    (enough' : cursor.rest.length + extra value ≤ m) :
    iterateUpTo step n value cursor = iterateUpTo step m value cursor := by
  -- Where no token is left and nothing is to be used up, no loop does anything.
  have idle (value : α) (cursor : Cursor) (nothing : cursor.rest.length + extra value ≤ 0) :
      step value cursor = (none, cursor) := by
    have rest_eq : cursor.rest = [] := List.length_eq_zero_iff.mp (by omega)
    refine Prod.ext ?_ ((onward value cursor).eq_of_nil rest_eq)
    cases read : (step value cursor).1 with
    | none => rfl
    | some result =>
        have less := reads value cursor result read
        omega
  induction n generalizing m value cursor with
  | zero =>
      rw [iterateUpTo_of_idle (idle value cursor enough), iterateUpTo_of_idle
        (idle value cursor enough)]
  | succ n induction =>
      cases m with
      | zero =>
          rw [iterateUpTo_of_idle (idle value cursor enough'), iterateUpTo_of_idle
            (idle value cursor enough')]
      | succ m =>
          cases read : (step value cursor).1 with
          | none => rw [iterateUpTo_of_none read, iterateUpTo_of_none read]
          | some result =>
              have less := reads value cursor result read
              rw [iterateUpTo_of_some read, iterateUpTo_of_some read]
              exact induction (by omega) (by omega)

theorem iterateUpTo_eq_iterate (advances : ∀ value, Advances (step value))
    (enough : cursor.rest.length < n) :
    iterateUpTo step n value cursor = iterate step value cursor := by
  refine iterateUpTo_eq_iterateUpTo (fun _ => 0) (fun value cursor => (advances value cursor).1)
    (fun value cursor result read => ?_) (Nat.le_of_lt enough) (Nat.le_succ _)
  have found : (step value cursor).1.isSome := Option.isSome_iff_exists.mpr ⟨result, read⟩
  exact ((advances value cursor).2 found).length_lt

theorem advances_pushed {step : Parser (Option α)} (advances : Advances step) (values : List α) :
    Advances (pushed step values) := by
  intro cursor
  obtain ⟨onward, reads⟩ := advances cursor
  exact ⟨onward, fun found => reads (Option.isSome_map.symm.trans found)⟩

theorem manyUpTo_eq_many {step : Parser (Option α)} (advances : Advances step)
    (enough : cursor.rest.length < n) : manyUpTo step n cursor = many step cursor := by
  have upTo := iterateUpTo_pushed step n [] cursor
  rw [iterateUpTo_eq_iterate (advances_pushed advances) enough, ← many_eq_iterate] at upTo
  exact upTo.symm

end Iterate

/-- A comma after a value of a label announces one more, so that a label without tokens ends after
its first value. -/
theorem iterateUpTo_caseValueStep {rules : Rules} (reads : rules.Reads)
    (enough : cursor.rest.length < n) :
    iterateUpTo (caseValueStep rules) n ([], true) cursor =
      iterate (caseValueStep rules) ([], true) cursor := by
  have read (values : List Expr × Bool) (cursor : Cursor) :=
    triple_iff.mp (reads_caseValueStep reads values cursor) cursor rfl
  refine iterateUpTo_eq_iterateUpTo (fun values => if values.2 then 1 else 0)
    (fun values cursor => (read values cursor).1) (fun values cursor next found => ?_) enough
    (Nat.le_refl _)
  obtain ⟨onward, later⟩ := read values cursor
  obtain ⟨more, reads_on⟩ := later next found
  cases announced : next.2 with
  | false =>
      have shorter := onward.length_le
      simp only [more, Bool.false_eq_true, if_false, if_true]
      omega
  | true =>
      have shorter := (reads_on announced).length_lt
      simp only [more, if_true]
      omega

/-! ## Nested rules -/

open Parallel in
/-- Parsers that agree on a text and itself are the same on it. -/
theorem eq_of_agree [Relocatable α] {p q : Parser α} (order : cursor.IsOrdered)
    (itself : (cut []).Agree False p p cursor) (both : (cut []).Agree False p q cursor) :
    q cursor = p cursor := by
  have tame : (cut []).Tame cursor := ⟨order, keptBy_id order.choose_spec.order⟩
  have inside (cursor : Cursor) : (cut []).Inside cursor := .inl ⟨rfl, rfl⟩
  have same := (itself tame).2 cursor (mirrors_self cursor) (.inr (inside _))
  have other := (both tame).2 cursor (mirrors_self cursor) (.inr (inside _))
  exact Prod.ext (other.1.trans same.1.symm) ((mirrors_self _).unique other.2)

/-- Rules that may call each other more often than there are tokens read the same, whatever they
call below that. -/
theorem rulesOver_eq (order : cursor.IsOrdered) (bottom : Rules) (enough : cursor.rest.length < n)
    (enough' : cursor.rest.length < m) :
    (rulesOver bottom n).expr cursor = (rules m).expr cursor ∧
      (rulesOver bottom n).conditional cursor = (rules m).conditional cursor ∧
      (∀ least, (rulesOver bottom n).binary least cursor = (rules m).binary least cursor) ∧
      (rulesOver bottom n).unary cursor = (rules m).unary cursor ∧
      (rulesOver bottom n).primary cursor = (rules m).primary cursor := by
  have itself := Parallel.rulesAgree_rules (Parallel.cut []) enough' enough'
  have both := Parallel.rulesAgree_rulesOver (Parallel.cut []) bottom enough' enough
  have short := Nat.lt_succ_self cursor.rest.length
  exact ⟨eq_of_agree order (itself.expr short) (both.expr short),
    eq_of_agree order (itself.conditional short) (both.conditional short),
    fun least => eq_of_agree order (itself.binary least short) (both.binary least short),
    eq_of_agree order (itself.unary short) (both.unary short),
    eq_of_agree order (itself.primary short) (both.primary short)⟩

/-- Statements that may be nested deeper than there are tokens agree on what they read. -/
theorem stmtAgree_stmt (bottom : Rules) (last : Parser Stmt) (enough : cursor.rest.length < n) :
    (Parallel.cut []).StmtAgree (stmtUpTo (cursor.rest.length + 1)) (stmtOver bottom last n)
      (cursor.rest.length + 1) :=
  Parallel.stmtAgree_stmtOver last (Parallel.labelRulesAgree_rulesOver ⟨rfl, rfl⟩ bottom) enough

/-- Statements that may be nested deeper than there are tokens are read the same, whatever is nested
below that. -/
theorem stmtOver_eq_stmt (order : cursor.IsOrdered) (bottom : Rules) (last : Parser Stmt)
    (enough : cursor.rest.length < n) : stmtOver bottom last n cursor = stmt cursor := by
  have itself := stmtAgree_stmt (rules 0) (stmtUpTo 0) (Nat.lt_succ_self cursor.rest.length)
  rw [stmtOver_stmtUpTo_zero] at itself
  have both := stmtAgree_stmt bottom last enough
  exact eq_of_agree (p := stmtUpTo (cursor.rest.length + 1)) order
    (itself.agree (Nat.lt_succ_self _)) (both.agree (Nat.lt_succ_self _))

theorem blockWith_eq_block (order : cursor.IsOrdered) (bottom : Rules) (last : Parser Stmt)
    (enough : cursor.rest.length < n) :
    blockWith (stmtOver bottom last n) cursor = block cursor := by
  have itself := stmtAgree_stmt (rules 0) (stmtUpTo 0) (Nat.lt_succ_self cursor.rest.length)
  rw [stmtOver_stmtUpTo_zero] at itself
  have both := stmtAgree_stmt bottom last enough
  have short := (reaches_accept .openBrace cursor).lt (Nat.lt_succ_self _)
  exact eq_of_agree (p := blockWith (stmtUpTo (cursor.rest.length + 1))) order
    (Parallel.agree_blockWith itself short) (Parallel.agree_blockWith both short)

section Types

variable {β : Type} {p q : Parser α} {f g : α → Parser β}

theorem bind_congr_left (first : p cursor = q cursor) : (p >>= f) cursor = (q >>= f) cursor :=
  congrArg (fun read : α × Cursor => f read.1 read.2) first

theorem bind_congr_right (later : f (p cursor).1 (p cursor).2 = g (p cursor).1 (p cursor).2) :
    (p >>= f) cursor = (p >>= g) cursor :=
  later

theorem ite_congr_apply {condition : Prop} [Decidable condition] {p' q' : Parser α}
    (whenTrue : condition → p cursor = p' cursor) (whenFalse : ¬condition → q cursor = q' cursor) :
    (if condition then p else q) cursor = (if condition then p' else q') cursor := by
  split
  · next holds => exact whenTrue holds
  · next fails => exact whenFalse fails

theorem manyUpTo_congr {step step' : Parser (Option α)}
    (onward : ∀ cursor : Cursor, cursor.Reaches (step cursor).2)
    (same : ∀ after, cursor.Reaches after → step after = step' after) :
    manyUpTo step n cursor = manyUpTo step' n cursor := by
  induction n generalizing cursor with
  | zero => rfl
  | succ n induction =>
      have later := induction fun after reaches => same after ((onward cursor).trans reaches)
      rw [manyUpTo_succ, manyUpTo_succ, ← same cursor .refl]
      cases (step cursor).1 with
      | none => rfl
      | some value => exact congrArg (fun read => (value :: read.1, read.2)) later

variable {type? type?' : Parser (Option TypeDecl)}

theorem memberWith_congr (same : ∀ after, cursor.Reaches after → type? after = type?' after)
    (enclosing : String) :
    memberWith type? enclosing cursor = memberWith type?' enclosing cursor := by
  have skipped : cursor.Reaches (skipBalanced .less .greater (skipModifiers cursor).2).2 :=
    (triple_iff.mp (onward_skipModifiers cursor) cursor .refl).trans
      (triple_iff.mp (onward_skipBalanced .less .greater _) _ .refl)
  unfold memberWith
  refine bind_congr_right (bind_congr_right (bind_congr_right (bind_congr_right ?_)))
  refine ite_congr_apply (fun _ => rfl) fun _ => ite_congr_apply (fun _ => rfl) fun _ => ?_
  exact ite_congr_apply (fun _ => bind_congr_left (same _ skipped)) fun _ => rfl

theorem membersWith_congr (advances : Advances type?)
    (same : ∀ after, cursor.Reaches after → type? after = type?' after) (enclosing : String) :
    membersWith type? enclosing cursor = membersWith type?' enclosing cursor := by
  have members : many (memberStep type? enclosing) cursor =
      many (memberStep type?' enclosing) cursor := by
    refine manyUpTo_congr (fun cursor => (advances_memberStep advances enclosing cursor).1)
      fun after reaches => ?_
    refine bind_congr_right (ite_congr_apply (fun _ => rfl) fun _ => bind_congr_left ?_)
    exact memberWith_congr (fun later reaches' => same later (reaches.trans reaches')) enclosing
  rw [membersWith_eq, membersWith_eq]
  exact bind_congr_left members

/-- Reads the declaration of a type that begins at `start`, from after its name on. -/
def typeFrom (type? : Parser (Option TypeDecl)) (start : Nat) (kind : TypeKind) (name : Name) :
    Parser (Option TypeDecl) := do
  skipHeader
  let members ← if ← accept .openBrace then do
      if kind = .enumType then skipConstants
      let members ← membersWith type? name.text
      discard <| accept .closeBrace
      pure members
    else pure []
  return some ⟨⟨← spanFrom start, kind, name⟩, members⟩

theorem typeDeclWith_eq (type? : Parser (Option TypeDecl)) : typeDeclWith type? = (do
    let before ← get
    skipModifiers
    let some (kind, width) := (← get).typeKind? | set before; return none
    advance width
    let cursor ← get
    let name ← if cursor.isAt .word then next? else pure none
    typeFrom type? before.here kind (match name with
      | some token => ⟨token.text, token.span⟩
      | none => ⟨"", .point cursor.here⟩)) :=
  rfl

theorem typeFrom_congr (advances : Advances type?)
    (same : ∀ after, cursor.Reaches after → type? after = type?' after) (start : Nat)
    (kind : TypeKind) (name : Name) :
    typeFrom type? start kind name cursor = typeFrom type?' start kind name cursor := by
  have opened : cursor.Reaches (accept .openBrace (skipHeader cursor).2).2 :=
    (triple_iff.mp (onward_skipHeader cursor) cursor .refl).trans (reaches_accept .openBrace _)
  have members {after : Cursor} (reaches : cursor.Reaches after) :=
    membersWith_congr advances (fun later reaches' => same later (reaches.trans reaches')) name.text
  refine bind_congr_right (bind_congr_right (ite_congr_apply (fun _ => ?_) fun _ => rfl))
  refine ite_congr_apply (fun _ => bind_congr_right ?_) fun _ => ?_
  · refine bind_congr_left (members (opened.trans ?_))
    exact triple_iff.mp (onward_skipConstants _) _ .refl
  · exact bind_congr_left (members opened)

/-- The types inside a type are read after it began. -/
theorem typeDeclWith_congr (advances : Advances type?)
    (same : ∀ after, after.rest.length < cursor.rest.length → type? after = type?' after) :
    typeDeclWith type? cursor = typeDeclWith type?' cursor := by
  have skipped : cursor.Reaches (skipModifiers cursor).2 :=
    triple_iff.mp (onward_skipModifiers cursor) cursor .refl
  rw [typeDeclWith_eq, typeDeclWith_eq]
  refine bind_congr_right (bind_congr_right (bind_congr_right ?_))
  simp only [get_apply]
  generalize (skipModifiers cursor).2 = before at skipped
  cases found : before.typeKind? with
  | none => rfl
  | some found_kind =>
      obtain ⟨kind, width⟩ := found_kind
      have reads {after : Cursor} (reaches : (advance width before).2.Reaches after) :
          after.rest.length < cursor.rest.length := by
        obtain ⟨begins, positive⟩ := Cursor.reachesOn_tail_of_typeKind? found
        have advanced := (triple_iff.mp (place_advance width before) before rfl).2 positive
        have reachesOn := (begins.trans advanced).trans reaches
        exact (Cursor.ReachesOn.of_reaches skipped reachesOn).length_lt
      refine bind_congr_right (bind_congr_right (ite_congr_apply (fun _ => ?_) fun _ => ?_))
      · exact bind_congr_right (typeFrom_congr advances (fun after reaches =>
          same after (reads (.trans (.tail .refl) reaches))) _ _ _)
      · exact typeFrom_congr advances (fun after reaches => same after (reads reaches)) _ _ _

end Types

/-- Reads the declaration of a type with at most `n` types nested in each other, and others below
that. -/
def typeDeclOver (last : Parser (Option TypeDecl)) : Nat → Parser (Option TypeDecl)
  | 0 => last
  | n + 1 => fun cursor => typeDeclWith (typeDeclOver last n) cursor

theorem typeDeclOver_typeDeclUpTo_zero (n : Nat) :
    typeDeclOver (typeDeclUpTo 0) n = typeDeclUpTo n := by
  induction n with
  | zero => rfl
  | succ n induction =>
      funext cursor
      rw [typeDeclOver, induction]
      rfl

/-- Types that may be nested deeper than there are tokens are read the same, whatever is nested
below that. -/
theorem typeDeclOver_eq (last : Parser (Option TypeDecl)) (enough : cursor.rest.length < n)
    (enough' : cursor.rest.length < m) : typeDeclOver last n cursor = typeDeclUpTo m cursor := by
  induction n generalizing m cursor with
  | zero => exact absurd enough (Nat.not_lt_zero _)
  | succ n induction =>
      obtain ⟨m, rfl⟩ : ∃ k, m = k + 1 := ⟨m - 1, by omega⟩
      refine (typeDeclWith_congr (advances_typeDeclUpTo m) fun after shorter => ?_).symm
      exact (induction (by omega) (by omega)).symm

/-! ## Files -/

/-- Declarations are read up to where they end. -/
theorem declarationStep_of_none {ends : Cursor → Bool} {declaration? : Parser (Option α)}
    (nothing : (declarationStep ends declaration? cursor).1 = none) :
    ends cursor ∧ (declarationStep ends declaration? cursor).2 = cursor := by
  by_cases ended : ends cursor
  · exact ⟨ended, by simp [declarationStep, ended]⟩
  · cases read : (declaration? cursor).1 with
    | none => simp [declarationStep, ended, read] at nothing
    | some declaration => simp [declarationStep, ended, read] at nothing

/-- The types of a file are read up to its end. -/
theorem rest_typeDecls (cursor : Cursor) : (typeDecls cursor).2.rest = [] := by
  let step := typeStep (cursor.rest.length + 1)
  have advances : Advances step := advances_typeStep _
  obtain ⟨last, -, ends, last_eq⟩ :=
    exists_of_manyUpTo (fun after _ => advances after) (Nat.lt_succ_self cursor.rest.length)
  obtain ⟨at_end, stays⟩ := declarationStep_of_none ends
  rw [Parallel.typeDecls_apply, typesUpTo_eq]
  change (manyUpTo step (cursor.rest.length + 1) cursor).2.rest = []
  rw [last_eq, show (step last).2 = last from stays]
  exact List.isEmpty_iff.mp at_end

theorem rest_compilationUnit (size : Nat) (before : Cursor) :
    ⦃before.place⦄ compilationUnit size ⦃⇓ _ after => ⌜after.rest = []⌝⦄ := by
  have types (cursor : Cursor) :
      ⦃cursor.place⦄ typeDecls ⦃⇓ _ after => ⌜after.rest = []⌝⦄ := by
    refine triple_iff.mpr ?_
    rintro cursor rfl
    exact rest_typeDecls cursor
  mvcgen [compilationUnit, types, -readAfter_typeDecls] <;> grind -ring -linarith

/-! ## Reading goes forward -/

/-- The loops of the grammar. Each repeats a step, and the step reads a token at every repetition
after which the loop goes on. -/
structure LoopsAdvance (rules : Rules) (depth : Nat) : Prop where
  /-- The types of a file. -/
  types : Parallel.typesUpTo depth = (do return (← many (typeStep depth)).filterMap id) ∧
    Advances (typeStep depth)
  /-- The members of a type. -/
  members (enclosing : String) :
    membersWith (typeDeclUpTo depth) enclosing =
        (do return (← many (memberStep (typeDeclUpTo depth) enclosing)).filterMap id) ∧
      Advances (memberStep (typeDeclUpTo depth) enclosing)
  /-- The constants of an enumeration. -/
  constants : skipConstants = repeatWhile constantStep ∧ Advances (whileStep constantStep)
  /-- The parameters of a method. -/
  parameters : parameters = (do
      discard <| accept .openParen
      let parameters ← many parameterStep
      discard <| accept .closeParen
      return parameters.filterMap id) ∧ Advances parameterStep
  /-- The statements of a block. -/
  statements : blockWith stmt = (do
      let start := (← get).here
      discard <| accept .openBrace
      let statements ← many (stmtInBlock? stmt)
      discard <| accept .closeBrace
      return .mk (← spanFrom start) statements) ∧ Advances (stmtInBlock? stmt)
  /-- The groups of a `switch`. -/
  groups (start : Nat) : switchWith rules stmt start = (do
      advance 1
      let selector ← conditionWith rules
      discard <| accept .openBrace
      let groups ← many (groupOrEnd rules stmt)
      discard <| accept .closeBrace
      return .switch (← spanFrom start) selector groups) ∧ Advances (groupOrEnd rules stmt)
  /-- The labels of a group, and its statements. -/
  group : groupWith rules stmt = (do
      let start := (← get).here
      let (labels, arrow) ← iterate (labelStep rules) ([], false)
      let statements ← if arrow then do pure [← stmt] else many (stmtOrLabel stmt)
      return .mk (← spanFrom start) arrow labels statements) ∧
    (∀ labels, Advances (labelStep rules labels)) ∧ Advances (stmtOrLabel stmt)
  /-- The arguments of a call. -/
  arguments : argumentsWith rules = (do
      discard <| accept .openParen
      let arguments ← many (argumentWith rules)
      discard <| accept .closeParen
      return arguments) ∧ Advances (argumentWith rules)
  /-- The expressions of a list. -/
  expressions (stop : TokenKind) :
    exprsWith rules stop = (do return (← iterate (exprStep rules stop) ([], true)).1) ∧
      ∀ exprs, Advances (exprStep rules stop exprs)
  /-- The variables of a declaration. -/
  declarators : declaratorsWith rules =
      (do return (← iterate (declaratorStep rules) ([], true)).1) ∧
    ∀ declarators, Advances (declaratorStep rules declarators)
  /-- The `catch` clauses of a `try`. -/
  handlers (start : Nat) : tryWith stmt start = (do
      advance 1
      let spans ← resources
      let body ← blockWith stmt
      let handlers ← many (handlerWith stmt)
      let cleanup ← if ← acceptWord "finally" then some <$> blockWith stmt else pure none
      return .tries (← spanFrom start) spans body handlers cleanup) ∧ Advances (handlerWith stmt)
  /-- The binary operators after an operand. -/
  operators (least : Nat) : binaryWith rules least = (do
      match ← unaryWith rules with
      | none => return none
      | some left => return some (← iterate (binaryStepWith rules least) left)) ∧
    ∀ left, Advances (binaryStepWith rules least left)
  /-- The selectors after an operand. -/
  selectors : operandWith rules = (do
      match ← primaryWith rules with
      | none => return none
      | some operand => return some (← iterate (selectorWith rules) operand)) ∧
    ∀ operand, Advances (selectorWith rules operand)

/-- The loops that skip tokens or read types. -/
structure SkippingAdvances : Prop where
  annotations : skipAnnotations = repeatWhile annotationStep ∧ Advances (whileStep annotationStep)
  variableModifiers : skipVariableModifiers = repeatWhile variableModifierStep ∧
    Advances (whileStep variableModifierStep)
  modifiers : skipModifiers = repeatWhile modifierStep ∧ Advances (whileStep modifierStep)
  /-- The dimensions of an array creation, and those after the parameters of a method. -/
  dimensions : Advances (whileStep bracketsStep)
  imports : Advances (whileStep importStep)
  castTypes (type : TypeRef) : castType? type = iterate castTypeStep (some type) ∧
    ∀ type?, Advances (castTypeStep type?)
  resources : resources = (do
      unless ← accept .openParen do return []
      let spans ← many resourceStep
      discard <| accept .closeParen
      return spans.filter (!·.isEmpty)) ∧ Advances resourceStep
  caughtTypes : caughtTypes = (do
      let first ← typeRef?
      let more ← many caughtTypeStep
      return (first :: more).filterMap id) ∧ Advances caughtTypeStep

/-- A bound that is larger than the number of tokens left is never reached. A loop whose step reads
a token ends before it, and so does the loop over the values of a label. Rules, statements and types
that are nested in each other are read the same whatever stands in for those below the bound. -/
structure BoundsSuffice : Prop where
  collecting {α : Type} {step : Parser (Option α)} (advances : Advances step) {cursor : Cursor}
    {n : Nat} (enough : cursor.rest.length < n) : manyUpTo step n cursor = many step cursor
  repeating {α : Type} {step : α → Parser (Option α)} (advances : ∀ value, Advances (step value))
    {value : α} {cursor : Cursor} {n : Nat} (enough : cursor.rest.length < n) :
    iterateUpTo step n value cursor = iterate step value cursor
  caseValues (k : Nat) {cursor : Cursor} {n : Nat} (enough : cursor.rest.length < n) :
    caseValuesWith (rules k) =
        (do return (← iterate (caseValueStep (rules k)) ([], true)).1) ∧
      iterateUpTo (caseValueStep (rules k)) n ([], true) cursor =
        iterate (caseValueStep (rules k)) ([], true) cursor
  /-- Rules over no others are those of the grammar. -/
  grammar (n : Nat) : rulesOver (rules 0) n = rules n ∧
    stmtOver (rules 0) (stmtUpTo 0) n = stmtUpTo n ∧
      typeDeclOver (typeDeclUpTo 0) n = typeDeclUpTo n
  expressions {cursor : Cursor} (order : cursor.IsOrdered) (bottom : Rules) {n m : Nat}
    (enough : cursor.rest.length < n) (enough' : cursor.rest.length < m) :
    (rulesOver bottom n).expr cursor = (rules m).expr cursor ∧
      (rulesOver bottom n).conditional cursor = (rules m).conditional cursor ∧
      (∀ least, (rulesOver bottom n).binary least cursor = (rules m).binary least cursor) ∧
      (rulesOver bottom n).unary cursor = (rules m).unary cursor ∧
      (rulesOver bottom n).primary cursor = (rules m).primary cursor
  statements {cursor : Cursor} (order : cursor.IsOrdered) (bottom : Rules) (last : Parser Stmt)
    {n : Nat} (enough : cursor.rest.length < n) :
    stmtOver bottom last n cursor = stmt cursor ∧
      blockWith (stmtOver bottom last n) cursor = block cursor
  types (last : Parser (Option TypeDecl)) {cursor : Cursor} {n m : Nat}
    (enough : cursor.rest.length < n) (enough' : cursor.rest.length < m) :
    typeDeclOver last n cursor = typeDeclUpTo m cursor

theorem loopsAdvance (n depth : Nat) : LoopsAdvance (rules n) depth := by
  have reads := reads_rules n
  constructor
  case types => exact ⟨typesUpTo_eq depth, advances_typeStep depth⟩
  case members =>
    have types := advances_typeDeclUpTo depth
    exact fun enclosing => ⟨membersWith_eq _ enclosing, advances_memberStep types enclosing⟩
  case constants => exact ⟨skipConstants_eq_repeatWhile, advances_constantStep⟩
  case parameters => exact ⟨parameters_eq, advances_parameterStep⟩
  case statements => exact ⟨rfl, advances_stmtInBlock?⟩
  case groups => exact fun start => ⟨switchWith_eq _ stmt start, advances_groupOrEnd reads⟩
  case group => exact ⟨rfl, advances_labelStep reads, advances_stmtOrLabel⟩
  case arguments => exact ⟨argumentsWith_eq _, advances_argumentWith reads⟩
  case expressions => exact fun stop => ⟨exprsWith_eq _ stop, advances_exprStep reads stop⟩
  case declarators => exact ⟨declaratorsWith_eq _, advances_declaratorStep reads⟩
  case handlers => exact fun _ => ⟨rfl, advances_handlerWith⟩
  case operators =>
    have steps least left := advances_iff.mpr (reads_binaryStepWith reads.onward least left)
    exact fun least => ⟨rfl, steps least⟩
  case selectors =>
    exact ⟨rfl, fun operand => advances_iff.mpr (reads_selectorWith reads.onward operand)⟩

theorem skippingAdvances : SkippingAdvances where
  annotations := ⟨skipAnnotations_eq_repeatWhile, advances_annotationStep⟩
  variableModifiers := ⟨skipVariableModifiers_eq_repeatWhile, advances_variableModifierStep⟩
  modifiers := ⟨skipModifiers_eq_repeatWhile, advances_modifierStep⟩
  dimensions := advances_bracketsStep
  imports := advances_importStep
  castTypes := fun type => ⟨castType?_eq type, advances_castTypeStep⟩
  resources := ⟨resources_eq, advances_resourceStep⟩
  caughtTypes := ⟨caughtTypes_eq, advances_caughtTypeStep⟩

theorem boundsSuffice : BoundsSuffice where
  collecting := fun advances _ _ enough => manyUpTo_eq_many advances enough
  repeating := fun advances _ _ _ enough => iterateUpTo_eq_iterate advances enough
  caseValues := fun k _ _ enough =>
    ⟨caseValuesWith_eq _, iterateUpTo_caseValueStep (reads_rules k) enough⟩
  grammar := fun n =>
    ⟨rulesOver_rules_zero n, stmtOver_stmtUpTo_zero n, typeDeclOver_typeDeclUpTo_zero n⟩
  expressions := fun order bottom _ _ enough enough' => rulesOver_eq order bottom enough enough'
  statements := fun order bottom last _ enough =>
    ⟨stmtOver_eq_stmt order bottom last enough, blockWith_eq_block order bottom last enough⟩
  types := fun last _ _ _ enough enough' => typeDeclOver_eq last enough enough'

/-- Whatever the tokens are, a statement reads one of them where one is left, an expression that is
found has read one, and so has every repetition of a loop after which the loop goes on; nothing goes
back behind the place where it began. So no bound on repetitions or on nesting is ever reached,
whatever would be read there, and a file is read to its end. -/
theorem reading_goes_forward :
    (∀ cursor : Cursor, cursor.atEnd = false → cursor.ReachesOn (stmt cursor).2) ∧
      Advances expr ∧ (∀ n depth, LoopsAdvance (rules n) depth) ∧ SkippingAdvances ∧
      BoundsSuffice ∧ ∀ size cursor, (compilationUnit size cursor).2.rest = [] := by
  refine ⟨fun cursor more => ?_, readOn_expr, loopsAdvance, skippingAdvances, boundsSuffice,
    fun size cursor => ?_⟩
  · exact triple_iff.mp (reads_stmt cursor more) cursor rfl
  · exact triple_iff.mp (rest_compilationUnit size cursor) cursor rfl

end Parser

end JavaOutline
