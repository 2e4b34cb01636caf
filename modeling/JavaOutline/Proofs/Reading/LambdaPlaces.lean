import JavaOutline.Proofs.Reading.LabelEnds
import JavaOutline.Proofs.Reading.Patterns

/-!
# Where lambdas may stand

The operand of a cast, a branch of a conditional expression and other parts of an expression may be
lambdas. An expression that is read on from an operand keeps the operand with its parts, and begins
where it does.
-/

set_option mvcgen.warning false

open Std.Do

namespace JavaOutline

/-! ## Where lambdas may stand -/

namespace Expr

/-- The parts of an expression that are read where a lambda may stand. -/
def lambdaPlaces : Expr → List Expr
  | arrayAccess _ _ index => [index]
  | call _ _ arguments | memberCall _ _ _ arguments | creation _ _ arguments _
  | innerCreation _ _ _ arguments _ => arguments
  | conditional _ _ whenTrue whenFalse => [whenTrue, whenFalse]
  | assignment _ _ _ value => [value]
  | cast _ _ operand => [operand]
  | parenthesized _ inner => [inner]
  | _ => []

/-- Whether an expression has a part that was read at a place as the operand of a cast, a branch of
a conditional expression or something else that may be a lambda. Of the operands in an excerpt
nothing is known but where they may be. -/
inductive Opens (head : Cursor) : Expr → Prop
  | place {expr part : Expr} (member : part ∈ expr.lambdaPlaces)
      (start_eq : part.span.start = head.here) : Opens head expr
  | part {expr part : Expr} (member : .expr part ∈ expr.parts) (opened : Opens head part) :
      Opens head expr
  | excerpt {span : Span} {kind : ExcerptKind} (start_le : span.start ≤ head.here)
      (le_stop : head.behind ≤ span.stop)
      (opening : kind = .methodReference → head.isAt .openParen) : Opens head (.excerpt span kind)

/-- Whether an expression that stands where a lambda may stand was read at a place, or has a part
that was. -/
def OpensAt (head : Cursor) (expr : Expr) : Prop :=
  expr.span.start = head.here ∨ expr.Opens head

variable {expr part : Expr} {head first after : Cursor}

theorem mem_parts_of_mem_lambdaPlaces (member : part ∈ expr.lambdaPlaces) :
    .expr part ∈ expr.parts := by
  cases expr <;> simp_all [lambdaPlaces, parts]

theorem Opens.of_place (member : part ∈ expr.lambdaPlaces) (opened : part.OpensAt head) :
    expr.Opens head := by
  rcases opened with start_eq | opened
  · exact .place member start_eq
  · exact .part (mem_parts_of_mem_lambdaPlaces member) opened

open Construct in
/-- What an expression opens does not stand before the expression. -/
theorem Opens.start_le (opened : expr.Opens head) (placed : PlacedAt (.expr expr) first after)
    (order : first.IsOrdered) : expr.span.start ≤ head.here := by
  have start_le {expr part : Expr} {first after : Cursor} (member : .expr part ∈ expr.parts)
      (placed : PlacedAt (.expr expr) first after) (order : first.IsOrdered) :
      ∃ first' after', PlacedAt (.expr part) first' after' ∧ first'.IsOrdered ∧
        expr.span.start ≤ part.span.start := by
    have outer_eq := placed.start_eq
    cases placed with
    | mk spans solid parts later =>
      obtain ⟨first', after', reaches, inner, -⟩ := parts.exists_placedAt member
      obtain ⟨source, inOrder⟩ := order
      refine ⟨first', after', inner, ⟨source, inOrder.reaches reaches⟩, ?_⟩
      have inner_eq := inner.start_eq
      simp only [Construct.span] at outer_eq inner_eq
      rw [outer_eq, inner_eq]
      exact inOrder.here_le reaches
  induction opened generalizing first after with
  | place member start_eq =>
      obtain ⟨_, _, -, -, le⟩ := start_le (mem_parts_of_mem_lambdaPlaces member) placed order
      exact start_eq ▸ le
  | part member _ induction =>
      obtain ⟨_, _, inner, order', le⟩ := start_le member placed order
      exact le.trans (induction inner order')
  | excerpt start_le => exact start_le

end Expr

/-! ## What is read on from an operand -/

/-- Whether an expression was read on from an operand: it begins where the operand does and keeps
it as a part, or it is an excerpt that holds it; of a method reference only if `reference` holds. -/
structure Expr.Grows (operand : Expr) (reference : Prop) (result : Expr) (after : Cursor) :
    Prop where
  start_eq : result.span.start = operand.span.start
  keeps : result = operand ∨ .expr operand ∈ result.parts ∨
    ∃ kind, result = .excerpt (after.spanFrom operand.span.start) kind ∧
      (kind = .methodReference → reference)

theorem Expr.Opens.of_kept {operand result : Expr} {head : Cursor} (opened : operand.Opens head)
    (kept : result = operand ∨ .expr operand ∈ result.parts) : result.Opens head := by
  rcases kept with rfl | member
  · exact opened
  · exact .part member opened

/-- What grew from an operand opens what the operand does, if that stands in it. -/
theorem Expr.Grows.opens {operand result : Expr} {reference : Prop} {head after : Cursor}
    (grown : operand.Grows reference result after) (start_le : operand.span.start ≤ head.here)
    (behind_le : head.behind ≤ after.behind) (opening : reference → head.isAt .openParen)
    (opened : operand.Opens head) : result.Opens head := by
  rcases grown.keeps with rfl | member | ⟨kind, rfl, known⟩
  · exact opened
  · exact .part member opened
  · exact .excerpt start_le (behind_le.trans (Nat.le_max_left _ _)) (opening ∘ known)

/-- Whether what was read on from an operand, if anything was, grew from it. -/
def Expr.GrowsSome (operand : Expr) (reference : Prop) (result : Option Expr) (after : Cursor) :
    Prop :=
  ∀ expr ∈ result, operand.Grows reference expr after

namespace Parser

variable {α β : Type} {holds : α → Cursor → Prop} {cursor : Cursor}

/-- Whether a parser gives, from a place on, a result and a place that fulfil something. -/
def Gives (holds : α → Cursor → Prop) (parser : Parser α) (cursor : Cursor) : Prop :=
  holds (parser cursor).1 (parser cursor).2

theorem Gives.bind {parser : Parser β} {f : β → Parser α}
    (later : ∀ value after, Gives holds (f value) after) : Gives holds (parser >>= f) cursor :=
  later _ _

theorem Gives.bind_of_eq {parser : Parser β} {f : β → Parser α} {value : β}
    (read : (parser cursor).1 = value) (later : Gives holds (f value) (parser cursor).2) :
    Gives holds (parser >>= f) cursor := by
  subst read
  exact later

theorem Gives.get {f : Cursor → Parser α} (later : Gives holds (f cursor) cursor) :
    Gives holds (get >>= f) cursor :=
  later

theorem Gives.ite {condition : Prop} [Decidable condition] {p q : Parser α}
    (whenTrue : Gives holds p cursor) (whenFalse : Gives holds q cursor) :
    Gives holds (if condition then p else q) cursor := by
  split
  · exact whenTrue
  · exact whenFalse

variable {rules : Rules} {operand : Expr} {reference : Prop}

theorem gives_excerptFrom {kind : ExcerptKind} (known : kind = .methodReference → reference) :
    Gives (operand.Grows reference) (excerptFrom operand.span.start kind) cursor :=
  ⟨rfl, .inr (.inr ⟨kind, rfl, known⟩)⟩

theorem gives_spanned (construct : Span → Expr) (span_eq : ∀ span, (construct span).span = span)
    (member : ∀ span, .expr operand ∈ (construct span).parts) :
    Gives (operand.Grows reference) (do return construct (← spanFrom operand.span.start))
      cursor := by
  refine ⟨?_, .inr (.inl (member _))⟩
  change (construct (cursor.spanFrom operand.span.start)).span.start = operand.span.start
  rw [span_eq, Cursor.spanFrom]

theorem gives_none : Gives (operand.GrowsSome reference) (pure none) cursor := nofun

theorem gives_some {parser : Parser Expr} (gives : Gives (operand.Grows reference) parser cursor) :
    Gives (operand.GrowsSome reference) (do return some (← parser)) cursor := by
  rintro _ ⟨⟩
  exact gives

theorem gives_creationWith :
    Gives (operand.Grows reference) (creationWith rules (some operand) operand.span.start)
      cursor := by
  have finished (type : TypeRef) (arguments : List Expr) (body : Option Span) (after : Cursor) :
      Gives (operand.Grows reference) (do
        return .innerCreation (← spanFrom operand.span.start) operand type arguments body) after :=
    gives_spanned (.innerCreation · operand type arguments body) (fun _ => rfl)
      fun _ => List.mem_cons_self
  have body (type : TypeRef) (arguments : List Expr) (after : Cursor) :
      Gives (operand.Grows reference) (do
        let cursor ← get
        let body ← if cursor.isAt .openBrace then do
            skipBraces
            pure (some (← spanFrom cursor.here))
          else pure none
        let span ← spanFrom operand.span.start
        return .innerCreation span operand type arguments body) after :=
    .get (.ite (.bind fun _ _ => .bind fun _ _ => finished ..) (finished ..))
  refine .bind fun _ _ => .bind fun _ _ => .bind fun type _ => .get (.ite ?_ ?_)
  · exact .bind fun _ _ => .bind fun _ _ => gives_excerptFrom nofun
  · exact .ite (.bind fun arguments => body type arguments) (body type [] _)

theorem gives_selectionWith :
    Gives (operand.GrowsSome reference) (selectionWith rules operand) cursor := by
  refine .bind fun _ _ => .bind fun _ after => .get ?_
  split
  · exact gives_none
  · refine .ite gives_none (.ite (gives_some gives_creationWith) (.ite ?_ ?_))
    · exact .bind fun _ _ => gives_some (gives_excerptFrom nofun)
    · refine .bind fun _ _ => .get (.ite (.bind fun arguments _ => ?_) ?_)
      · exact gives_some (gives_spanned (.memberCall · operand _ arguments) (fun _ => rfl)
          fun _ => List.mem_cons_self)
      · exact gives_some (gives_spanned (.fieldAccess · operand _) (fun _ => rfl)
          fun _ => List.mem_cons_self)

theorem gives_indexWith : Gives (operand.Grows reference) (indexWith rules operand) cursor := by
  refine .get (.ite (.bind fun _ _ => .get (.ite ?_ ?_)) ?_)
  · exact .bind fun _ _ => gives_excerptFrom nofun
  · exact ⟨rfl, .inl rfl⟩
  · exact .bind fun _ _ => .bind fun index _ => .bind fun _ _ =>
      gives_spanned (.arrayAccess · operand index) (fun _ => rfl) fun _ => List.mem_cons_self

theorem gives_methodReference (holds : reference) :
    Gives (operand.Grows reference) (methodReference operand) cursor :=
  .bind fun _ _ => .bind fun _ _ => .get
    (.ite (.bind fun _ _ => gives_excerptFrom fun _ => holds) (gives_excerptFrom fun _ => holds))

/-- A selector or an operator keeps the operand before it. -/
theorem gives_selectorWith :
    Gives (operand.GrowsSome (cursor.isAt .doubleColon = true)) (selectorWith rules operand)
      cursor := by
  refine .get ?_
  split
  · exact gives_selectionWith
  · exact gives_some gives_indexWith
  · next found => exact gives_some (gives_methodReference (Cursor.isAt_iff.mpr found))
  · refine .ite (.bind fun _ _ => .get (.ite ?_ ?_)) gives_none
    · rintro _ ⟨⟩
      exact ⟨rfl, .inl rfl⟩
    · exact .bind fun _ _ => gives_none
  · split
    · exact .bind fun _ _ => gives_some (gives_spanned (.update · _ operand) (fun _ => rfl)
        fun _ => List.mem_cons_self)
    · exact gives_none

/-- A type test or a binary operator keeps the operand before it. -/
theorem gives_binaryStepWith (least : Nat) :
    Gives (operand.GrowsSome reference) (binaryStepWith rules least operand) cursor := by
  have tested (type : TypeRef) (binding : Option Token) (after : Cursor) :
      Gives (operand.GrowsSome reference) (do
        return some (.instanceOf (← spanFrom operand.span.start) operand type
          (binding.map (·.text)))) after :=
    gives_some (gives_spanned (.instanceOf · operand type (binding.map (·.text))) (fun _ => rfl)
      fun _ => List.mem_cons_self)
  refine .get (.ite (.ite gives_none ?_) ?_)
  · exact .bind fun _ _ => .bind fun _ _ => .bind fun type _ => .bind fun _ _ => .get
      (.ite (.bind fun binding => tested type binding) (tested type none _))
  · split
    · exact gives_none
    · refine .ite gives_none (.bind fun _ _ => .bind fun right _ => ?_)
      exact gives_some (gives_spanned (.binary · _ operand right) (fun _ => rfl)
        fun _ => List.mem_cons_self)

/-- Reads the type arguments in front of a method reference. -/
def typeArgumentsBefore (operand : Expr) : Parser (Option Expr) := do
  discard skipTypeArguments
  if (← get).isAt .doubleColon then return some operand else return none

/-- Where no method reference follows type arguments, they are not read. -/
theorem selectorWith_of_less (found : cursor.isAt .less = true) :
    selectorWith rules operand cursor =
      (if maybeType operand then attempt (typeArgumentsBefore operand) else pure none) cursor := by
  simp only [selectorWith, bind_apply, get_apply, Cursor.isAt_iff.mp found]
  cases maybeType operand with
  | false => rfl
  | true =>
      cases goes_on : (skipTypeArguments cursor).2.isAt .doubleColon with
      | false =>
          have nothing : (typeArgumentsBefore operand cursor).1 = none := by
            simp [typeArgumentsBefore, goes_on]
          simp [attempt_of_none nothing, goes_on]
      | true =>
          have read : typeArgumentsBefore operand cursor =
              (some operand, (skipTypeArguments cursor).2) := by
            simp [typeArgumentsBefore, goes_on]
          simp [attempt_of_some (congrArg Prod.fst read), read, goes_on]

theorem gives_afterArgument {argument : Expr} :
    Gives (fun result _ => result = some argument) (afterArgument argument) cursor :=
  .bind fun _ _ => .ite rfl (.get (.ite rfl (.bind fun _ _ => .bind fun _ _ => rfl)))

/-! ## Where what is read begins -/

/-- Whether an expression was read that begins with an operand: it is the operand, or has it as a
part. -/
def Keeps (operand : Expr) (result : Option Expr) (_ : Cursor) : Prop :=
  ∃ expr, result = some expr ∧ expr.span.start = operand.span.start ∧
    (expr = operand ∨ .expr operand ∈ expr.parts)

/-- Reads the branches of a conditional expression after its condition, if there are any. -/
def branchesWith (rules : Rules) (condition : Expr) : Parser (Option Expr) := do
  unless ← accept .question do
    return some condition
  let whenTrue ← orMissing rules.expr
  discard <| accept .colon
  let whenFalse ←
    if (← get).isAtLambda then lambdaWith rules else orMissing rules.conditional
  return some (.conditional (← spanFrom condition.span.start) condition whenTrue whenFalse)

/-- Reads the rest of an assignment after its target, if there is any. -/
def assignmentWith (rules : Rules) (target : Expr) : Parser (Option Expr) := do
  match (← get).assignOp? with
  | none => return some target
  | some (op, width) =>
    advance width
    let value ← valueWith rules
    return some (.assignment (← spanFrom target.span.start) op target value)

/-- Reads an expression that is no lambda. -/
def plainExprWith (rules : Rules) : Parser (Option Expr) := do
  match ← conditionalWith rules with
  | none => return none
  | some target => assignmentWith rules target

theorem conditionalWith_eq : conditionalWith rules = (do
    match ← binaryWith rules 0 with
    | none => return none
    | some condition => branchesWith rules condition) :=
  rfl

theorem exprWith_eq : exprWith rules = (do
    if (← get).isAtLambda then return some (← lambdaWith rules) else plainExprWith rules) :=
  rfl

theorem gives_branchesWith (rules : Rules) (condition : Expr) :
    Gives (Keeps condition) (branchesWith rules condition) cursor := by
  have joined (whenTrue whenFalse : Expr) (after : Cursor) : Gives (Keeps condition) (do
      return some (.conditional (← spanFrom condition.span.start) condition whenTrue whenFalse))
      after := ⟨_, rfl, rfl, .inr List.mem_cons_self⟩
  refine .bind fun _ _ => .ite ?_ ⟨condition, rfl, rfl, .inl rfl⟩
  refine .bind fun whenTrue _ => .bind fun _ _ => .get (.ite ?_ ?_)
  · exact .bind fun whenFalse => joined whenTrue whenFalse
  · exact .bind fun whenFalse => joined whenTrue whenFalse

theorem gives_assignmentWith (rules : Rules) (target : Expr) :
    Gives (Keeps target) (assignmentWith rules target) cursor := by
  refine .get ?_
  split
  · exact ⟨target, rfl, rfl, .inl rfl⟩
  · exact .bind fun _ _ => .bind fun _ _ => ⟨_, rfl, rfl, .inr List.mem_cons_self⟩

/-- Whether an expression was read that begins at an offset. -/
def BeginsAt (start : Nat) (result : Option Expr) (_ : Cursor) : Prop :=
  ∃ expr, result = some expr ∧ expr.span.start = start

/-- What is read on from an operand begins where the operand does. -/
theorem start_iterate {step : Expr → Parser (Option Expr)} (reference : Cursor → Prop)
    (grows : ∀ operand before, Gives (operand.GrowsSome (reference before)) (step operand) before)
    (operand : Expr) (cursor : Cursor) :
    (iterate step operand cursor).1.span.start = operand.span.start := by
  refine triple_iff.mp (iterate_invariant (fun result _ => result.span.start = operand.span.start)
    (fun result => triple_iff.mpr fun before start_eq => ?_) operand) cursor rfl
  have grown := grows result before
  cases read : (step result before).1 with
  | none => exact start_eq
  | some further => exact (grown further read).start_eq.trans start_eq

/-- Reads the type of a cast, if an operand may follow it. -/
def castHead : Parser (Option TypeRef) := do
  advance 1
  match ← typeRef? with
  | none => return none
  | some type =>
    match ← castType? type with
    | none => return none
    | some type =>
      if ← accept .closeParen then
        let cursor ← get
        if cursor.isAtOperand || (type.isPrimitive &&
            cursor.isAhead 0 [.plus, .minus, .increment, .decrement]) then return some type
        else return none
      else return none

/-- Where the type of a cast is missing, nothing is read. -/
theorem castWith_eq : castWith rules = (do
    let before ← get
    match ← attempt castHead with
    | none => return none
    | some type =>
      let operand ← if (← get).isAtLambda then lambdaWith rules else orMissing rules.unary
      return some (.cast (← spanFrom before.here) type operand)) := by
  funext cursor
  simp only [castWith, castHead, attempt, bind_apply, get_apply]
  cases (typeRef? (advance 1 cursor).2).1 with
  | none => rfl
  | some first =>
      simp only [bind_apply]
      cases (castType? first (typeRef? (advance 1 cursor).2).2).1 with
      | none => rfl
      | some type =>
          simp only [bind_apply]
          generalize (castType? first (typeRef? (advance 1 cursor).2).2).2 = ended
          cases (accept .closeParen ended).1 with
          | false => rfl
          | true =>
              simp only [if_true, bind_apply]
              generalize (accept .closeParen ended).2 = place
              generalize (Cursor.isAtOperand _ || _) = goes_on
              cases goes_on <;> rfl

/-- A cast begins where it was looked for. Where there is none, nothing is read. -/
theorem castWith_eq_none_or (rules : Rules) (cursor : Cursor) :
    castWith rules cursor = (none, cursor) ∨
      Gives (BeginsAt cursor.here) (castWith rules) cursor := by
  rw [castWith_eq]
  cases found : (castHead cursor).1 with
  | none => exact .inl (by simp [attempt_of_none found])
  | some type =>
      have joined (operand : Expr) (after : Cursor) : Gives (BeginsAt cursor.here)
          (do return some (.cast (← spanFrom cursor.here) type operand)) after := ⟨_, rfl, rfl⟩
      have attempted : (attempt castHead cursor).1 = some type := by rw [attempt_of_some found]
      exact .inr (.get (.bind_of_eq attempted (.get (.ite (.bind joined) (.bind joined)))))

section Begins

variable (rules : Rules) (begins : cursor.isAtIdentifier = true ∨ cursor.isAt .openParen = true)

include begins

/-- A name or a group is read as an operand. -/
theorem primaryWith_begins :
    Gives (BeginsAt cursor.here) (primaryWith rules) cursor := by
  obtain ⟨rest, behind⟩ := cursor
  cases rest with
  | nil => rcases begins with begins | begins <;> cases begins
  | cons token rest =>
      rcases begins with identifier | opened
      · obtain ⟨word, free⟩ : token.kind = .word ∧ isReserved token.text = false := by
          simpa [Cursor.isAtIdentifier] using identifier
        rw [Gives, primaryWith_identifier ⟨token, word, free⟩]
        change Gives (BeginsAt token.span.start) _ ⟨rest, token.span.stop⟩
        exact .get (.ite (.bind fun _ _ => ⟨_, rfl, rfl⟩) ⟨_, rfl, rfl⟩)
      · obtain ⟨kind, text, span⟩ := token
        obtain rfl : kind = .openParen := by simpa using opened
        exact Gives.get (.bind fun _ _ => .bind fun _ _ => .bind fun _ _ => ⟨_, rfl, rfl⟩)

theorem operandWith_begins :
    Gives (BeginsAt cursor.here) (operandWith rules) cursor := by
  obtain ⟨operand, read, start_eq⟩ := primaryWith_begins rules begins
  refine .bind_of_eq read ⟨_, rfl, ?_⟩
  exact (start_iterate _ (fun _ _ => gives_selectorWith) operand _).trans start_eq

theorem unaryWith_begins :
    Gives (BeginsAt cursor.here) (unaryWith rules) cursor := by
  have no_operator : cursor.unaryOp? = none := by
    obtain ⟨rest, behind⟩ := cursor
    cases rest with
    | nil => rfl
    | cons token rest =>
        have kind : token.kind = .word ∨ token.kind = .openParen :=
          begins.imp (fun identifier => of_decide_eq_true (Bool.and_eq_true_iff.mp identifier).1)
            of_decide_eq_true
        rcases kind with kind | kind <;> simp [Cursor.unaryOp?, kind]
  refine .get ?_
  rw [no_operator]
  refine .ite ?_ (operandWith_begins rules begins)
  rcases castWith_eq_none_or rules cursor with nothing | ⟨cast, read, start_eq⟩
  · refine .bind_of_eq (congrArg Prod.fst nothing) ?_
    rw [nothing]
    exact operandWith_begins rules begins
  · exact .bind_of_eq read ⟨cast, rfl, start_eq⟩

theorem binaryWith_begins (least : Nat) :
    Gives (BeginsAt cursor.here) (binaryWith rules least) cursor := by
  obtain ⟨left, read, start_eq⟩ := unaryWith_begins rules begins
  refine .bind_of_eq read ⟨_, rfl, ?_⟩
  exact (start_iterate (fun _ => True) (fun _ _ => gives_binaryStepWith least) left _).trans
    start_eq

theorem conditionalWith_begins :
    Gives (BeginsAt cursor.here) (conditionalWith rules) cursor := by
  obtain ⟨condition, read, start_eq⟩ := binaryWith_begins rules begins 0
  refine .bind_of_eq read ?_
  obtain ⟨expr, expr_eq, kept, -⟩ := gives_branchesWith rules condition
  exact ⟨expr, expr_eq, kept.trans start_eq⟩

theorem plainExprWith_begins :
    Gives (BeginsAt cursor.here) (plainExprWith rules) cursor := by
  obtain ⟨target, read, start_eq⟩ := conditionalWith_begins rules begins
  refine .bind_of_eq read ?_
  obtain ⟨expr, expr_eq, kept, -⟩ := gives_assignmentWith rules target
  exact ⟨expr, expr_eq, kept.trans start_eq⟩

end Begins

/-- What is missing begins where it is. -/
theorem start_orMissing {parser : Parser (Option Expr)} {start : Nat}
    (begins : Gives (BeginsAt start) parser cursor) :
    (orMissing parser cursor).1.span.start = start := by
  obtain ⟨expr, read, start_eq⟩ := begins
  simp [orMissing, read, start_eq]

end Parser

end JavaOutline
