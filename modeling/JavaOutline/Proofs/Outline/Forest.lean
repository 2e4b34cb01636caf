import JavaOutline.Outline.Branch
import JavaOutline.Outline.Build

/-!
# The branches of statements

What the outline of a list of statements is, said without an outline: the branches that stand for
the statements, or the first rejection on the way. The rules follow the kinds of statement. Blocks
give way to their statements and empty statements to nothing; the labels and statements of a
`switch` stand side by side; every other statement is one branch.
-/

namespace JavaOutline

namespace OutlineContext

variable (context : OutlineContext)

/-- The branch of a kind, a value and a span above some branches. -/
def branch (kind : EntityKind) (value : String) (span : Span)
    (children : Except Rejection (List Branch)) : Except Rejection (List Branch) := do
  let entity ← context.entity kind value span
  return [.mk entity (← children)]

/-- The branch of a kind, a value and a span without branches below it. -/
def leaf (kind : EntityKind) (value : String) (span : Span) : Except Rejection (List Branch) :=
  context.branch kind value span (.ok [])

/-- The leaf whose value is the source text of its span. -/
def verbatimLeaf (kind : EntityKind) (span : Span) : Except Rejection (List Branch) := do
  context.leaf kind (← context.slice span) span

/-- Some branches and then others. -/
def beside (left right : Except Rejection (List Branch)) : Except Rejection (List Branch) := do
  return (← left) ++ (← right)

/-- The leaves of the labels of a group. -/
def labelForest : List SwitchLabel → Except Rejection (List Branch)
  | [] => .ok []
  | .case span values :: labels => do
    let values ← context.renderAll values
    beside (context.leaf .switchCase values span) (labelForest labels)
  | .default span :: labels =>
    beside (context.leaf .switchCase "default" span) (labelForest labels)

mutual

/-- The branches of a statement. -/
def stmtForest : Stmt → Except Rejection (List Branch)
  | .locals declaration => context.verbatimLeaf .variableDeclarationStatement declaration.span
  | .localType span _ _ => context.verbatimLeaf .typeDeclarationStatement span
  | .expr span expr => do context.verbatimLeaf (← context.expressionKind expr) span
  | .constructorCall span _ _ _ => context.verbatimLeaf .constructorInvocation span
  | .assertion span condition none => do
    context.leaf .assertStatement (← context.render condition) span
  | .assertion span condition (some message) => do
    let condition ← context.render condition
    let message ← context.render message
    context.leaf .assertStatement (condition ++ ":" ++ message) span
  | .jump span kind label => context.leaf kind.entityKind ((label.map (·.text)).getD "") span
  | .returns span none => context.leaf .returnStatement "" span
  | .returns span (some value) => do
    context.leaf .returnStatement (← context.tailText value span) span
  | .throws span value => do context.leaf .throwStatement (← context.tailText value span) span
  | .conditional span condition whenTrue none => do
    let condition ← context.render condition
    context.branch .ifStatement condition span
      (context.branch .thenStatement condition span (stmtForest whenTrue))
  | .conditional span condition whenTrue (some whenFalse) => do
    let condition ← context.render condition
    context.branch .ifStatement condition span
      (beside (context.branch .thenStatement condition span (stmtForest whenTrue))
        (context.branch .elseStatement condition span (stmtForest whenFalse)))
  | .whileLoop span condition body => do
    context.branch .whileStatement (← context.render condition) span (stmtForest body)
  | .doLoop span body condition => do
    context.branch .doStatement (← context.render condition) span (stmtForest body)
  | .forLoop span _ none _ body => context.branch .forStatement "" span (stmtForest body)
  | .forLoop span _ (some condition) _ body => do
    context.branch .forStatement (← context.render condition) span (stmtForest body)
  | .forEach span element collection body => do
    let collection ← context.render collection
    let header := element.type.text ++ " " ++ element.name.text ++ ":" ++ collection
    context.branch .foreachStatement header span (stmtForest body)
  | .switch span selector groups => do
    context.branch .switchStatement (← context.render selector) span (groupForest groups)
  | .synchronized span lock (.mk _ statements) => do
    context.branch .synchronizedStatement (← context.render lock) span (forest statements)
  | .tries span resources (.mk bodySpan statements) handlers cleanup => do
    let resources ← resources.mapM context.slice
    context.branch .tryStatement ("; ".intercalate resources) span
      (beside (context.branch .tryBody "" bodySpan (forest statements))
        (beside (clauseForest handlers) (cleanupForest cleanup)))
  | .labeled span label body =>
    context.branch .labeledStatement label.text span (stmtForest body)
  | .block (.mk _ statements) => forest statements
  | .empty _ => .ok []
  | .unparsed span => .error (context.unsupported (Stmt.unparsed span).title span)

/-- The branches of some statements, side by side. -/
def forest : List Stmt → Except Rejection (List Branch)
  | [] => .ok []
  | stmt :: stmts => beside (stmtForest stmt) (forest stmts)

/-- The branches of the labels and statements of some groups, side by side. -/
def groupForest : List SwitchGroup → Except Rejection (List Branch)
  | [] => .ok []
  | .mk _ _ labels statements :: groups =>
    beside (context.labelForest labels) (beside (forest statements) (groupForest groups))

/-- The branch of the `catch` clauses of a `try`, if it has any. -/
def clauseForest : List Handler → Except Rejection (List Branch)
  | [] => .ok []
  | first :: rest =>
    context.branch .catchClauses "" (Builder.handlersSpan first rest)
      (beside (handlerForest first) (handlersForest rest))

/-- The branch of a `catch` clause. -/
def handlerForest : Handler → Except Rejection (List Branch)
  | .mk span types _ (.mk _ statements) =>
    context.branch .catchClause (" | ".intercalate (types.map (·.text))) span (forest statements)

/-- The branches of some `catch` clauses, side by side. -/
def handlersForest : List Handler → Except Rejection (List Branch)
  | [] => .ok []
  | handler :: handlers => beside (handlerForest handler) (handlersForest handlers)

/-- The branch of the `finally` clause of a `try`, if it has one. -/
def cleanupForest : Option Block → Except Rejection (List Branch)
  | none => .ok []
  | some (.mk span statements) => context.branch .finallyClause "" span (forest statements)

end

/-- An entity has the extent of its span, which is not empty. -/
theorem eq_of_entity_eq_ok {context : OutlineContext} {kind : EntityKind} {value : String}
    {span : Span} {entity : Entity}
    (found : context.entity kind value span = .ok entity) :
    span.start < span.stop ∧ entity = ⟨value, kind, ⟨span.start, span.stop - 1⟩⟩ := by
  unfold OutlineContext.entity at found
  cases extent_eq : span.extent? with
  | none =>
      rw [extent_eq] at found
      cases found
  | some extent =>
      obtain ⟨start_lt, rfl⟩ := Span.extent?_eq_some_iff.mp extent_eq
      rw [extent_eq] at found
      refine ⟨start_lt, ?_⟩
      simp only at found
      split at found
      · split at found
        · split at found
          · cases found
          · cases found
            rfl
        · cases found
      · cases found
        rfl

/-- A branch has the extent of its span, which is not empty, and the branches given for it. -/
theorem eq_of_branch_eq_ok {context : OutlineContext} {kind : EntityKind} {value : String}
    {span : Span} {children : Except Rejection (List Branch)} {branches : List Branch}
    (found : context.branch kind value span children = .ok branches) :
    span.start < span.stop ∧ ∃ inner, children = .ok inner ∧
      branches = [.mk ⟨value, kind, ⟨span.start, span.stop - 1⟩⟩ inner] := by
  unfold branch at found
  cases made : context.entity kind value span with
  | error rejection =>
      rw [made] at found
      cases found
  | ok entity =>
      obtain ⟨start_lt, rfl⟩ := eq_of_entity_eq_ok made
      cases children with
      | error rejection =>
          rw [made] at found
          cases found
      | ok inner =>
          rw [made] at found
          cases found
          exact ⟨start_lt, inner, rfl, rfl⟩

theorem exists_of_beside_eq_ok {left right : Except Rejection (List Branch)}
    {branches : List Branch} (found : beside left right = .ok branches) :
    ∃ first second, left = .ok first ∧ right = .ok second ∧ branches = first ++ second := by
  cases left with
  | error rejection => cases found
  | ok first =>
      cases right with
      | error rejection => cases found
      | ok second =>
          cases found
          exact ⟨first, second, rfl, rfl, rfl⟩

/-- Whether a forest has a property, unless it is a rejection. -/
def Yields (property : List Branch → Prop) (forest : Except Rejection (List Branch)) : Prop :=
  ∀ branches, forest = .ok branches → property branches

namespace Yields

variable {property : List Branch → Prop}

theorem rejected (rejection : Rejection) : Yields property (.error rejection) :=
  nofun

theorem bind {α : Type} {value : Except Rejection α} {rest : α → Except Rejection (List Branch)}
    (yields : ∀ found, Yields property (rest found)) : Yields property (value >>= rest) := by
  cases value with
  | error rejection => exact rejected rejection
  | ok found => exact yields found

end Yields

end OutlineContext

end JavaOutline
