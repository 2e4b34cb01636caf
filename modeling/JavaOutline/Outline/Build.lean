import JavaOutline.Java.Declaration
import JavaOutline.Java.Render
import JavaOutline.Log.Event
import JavaOutline.Outline.Basic

/-!
# Outlining statements

Each statement adds nodes below a parent by a rule of its kind. Blocks add their statements to the
parent, and empty statements add nothing. Expressions are not taken apart: an expression is the
value of the node of its statement. `outlineBlock` outlines a block as a whole: if a statement is
rejected, the nodes added for those before it are taken back.
-/

namespace JavaOutline

/-- What outlining works on: the outline so far, and the events so far. -/
structure Draft where
  /-- The outline so far. -/
  outline : Outline
  /-- The events so far, in order. -/
  events : Array Event

/-- Why outlining stopped. -/
inductive Stop where
  | rejected (rejection : Rejection)
  | fault (fault : Fault)
  deriving DecidableEq, Repr

/-- A computation that adds to a draft and may stop. What it added before it stopped remains. -/
abbrev Builder (α : Type) : Type := ExceptT Stop (StateM Draft) α

/-- The source that is outlined, and whether extents are checked against it. -/
structure OutlineContext where
  /-- The source. -/
  source : Source
  /-- Whether the extent of a node must fit the source, and a verbatim value be its text. -/
  verify : Bool

/-- Reports an event. -/
def report (event : Event) : StateM Draft Unit :=
  modify fun draft => { draft with events := draft.events.push event }

namespace OutlineContext

variable (context : OutlineContext)

/-- The rejection of something that has no place in an outline. -/
def unsupported (title : String) (span : Span) : Rejection :=
  .unsupported title span ((Lines.ofSource context.source).position span.start)

/-- The rejection of a span that does not fit the source. -/
def malformed (span : Span) : Rejection :=
  .malformedRange span context.source.size

/-- The source text of a span. -/
def slice (span : Span) : Except Rejection String :=
  match context.source.slice? span with
  | some text => .ok text
  | none => .error (context.malformed span)

/-- The rendering of an expression. -/
def render (expr : Expr) : Except Rejection String :=
  match expr.render context.source with
  | .ok text => .ok text
  | .error refused => .error (context.unsupported refused.title refused.span)

/-- The renderings of some expressions with commas between them. -/
def renderAll (exprs : List Expr) : Except Rejection String :=
  match Expr.renderAll context.source exprs with
  | .ok texts => .ok (", ".intercalate texts)
  | .error refused => .error (context.unsupported refused.title refused.span)

/-- The source text from the start of an expression to the end of its statement. -/
def tailText (expr : Expr) (statement : Span) : Except Rejection String :=
  match expr with
  | .missing span => .error (context.unsupported expr.title span)
  | _ => context.slice ⟨expr.span.start, statement.stop⟩

/-- The kind of a statement that consists of an expression; only some expressions make a
statement. -/
def expressionKind (expr : Expr) : Except Rejection EntityKind :=
  match expr with
  | .assignment .. => .ok .assignment
  | .unary _ .increment _ | .unary _ .decrement _ => .ok .prefixExpression
  | .update .. => .ok .postfixExpression
  | .creation .. | .innerCreation .. => .ok .classInstanceCreation
  | .call .. | .memberCall .. => .ok .methodInvocation
  | _ => .error (context.unsupported expr.title expr.span)

/-- The entity of a kind, a value and a span: the span must not be empty, and with verification it
must fit the source, and a verbatim value must be the text under it. -/
def entity (kind : EntityKind) (value : String) (span : Span) : Except Rejection Entity := do
  let some extent := span.extent? | .error (context.malformed span)
  if context.verify then
    let some actual := context.source.excerpt? extent | .error (context.malformed span)
    if kind.isVerbatim && actual ≠ value then
      .error (.rangeMismatch kind value actual)
  return ⟨value, kind, extent⟩

end OutlineContext

/-- The kind of the node of a jump. -/
def JumpKind.entityKind : JumpKind → EntityKind
  | .break => .breakStatement
  | .continue => .continueStatement

namespace Builder

/-- Continues with the value of a computation that may be rejected. -/
def ofExcept {α : Type} (value : Except Rejection α) : Builder α :=
  match value with
  | .ok value => pure value
  | .error rejection => throw (.rejected rejection)

/-- Adds a last child under `parent`. -/
def createChild (parent : Nat) (entity : Entity) : Builder Nat := do
  let draft ← get
  match draft.outline.createChild parent entity with
  | .ok (id, outline) =>
    set { draft with outline }
    return id
  | .error fault => throw (.fault fault)

/-- Adds a node of a kind, a value and a span under `parent`. -/
def addNode (context : OutlineContext) (parent : Nat) (kind : EntityKind) (value : String)
    (span : Span) : Builder Nat := do
  createChild parent (← ofExcept (context.entity kind value span))

/-- Adds a node whose value is the source text of its span. -/
def addVerbatim (context : OutlineContext) (parent : Nat) (kind : EntityKind) (span : Span) :
    Builder Unit := do
  let value ← ofExcept (context.slice span)
  discard <| addNode context parent kind value span

/-- Adds a node for each label of a group. -/
def addLabels (context : OutlineContext) (parent : Nat) : List SwitchLabel → Builder Unit
  | [] => return
  | label :: labels => do
    let value ← match label with
      | .case _ values => ofExcept (context.renderAll values)
      | .default _ => pure "default"
    discard <| addNode context parent .switchCase value label.span
    addLabels context parent labels

/-- The span from the first to the last of some `catch` clauses. -/
def handlersSpan (first : Handler) (rest : List Handler) : Span :=
  first.span.cover ((rest.getLast?.getD first).span)

/-- Reports a statement, and then adds its nodes. -/
def announced (stmt : Stmt) (add : Builder Unit) : Builder Unit := do
  report (.statement stmt.title stmt.span)
  add

mutual

/-- Adds the nodes of a statement under `parent`. The statements inside it are reported. -/
def addStmt (context : OutlineContext) (parent : Nat) : Stmt → Builder Unit
  | .locals declaration =>
    addVerbatim context parent .variableDeclarationStatement declaration.span
  | .localType span _ _ => addVerbatim context parent .typeDeclarationStatement span
  | .expr span expr => do
    let kind ← ofExcept (context.expressionKind expr)
    addVerbatim context parent kind span
  | .constructorCall span _ _ _ => addVerbatim context parent .constructorInvocation span
  | .assertion span condition none => do
    let condition ← ofExcept (context.render condition)
    discard <| addNode context parent .assertStatement condition span
  | .assertion span condition (some message) => do
    let condition ← ofExcept (context.render condition)
    let message ← ofExcept (context.render message)
    discard <| addNode context parent .assertStatement (condition ++ ":" ++ message) span
  | .jump span kind label =>
    discard <| addNode context parent kind.entityKind ((label.map (·.text)).getD "") span
  | .returns span none => discard <| addNode context parent .returnStatement "" span
  | .returns span (some value) => do
    let value ← ofExcept (context.tailText value span)
    discard <| addNode context parent .returnStatement value span
  | .throws span value => do
    let value ← ofExcept (context.tailText value span)
    discard <| addNode context parent .throwStatement value span
  | .conditional span condition whenTrue none => do
    let condition ← ofExcept (context.render condition)
    let node ← addNode context parent .ifStatement condition span
    let branch ← addNode context node .thenStatement condition span
    announced whenTrue (addStmt context branch whenTrue)
  | .conditional span condition whenTrue (some whenFalse) => do
    let condition ← ofExcept (context.render condition)
    let node ← addNode context parent .ifStatement condition span
    let branch ← addNode context node .thenStatement condition span
    announced whenTrue (addStmt context branch whenTrue)
    let branch ← addNode context node .elseStatement condition span
    announced whenFalse (addStmt context branch whenFalse)
  | .whileLoop span condition body => do
    let condition ← ofExcept (context.render condition)
    let node ← addNode context parent .whileStatement condition span
    announced body (addStmt context node body)
  | .doLoop span body condition => do
    let condition ← ofExcept (context.render condition)
    let node ← addNode context parent .doStatement condition span
    announced body (addStmt context node body)
  | .forLoop span _ none _ body => do
    let node ← addNode context parent .forStatement "" span
    announced body (addStmt context node body)
  | .forLoop span _ (some condition) _ body => do
    let condition ← ofExcept (context.render condition)
    let node ← addNode context parent .forStatement condition span
    announced body (addStmt context node body)
  | .forEach span element collection body => do
    let collection ← ofExcept (context.render collection)
    let header := element.type.text ++ " " ++ element.name.text ++ ":" ++ collection
    let node ← addNode context parent .foreachStatement header span
    announced body (addStmt context node body)
  | .switch span selector groups => do
    let selector ← ofExcept (context.render selector)
    let node ← addNode context parent .switchStatement selector span
    addGroups context node groups
  | .synchronized span lock (.mk _ statements) => do
    let lock ← ofExcept (context.render lock)
    let node ← addNode context parent .synchronizedStatement lock span
    addStmts context node statements
  | .tries span resources (.mk bodySpan statements) handlers cleanup => do
    let resources ← ofExcept (resources.mapM context.slice)
    let node ← addNode context parent .tryStatement ("; ".intercalate resources) span
    let body ← addNode context node .tryBody "" bodySpan
    addStmts context body statements
    addClauses context node handlers
    addCleanup context node cleanup
  | .labeled span label body => do
    let node ← addNode context parent .labeledStatement label.text span
    announced body (addStmt context node body)
  | .block (.mk _ statements) => addStmts context parent statements
  | .empty _ => return
  | .unparsed span =>
    throw (.rejected (context.unsupported (Stmt.unparsed span).title span))

/-- Adds the nodes of some statements under `parent`. -/
def addStmts (context : OutlineContext) (parent : Nat) : List Stmt → Builder Unit
  | [] => return
  | stmt :: stmts => do
    announced stmt (addStmt context parent stmt)
    addStmts context parent stmts

/-- Adds the labels and statements of some groups of a `switch`, all under `parent`. -/
def addGroups (context : OutlineContext) (parent : Nat) : List SwitchGroup → Builder Unit
  | [] => return
  | .mk _ _ labels statements :: groups => do
    addLabels context parent labels
    addStmts context parent statements
    addGroups context parent groups

/-- Adds a node for the `catch` clauses of a `try`, with one below it for each of them; without
clauses, nothing is added. -/
def addClauses (context : OutlineContext) (parent : Nat) : List Handler → Builder Unit
  | [] => return
  | first :: rest => do
    let clauses ← addNode context parent .catchClauses "" (handlersSpan first rest)
    addHandler context clauses first
    addHandlers context clauses rest

/-- Adds a node with the statements below it for the `finally` clause of a `try`, if it has one. -/
def addCleanup (context : OutlineContext) (parent : Nat) : Option Block → Builder Unit
  | none => return
  | some (.mk span statements) => do
    let clause ← addNode context parent .finallyClause "" span
    addStmts context clause statements

/-- Adds a node with the statements below it for a `catch` clause. -/
def addHandler (context : OutlineContext) (parent : Nat) : Handler → Builder Unit
  | .mk span types _ (.mk _ statements) => do
    let clause ← addNode context parent .catchClause (" | ".intercalate (types.map (·.text))) span
    addStmts context clause statements

/-- Adds a node with the statements below it for each of some `catch` clauses. -/
def addHandlers (context : OutlineContext) (parent : Nat) : List Handler → Builder Unit
  | [] => return
  | handler :: handlers => do
    addHandler context parent handler
    addHandlers context parent handlers

end

end Builder

/-- Adds the nodes of a block under `parent`. If a statement is rejected, the outline is left as it
was. -/
def outlineBlock (context : OutlineContext) (parent : Nat) (block : Block) : Builder Unit :=
  ExceptT.mk do
    let before := (← get).outline.size
    match ← (Builder.addStmts context parent block.statements).run with
    | .ok () =>
      let after := (← get).outline.size
      report (.outlinedBlock block.statements.length (after - before))
      return .ok ()
    | .error (.rejected rejection) =>
      report (.rejected rejection)
      modify fun draft => { draft with outline := draft.outline.truncate before }
      return .error (.rejected rejection)
    | .error (.fault fault) => return .error (.fault fault)

/-- Adds the nodes of the body of a method under `parent`; without a body, nothing is added. -/
def outlineBody (context : OutlineContext) (parent : Nat) (method : Method) : Builder Unit := do
  match method.body with
  | some body => outlineBlock context parent body
  | none => report (.noBody method.name.text)

end JavaOutline
