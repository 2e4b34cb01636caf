/-!
# Kinds of entities

Every node of an outline has a kind. Composite kinds group the statements nested inside them; leaf
kinds carry text only. The value of a verbatim kind is exactly the source text of its extent.
-/

namespace JavaOutline

/-- What a node of an outline stands for. -/
inductive EntityKind where
  | method
  | tryBody
  | ifStatement
  | thenStatement
  | elseStatement
  | forStatement
  | foreachStatement
  | whileStatement
  | doStatement
  | switchStatement
  | tryStatement
  | catchClauses
  | catchClause
  | finallyClause
  | synchronizedStatement
  | labeledStatement
  | assignment
  | postfixExpression
  | prefixExpression
  | classInstanceCreation
  | methodInvocation
  | constructorInvocation
  | variableDeclarationStatement
  | typeDeclarationStatement
  | returnStatement
  | breakStatement
  | continueStatement
  | throwStatement
  | assertStatement
  | switchCase
  deriving DecidableEq, Repr

namespace EntityKind

/-- All kinds, composite ones first. -/
def all : List EntityKind :=
  [.method, .tryBody, .ifStatement, .thenStatement, .elseStatement, .forStatement,
   .foreachStatement, .whileStatement, .doStatement, .switchStatement, .tryStatement,
   .catchClauses, .catchClause, .finallyClause, .synchronizedStatement, .labeledStatement,
   .assignment, .postfixExpression, .prefixExpression, .classInstanceCreation, .methodInvocation,
   .constructorInvocation, .variableDeclarationStatement, .typeDeclarationStatement,
   .returnStatement, .breakStatement, .continueStatement, .throwStatement, .assertStatement,
   .switchCase]

/-- The name of a kind in reports and in exported outlines. -/
def name : EntityKind → String
  | method => "METHOD"
  | tryBody => "BODY"
  | ifStatement => "IF_STATEMENT"
  | thenStatement => "THEN_STATEMENT"
  | elseStatement => "ELSE_STATEMENT"
  | forStatement => "FOR_STATEMENT"
  | foreachStatement => "FOREACH_STATEMENT"
  | whileStatement => "WHILE_STATEMENT"
  | doStatement => "DO_STATEMENT"
  | switchStatement => "SWITCH_STATEMENT"
  | tryStatement => "TRY_STATEMENT"
  | catchClauses => "CATCH_CLAUSES"
  | catchClause => "CATCH_CLAUSE"
  | finallyClause => "FINALLY"
  | synchronizedStatement => "SYNCHRONIZED_STATEMENT"
  | labeledStatement => "LABELED_STATEMENT"
  | assignment => "ASSIGNMENT"
  | postfixExpression => "POSTFIX_EXPRESSION"
  | prefixExpression => "PREFIX_EXPRESSION"
  | classInstanceCreation => "CLASS_INSTANCE_CREATION"
  | methodInvocation => "METHOD_INVOCATION"
  | constructorInvocation => "CONSTRUCTOR_INVOCATION"
  | variableDeclarationStatement => "VARIABLE_DECLARATION_STATEMENT"
  | typeDeclarationStatement => "TYPE_DECLARATION_STATEMENT"
  | returnStatement => "RETURN_STATEMENT"
  | breakStatement => "BREAK_STATEMENT"
  | continueStatement => "CONTINUE_STATEMENT"
  | throwStatement => "THROW_STATEMENT"
  | assertStatement => "ASSERT_STATEMENT"
  | switchCase => "SWITCH_CASE"

/-- The name of a kind in the written form of a node. -/
def title : EntityKind → String
  | method => "Method"
  | tryBody => "Body"
  | ifStatement => "IfStatement"
  | thenStatement => "ThenStatement"
  | elseStatement => "ElseStatement"
  | forStatement => "ForStatement"
  | foreachStatement => "ForeachStatement"
  | whileStatement => "WhileStatement"
  | doStatement => "DoStatement"
  | switchStatement => "SwitchStatement"
  | tryStatement => "TryStatement"
  | catchClauses => "CatchClauses"
  | catchClause => "CatchClause"
  | finallyClause => "Finally"
  | synchronizedStatement => "SynchronizedStatement"
  | labeledStatement => "LabeledStatement"
  | assignment => "Assignment"
  | postfixExpression => "PostfixExpression"
  | prefixExpression => "PrefixExpression"
  | classInstanceCreation => "ClassInstanceCreation"
  | methodInvocation => "MethodInvocation"
  | constructorInvocation => "ConstructorInvocation"
  | variableDeclarationStatement => "VariableDeclarationStatement"
  | typeDeclarationStatement => "TypeDeclarationStatement"
  | returnStatement => "ReturnStatement"
  | breakStatement => "BreakStatement"
  | continueStatement => "ContinueStatement"
  | throwStatement => "ThrowStatement"
  | assertStatement => "AssertStatement"
  | switchCase => "SwitchCase"

/-- The kind of a name. -/
def ofName? (name : String) : Option EntityKind :=
  all.find? (·.name = name)

/-- Whether nodes of a kind group the statements nested inside them. -/
def isComposite : EntityKind → Bool
  | method | tryBody | ifStatement | thenStatement | elseStatement | forStatement
  | foreachStatement | whileStatement | doStatement | switchStatement | tryStatement
  | catchClauses | catchClause | finallyClause | synchronizedStatement | labeledStatement => true
  | _ => false

/-- Whether nodes of a kind have no children in the outline of a method. -/
def isLeaf (kind : EntityKind) : Bool :=
  !kind.isComposite

/-- Whether the value of a node of a kind is the source text of its extent. -/
def isVerbatim : EntityKind → Bool
  | assignment | prefixExpression | postfixExpression | methodInvocation | classInstanceCreation
  | constructorInvocation | variableDeclarationStatement | typeDeclarationStatement => true
  | _ => false

theorem mem_all (kind : EntityKind) : kind ∈ all := by
  cases kind <;> decide

theorem ofName?_name (kind : EntityKind) : ofName? kind.name = some kind := by
  cases kind <;> rfl

theorem isLeaf_of_isVerbatim {kind : EntityKind} (verbatim : kind.isVerbatim = true) :
    kind.isLeaf = true := by
  cases kind <;> simp_all [isVerbatim, isLeaf, isComposite]

end EntityKind

end JavaOutline
