import JavaOutline.Proofs.Outline.Laminar

/-!
# What an outlined body lacks

A body that was outlined has no unparsed statement at any depth. Where an expression is rendered,
nothing in it is missing, unless it stands in an allocation with a class body, which is copied; and
what is returned or thrown is not missing. Statements that are copied from the source are not looked
into: an initial value, an operand or an argument may be missing there.
-/

namespace JavaOutline

/-- Whether an expression is missing. -/
def Expr.isMissing : Expr → Bool
  | .missing _ => true
  | _ => false

mutual

/-- Whether nothing is missing where rendering an expression looks. -/
def Expr.IsWhole : Expr → Prop
  | .name .. | .literal .. | .this .. | .super .. | .excerpt .. => True
  | .missing _ => False
  | .fieldAccess _ operand _ | .unary _ _ operand | .update _ _ operand
  | .instanceOf _ operand _ _ | .cast _ _ operand | .parenthesized _ operand => operand.IsWhole
  | .arrayAccess _ left right | .binary _ _ left right | .assignment _ _ left right =>
    left.IsWhole ∧ right.IsWhole
  | .conditional _ condition whenTrue whenFalse =>
    condition.IsWhole ∧ whenTrue.IsWhole ∧ whenFalse.IsWhole
  | .call _ _ arguments => Expr.AllWhole arguments
  | .memberCall _ receiver _ arguments => receiver.IsWhole ∧ Expr.AllWhole arguments
  | .creation _ _ arguments body => body.isSome ∨ Expr.AllWhole arguments
  | .innerCreation _ outer _ arguments body =>
    body.isSome ∨ outer.IsWhole ∧ Expr.AllWhole arguments

/-- Whether nothing is missing where rendering some expressions looks. -/
def Expr.AllWhole : List Expr → Prop
  | [] => True
  | expr :: exprs => expr.IsWhole ∧ Expr.AllWhole exprs

end

mutual

/-- Whether a statement has no unparsed statement inside, and nothing is missing where it is
rendered. -/
def Stmt.IsWhole : Stmt → Prop
  | .locals .. | .localType .. | .expr .. | .constructorCall .. | .jump .. | .empty ..
  | .returns _ none => True
  | .unparsed _ => False
  | .assertion _ condition message => condition.IsWhole ∧ Expr.AllWhole message.toList
  | .returns _ (some value) | .throws _ value => value.isMissing = false
  | .conditional _ condition whenTrue none => condition.IsWhole ∧ whenTrue.IsWhole
  | .conditional _ condition whenTrue (some whenFalse) =>
    condition.IsWhole ∧ whenTrue.IsWhole ∧ whenFalse.IsWhole
  | .whileLoop _ condition body | .doLoop _ body condition | .forEach _ _ condition body =>
    condition.IsWhole ∧ body.IsWhole
  | .forLoop _ _ condition _ body => Expr.AllWhole condition.toList ∧ body.IsWhole
  | .switch _ selector groups => selector.IsWhole ∧ SwitchGroup.AllWhole groups
  | .synchronized _ lock (.mk _ statements) => lock.IsWhole ∧ Stmt.AllWhole statements
  | .tries _ _ (.mk _ statements) handlers cleanup =>
    Stmt.AllWhole statements ∧ Handler.AllWhole handlers ∧ Block.CleanupWhole cleanup
  | .labeled _ _ body => body.IsWhole
  | .block (.mk _ statements) => Stmt.AllWhole statements

/-- Whether some statements are whole. -/
def Stmt.AllWhole : List Stmt → Prop
  | [] => True
  | stmt :: stmts => stmt.IsWhole ∧ Stmt.AllWhole stmts

/-- Whether the labels and statements of some groups are whole. -/
def SwitchGroup.AllWhole : List SwitchGroup → Prop
  | [] => True
  | .mk _ _ labels statements :: groups =>
    (∀ span values, .case span values ∈ labels → Expr.AllWhole values) ∧
      Stmt.AllWhole statements ∧ SwitchGroup.AllWhole groups

/-- Whether the statements of a `catch` clause are whole. -/
def Handler.IsWhole : Handler → Prop
  | .mk _ _ _ (.mk _ statements) => Stmt.AllWhole statements

/-- Whether the statements of some `catch` clauses are whole. -/
def Handler.AllWhole : List Handler → Prop
  | [] => True
  | handler :: handlers => handler.IsWhole ∧ Handler.AllWhole handlers

/-- Whether the statements of a `finally` clause, if there is one, are whole. -/
def Block.CleanupWhole : Option Block → Prop
  | none => True
  | some (.mk _ statements) => Stmt.AllWhole statements

end

theorem Except.exists_of_bind_eq_ok {ε α β : Type} {value : Except ε α} {next : α → Except ε β}
    {result : β} (found : value >>= next = .ok result) :
    ∃ first, value = .ok first ∧ next first = .ok result := by
  cases value with
  | error fault => cases found
  | ok first => exact ⟨first, rfl, found⟩

/-! ## Expressions -/

mutual

theorem Expr.isWhole_of_render {source : Source} {expr : Expr} {text : String}
    (rendered : expr.render source = .ok text) : expr.IsWhole := by
  cases expr with
  | name | literal | this | super | excerpt => trivial
  | missing span => cases rendered
  | fieldAccess _ operand | unary _ _ operand | update _ _ operand | instanceOf _ operand
  | cast _ _ operand | parenthesized _ operand =>
      obtain ⟨_, first, _⟩ := Except.exists_of_bind_eq_ok rendered
      exact operand.isWhole_of_render first
  | arrayAccess _ left right | binary _ _ left right | assignment _ _ left right =>
      obtain ⟨_, first, later⟩ := Except.exists_of_bind_eq_ok rendered
      obtain ⟨_, second, _⟩ := Except.exists_of_bind_eq_ok later
      exact ⟨left.isWhole_of_render first, right.isWhole_of_render second⟩
  | conditional _ condition whenTrue whenFalse =>
      obtain ⟨_, first, later⟩ := Except.exists_of_bind_eq_ok rendered
      obtain ⟨_, second, later⟩ := Except.exists_of_bind_eq_ok later
      obtain ⟨_, third, _⟩ := Except.exists_of_bind_eq_ok later
      exact ⟨condition.isWhole_of_render first, whenTrue.isWhole_of_render second,
        whenFalse.isWhole_of_render third⟩
  | call _ _ arguments =>
      obtain ⟨_, first, _⟩ := Except.exists_of_bind_eq_ok rendered
      exact Expr.allWhole_of_renderAll first
  | memberCall _ receiver _ arguments =>
      obtain ⟨_, first, later⟩ := Except.exists_of_bind_eq_ok rendered
      obtain ⟨_, second, _⟩ := Except.exists_of_bind_eq_ok later
      exact ⟨receiver.isWhole_of_render first, Expr.allWhole_of_renderAll second⟩
  | creation _ _ arguments body =>
      cases body with
      | some span => exact .inl rfl
      | none =>
          obtain ⟨_, first, _⟩ := Except.exists_of_bind_eq_ok rendered
          exact .inr (Expr.allWhole_of_renderAll first)
  | innerCreation _ outer _ arguments body =>
      cases body with
      | some span => exact .inl rfl
      | none =>
          obtain ⟨_, first, later⟩ := Except.exists_of_bind_eq_ok rendered
          obtain ⟨_, second, _⟩ := Except.exists_of_bind_eq_ok later
          exact .inr ⟨outer.isWhole_of_render first, Expr.allWhole_of_renderAll second⟩

theorem Expr.allWhole_of_renderAll {source : Source} {exprs : List Expr} {texts : List String}
    (rendered : Expr.renderAll source exprs = .ok texts) : Expr.AllWhole exprs := by
  cases exprs with
  | nil => trivial
  | cons expr exprs =>
      obtain ⟨_, first, later⟩ := Except.exists_of_bind_eq_ok rendered
      obtain ⟨_, second, _⟩ := Except.exists_of_bind_eq_ok later
      exact ⟨expr.isWhole_of_render first, Expr.allWhole_of_renderAll second⟩

end

namespace OutlineContext

variable {context : OutlineContext}

theorem isWhole_of_render {expr : Expr} {text : String}
    (rendered : context.render expr = .ok text) : expr.IsWhole := by
  unfold render at rendered
  split at rendered
  · next found => exact expr.isWhole_of_render found
  · cases rendered

theorem allWhole_of_renderAll {exprs : List Expr} {text : String}
    (rendered : context.renderAll exprs = .ok text) : Expr.AllWhole exprs := by
  unfold renderAll at rendered
  split at rendered
  · next found => exact Expr.allWhole_of_renderAll found
  · cases rendered

theorem isMissing_of_tailText {expr : Expr} {statement : Span} {text : String}
    (found : context.tailText expr statement = .ok text) : expr.isMissing = false := by
  cases expr with
  | missing span => cases found
  | _ => rfl

/-! ## Statements -/

theorem allWhole_of_labelForest {labels : List SwitchLabel} {branches : List Branch}
    (found : context.labelForest labels = .ok branches) (span : Span) (values : List Expr)
    (member : .case span values ∈ labels) : Expr.AllWhole values := by
  induction labels generalizing branches with
  | nil => cases member
  | cons label labels induction =>
      cases label with
      | case =>
          obtain ⟨_, rendered, found⟩ := Except.exists_of_bind_eq_ok found
          obtain ⟨_, _, _, later, _⟩ := exists_of_beside_eq_ok found
          cases member with
          | head => exact allWhole_of_renderAll rendered
          | tail _ member => exact induction later member
      | default =>
          obtain ⟨_, _, _, later, _⟩ := exists_of_beside_eq_ok found
          cases member with
          | tail _ member => exact induction later member

mutual

theorem isWhole_of_stmtForest {stmt : Stmt} {branches : List Branch}
    (found : context.stmtForest stmt = .ok branches) : stmt.IsWhole := by
  cases stmt with
  | locals | localType | expr | constructorCall | jump | empty => trivial
  | unparsed span => cases found
  | assertion span condition message =>
      cases message with
      | none =>
          obtain ⟨_, rendered, _⟩ := Except.exists_of_bind_eq_ok found
          exact ⟨isWhole_of_render rendered, trivial⟩
      | some message =>
          obtain ⟨_, rendered, found⟩ := Except.exists_of_bind_eq_ok found
          obtain ⟨_, rendered', _⟩ := Except.exists_of_bind_eq_ok found
          exact ⟨isWhole_of_render rendered, isWhole_of_render rendered', trivial⟩
  | returns span value =>
      cases value with
      | none => trivial
      | some value =>
          obtain ⟨_, tail, _⟩ := Except.exists_of_bind_eq_ok found
          exact isMissing_of_tailText tail
  | throws span value =>
      obtain ⟨_, tail, _⟩ := Except.exists_of_bind_eq_ok found
      exact isMissing_of_tailText tail
  | conditional span condition whenTrue whenFalse =>
      cases whenFalse with
      | none =>
          obtain ⟨_, rendered, found⟩ := Except.exists_of_bind_eq_ok found
          obtain ⟨_, _, children, _⟩ := eq_of_branch_eq_ok found
          obtain ⟨_, _, first, _⟩ := eq_of_branch_eq_ok children
          exact ⟨isWhole_of_render rendered, isWhole_of_stmtForest first⟩
      | some whenFalse =>
          obtain ⟨_, rendered, found⟩ := Except.exists_of_bind_eq_ok found
          obtain ⟨_, _, children, _⟩ := eq_of_branch_eq_ok found
          obtain ⟨_, _, left, right, _⟩ := exists_of_beside_eq_ok children
          obtain ⟨_, _, first, _⟩ := eq_of_branch_eq_ok left
          obtain ⟨_, _, second, _⟩ := eq_of_branch_eq_ok right
          exact ⟨isWhole_of_render rendered, isWhole_of_stmtForest first,
            isWhole_of_stmtForest second⟩
  | whileLoop _ condition body | doLoop _ body condition | forEach _ _ condition body =>
      obtain ⟨_, rendered, found⟩ := Except.exists_of_bind_eq_ok found
      obtain ⟨_, _, children, _⟩ := eq_of_branch_eq_ok found
      exact ⟨isWhole_of_render rendered, isWhole_of_stmtForest children⟩
  | forLoop span init condition update body =>
      cases condition with
      | none =>
          obtain ⟨_, _, children, _⟩ := eq_of_branch_eq_ok found
          exact ⟨trivial, isWhole_of_stmtForest children⟩
      | some condition =>
          obtain ⟨_, rendered, found⟩ := Except.exists_of_bind_eq_ok found
          obtain ⟨_, _, children, _⟩ := eq_of_branch_eq_ok found
          exact ⟨⟨isWhole_of_render rendered, trivial⟩, isWhole_of_stmtForest children⟩
  | switch span selector groups =>
      obtain ⟨_, rendered, found⟩ := Except.exists_of_bind_eq_ok found
      obtain ⟨_, _, children, _⟩ := eq_of_branch_eq_ok found
      exact ⟨isWhole_of_render rendered, allWhole_of_groupForest children⟩
  | synchronized span lock body =>
      obtain ⟨bodySpan, statements⟩ := body
      obtain ⟨_, rendered, found⟩ := Except.exists_of_bind_eq_ok found
      obtain ⟨_, _, children, _⟩ := eq_of_branch_eq_ok found
      exact ⟨isWhole_of_render rendered, allWhole_of_forest children⟩
  | tries span resources body handlers cleanup =>
      obtain ⟨bodySpan, statements⟩ := body
      obtain ⟨_, _, found⟩ := Except.exists_of_bind_eq_ok found
      obtain ⟨_, _, children, _⟩ := eq_of_branch_eq_ok found
      obtain ⟨_, _, left, right, _⟩ := exists_of_beside_eq_ok children
      obtain ⟨_, _, inner, _⟩ := eq_of_branch_eq_ok left
      obtain ⟨_, _, clauses, last, _⟩ := exists_of_beside_eq_ok right
      exact ⟨allWhole_of_forest inner, allWhole_of_clauseForest clauses,
        cleanupWhole_of_cleanupForest last⟩
  | labeled span label body =>
      obtain ⟨_, _, children, _⟩ := eq_of_branch_eq_ok found
      have whole : body.IsWhole := isWhole_of_stmtForest children
      exact whole
  | block inner =>
      obtain ⟨span, statements⟩ := inner
      exact allWhole_of_forest found

theorem allWhole_of_forest {stmts : List Stmt} {branches : List Branch}
    (found : context.forest stmts = .ok branches) : Stmt.AllWhole stmts := by
  cases stmts with
  | nil => trivial
  | cons stmt stmts =>
      obtain ⟨_, _, first, later, _⟩ := exists_of_beside_eq_ok found
      exact ⟨isWhole_of_stmtForest first, allWhole_of_forest later⟩

theorem allWhole_of_groupForest {groups : List SwitchGroup} {branches : List Branch}
    (found : context.groupForest groups = .ok branches) : SwitchGroup.AllWhole groups := by
  cases groups with
  | nil => trivial
  | cons group groups =>
      obtain ⟨span, arrow, labels, statements⟩ := group
      obtain ⟨_, _, first, others, _⟩ := exists_of_beside_eq_ok found
      obtain ⟨_, _, second, later, _⟩ := exists_of_beside_eq_ok others
      exact ⟨allWhole_of_labelForest first, allWhole_of_forest second,
        allWhole_of_groupForest later⟩

theorem allWhole_of_clauseForest {handlers : List Handler} {branches : List Branch}
    (found : context.clauseForest handlers = .ok branches) : Handler.AllWhole handlers := by
  cases handlers with
  | nil => trivial
  | cons first rest =>
      obtain ⟨_, _, children, _⟩ := eq_of_branch_eq_ok found
      obtain ⟨_, _, head, later, _⟩ := exists_of_beside_eq_ok children
      exact ⟨isWhole_of_handlerForest head, allWhole_of_handlersForest later⟩

theorem isWhole_of_handlerForest {handler : Handler} {branches : List Branch}
    (found : context.handlerForest handler = .ok branches) : handler.IsWhole := by
  obtain ⟨span, types, name, body⟩ := handler
  obtain ⟨bodySpan, statements⟩ := body
  obtain ⟨_, _, inner, _⟩ := eq_of_branch_eq_ok found
  exact allWhole_of_forest inner

theorem allWhole_of_handlersForest {handlers : List Handler} {branches : List Branch}
    (found : context.handlersForest handlers = .ok branches) : Handler.AllWhole handlers := by
  cases handlers with
  | nil => trivial
  | cons handler handlers =>
      obtain ⟨_, _, head, later, _⟩ := exists_of_beside_eq_ok found
      exact ⟨isWhole_of_handlerForest head, allWhole_of_handlersForest later⟩

theorem cleanupWhole_of_cleanupForest {cleanup : Option Block} {branches : List Branch}
    (found : context.cleanupForest cleanup = .ok branches) : Block.CleanupWhole cleanup := by
  cases cleanup with
  | none => trivial
  | some body =>
      obtain ⟨span, statements⟩ := body
      obtain ⟨_, _, inner, _⟩ := eq_of_branch_eq_ok found
      exact allWhole_of_forest inner

end

end OutlineContext

/-- **What an outlined body lacks.** If a method with a body is outlined, then nothing in the body
is unparsed, nothing that is rendered is missing, and nothing is missing that is returned or
thrown. -/
theorem outlineMethod_whole {source : Source} {name : String} {verify : Bool} {outline : Outline}
    {method : Method} {body : Block}
    (outlined : (outlineMethod source name verify).result = .ok outline)
    (found : (CompilationUnit.read source).findMethod? name = some method)
    (has_body : method.body = some body) : Stmt.AllWhole body.statements := by
  obtain ⟨other, branches, other_found, _, grown⟩ := exists_of_outlineMethod_eq_ok outlined
  rw [found] at other_found
  cases other_found
  rw [has_body] at grown
  exact OutlineContext.allWhole_of_forest grown

/-- A file with a method that assigns nothing. -/
def hollowSource : Source := .ofString "class A{void f(){x=;}}"

/-- The body of its method. -/
def hollowBody : Block :=
  .mk ⟨16, 21⟩ [.expr ⟨17, 20⟩
    (.assignment ⟨17, 19⟩ .assign (.name ⟨17, 18⟩ "x") (.missing ⟨19, 19⟩))]

theorem scan_hollowSource : Token.scan 0 hollowSource.chars =
    [⟨.word, "class", ⟨0, 5⟩⟩, ⟨.word, "A", ⟨6, 7⟩⟩, ⟨.openBrace, "\x7b", ⟨7, 8⟩⟩,
     ⟨.word, "void", ⟨8, 12⟩⟩, ⟨.word, "f", ⟨13, 14⟩⟩, ⟨.openParen, "(", ⟨14, 15⟩⟩,
     ⟨.closeParen, ")", ⟨15, 16⟩⟩, ⟨.openBrace, "\x7b", ⟨16, 17⟩⟩, ⟨.word, "x", ⟨17, 18⟩⟩,
     ⟨.assign, "=", ⟨18, 19⟩⟩, ⟨.semicolon, ";", ⟨19, 20⟩⟩, ⟨.closeBrace, "\x7d", ⟨20, 21⟩⟩,
     ⟨.closeBrace, "\x7d", ⟨21, 22⟩⟩] := by
  decide +kernel

set_option maxRecDepth 8000 in
theorem body_hollowSource :
    ((CompilationUnit.read hollowSource).findMethod? "f").bind (·.body) = some hollowBody := by
  rw [CompilationUnit.read, scan_hollowSource]
  rfl

/-- The outline of its method. -/
def hollowOutline : Outline :=
  ⟨#[⟨⟨"f", .method, ⟨8, 20⟩⟩, none, 0, #[1]⟩,
    ⟨⟨"x=;", .assignment, ⟨17, 19⟩⟩, some 0, 0, #[]⟩]⟩

theorem result_outlineMethod_hollowSource :
    (outlineMethod hollowSource "f" true).result = .ok hollowOutline := by
  decide +kernel

theorem allWhole_hollowBody :
    (outlineMethod hollowSource "f" true).result = .ok hollowOutline ∧
      Stmt.AllWhole hollowBody.statements := by
  obtain ⟨method, found, has_body⟩ := Option.bind_eq_some_iff.mp body_hollowSource
  exact ⟨result_outlineMethod_hollowSource,
    outlineMethod_whole result_outlineMethod_hollowSource found has_body⟩

/-- A statement that is copied is not looked into: the method is outlined although the value of an
assignment is missing. -/
theorem outlineMethod_hollowSource_missing :
    (∃ outline, (outlineMethod hollowSource "f" true).result = .ok outline) ∧
      ∃ method span whole op target missing,
        (CompilationUnit.read hollowSource).findMethod? "f" = some method ∧
          method.body = some hollowBody ∧
          .expr span (.assignment whole op target (.missing missing)) ∈ hollowBody.statements := by
  obtain ⟨method, found, has_body⟩ := Option.bind_eq_some_iff.mp body_hollowSource
  exact ⟨⟨_, result_outlineMethod_hollowSource⟩, method, _, _, _, _, _, found, has_body,
    List.mem_cons_self⟩

end JavaOutline
