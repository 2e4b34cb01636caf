import JavaOutline.Proofs.Outline.Acceptance
import JavaOutline.Proofs.Outline.Redundancy

/-!
# Which bodies are outlined

A method with a body is outlined exactly if every statement in the body, at any depth, is acceptable
by itself: it was parsed, an expression that stands as a statement is of a kind that may, nothing is
missing where it is rendered, what it returns or throws is there, and its `try` and `finally` blocks
are not empty. Nothing else can fail: whatever was read can be cut out of the source.
-/

namespace JavaOutline

/-- Whether an expression may stand as a statement. -/
def Expr.MakesStatement : Expr → Prop
  | .assignment .. | .unary _ .increment _ | .unary _ .decrement _ | .update .. | .creation ..
  | .innerCreation .. | .call .. | .memberCall .. => True
  | _ => False

/-- Whether nothing is missing in the values of the labels of a group. -/
def SwitchGroup.HasWholeLabels : SwitchGroup → Prop
  | .mk _ _ labels _ => ∀ span values, .case span values ∈ labels → Expr.AllWhole values

/-- Whether a statement can be outlined, as far as the statements inside it can. -/
def Stmt.IsAcceptable : Stmt → Prop
  | .unparsed _ => False
  | .expr _ value => value.MakesStatement
  | .conditional _ value _ _ | .whileLoop _ value _ | .doLoop _ _ value | .forEach _ _ value _
  | .synchronized _ value _ => value.IsWhole
  | .forLoop _ _ condition _ _ => Expr.AllWhole condition.toList
  | .switch _ selector groups => selector.IsWhole ∧ ∀ group ∈ groups, group.HasWholeLabels
  | .assertion _ condition message => condition.IsWhole ∧ Expr.AllWhole message.toList
  | .returns _ value => ∀ found ∈ value, found.isMissing = false
  | .throws _ value => value.isMissing = false
  | .tries _ _ body _ cleanup =>
    body.span.start < body.span.stop ∧ ∀ final ∈ cleanup, final.span.start < final.span.stop
  | .locals .. | .localType .. | .constructorCall .. | .jump .. | .labeled .. | .block ..
  | .empty .. => True

namespace Construct

/-- Whether all statements that a construct is or has inside are acceptable. -/
def IsAccepted (node : Construct) : Prop :=
  ∀ stmt, node.Contains (.stmt stmt) → stmt.IsAcceptable

theorem Contains.of_part {node part other : Construct} (member : part ∈ node.parts)
    (inside : part.Contains other) : node.Contains other := by
  induction inside with
  | self => exact .part .self member
  | part _ member induction => exact .part induction member

theorem Contains.eq_or_exists {node other : Construct} (inside : node.Contains other) :
    other = node ∨ ∃ part ∈ node.parts, part.Contains other := by
  induction inside with
  | self => exact .inl rfl
  | @part middle other _ member induction =>
      rcases induction with rfl | ⟨part, part_mem, inside⟩
      · exact .inr ⟨other, member, .self⟩
      · exact .inr ⟨part, part_mem, .part inside member⟩

theorem isAccepted_iff {node : Construct} : node.IsAccepted ↔
    (∀ stmt, node = .stmt stmt → stmt.IsAcceptable) ∧ ∀ part ∈ node.parts, part.IsAccepted := by
  constructor
  · intro accepted
    refine ⟨?_, fun part member stmt inside => accepted stmt (.of_part member inside)⟩
    rintro stmt rfl
    exact accepted stmt .self
  · rintro ⟨itself, parts⟩ stmt inside
    rcases inside.eq_or_exists with node_eq | ⟨part, member, inside⟩
    · exact itself stmt node_eq.symm
    · exact parts part member stmt inside

/-- Whether a construct is none that has statements inside. -/
def isPhrase : Construct → Bool
  | .parameter _ | .typeRef _ | .name _ | .variables _ | .declarator _ | .label _ | .expr _
  | .excerpt _ => true
  | _ => false

theorem isPhrase_of_mem_parts {node part : Construct} (phrase : node.isPhrase = true)
    (member : part ∈ node.parts) : part.isPhrase = true := by
  have phrases : node.parts.all isPhrase = true := by
    match node with
    | .parameter _ | .typeRef _ | .name _ | .excerpt _ => rfl
    | .variables _ => simp [parts, Variables.parts, isPhrase]
    | .declarator _ => simp [parts, isPhrase]
    | .label found => cases found <;> simp [parts, isPhrase]
    | .expr found => cases found <;> simp [parts, Expr.parts, isPhrase]
  exact List.all_eq_true.mp phrases part member

/-- There are no statements in an expression. -/
theorem isAccepted_of_isPhrase {node : Construct} (phrase : node.isPhrase = true) :
    node.IsAccepted := by
  have inside_phrase {other : Construct} (inside : node.Contains other) :
      other.isPhrase = true := by
    induction inside with
    | self => exact phrase
    | part _ member induction => exact isPhrase_of_mem_parts induction member
  intro stmt inside
  cases inside_phrase inside

@[simp] theorem isAccepted_expr (expr : Expr) : (Construct.expr expr).IsAccepted :=
  isAccepted_of_isPhrase rfl

@[simp] theorem isAccepted_typeRef (type : TypeRef) : (Construct.typeRef type).IsAccepted :=
  isAccepted_of_isPhrase rfl

@[simp] theorem isAccepted_name (name : Name) : (Construct.name name).IsAccepted :=
  isAccepted_of_isPhrase rfl

@[simp] theorem isAccepted_parameter (parameter : Parameter) :
    (Construct.parameter parameter).IsAccepted :=
  isAccepted_of_isPhrase rfl

@[simp] theorem isAccepted_variables (declaration : Variables) :
    (Construct.variables declaration).IsAccepted :=
  isAccepted_of_isPhrase rfl

@[simp] theorem isAccepted_declarator (declarator : Declarator) :
    (Construct.declarator declarator).IsAccepted :=
  isAccepted_of_isPhrase rfl

@[simp] theorem isAccepted_label (label : SwitchLabel) : (Construct.label label).IsAccepted :=
  isAccepted_of_isPhrase rfl

@[simp] theorem isAccepted_excerpt (span : Span) : (Construct.excerpt span).IsAccepted :=
  isAccepted_of_isPhrase rfl

section

variable {stmt : Stmt} {block : Block}

theorem isAccepted_stmt_iff : (Construct.stmt stmt).IsAccepted ↔
    stmt.IsAcceptable ∧ ∀ part ∈ stmt.parts, part.IsAccepted := by
  rw [isAccepted_iff]
  constructor
  · rintro ⟨itself, parts⟩
    exact ⟨itself stmt rfl, parts⟩
  · rintro ⟨itself, parts⟩
    refine ⟨?_, parts⟩
    rintro _ ⟨rfl⟩
    exact itself

/-- Whether all statements of a list, and those inside them, are acceptable. -/
def AllAccepted (stmts : List Stmt) : Prop :=
  ∀ stmt ∈ stmts, (Construct.stmt stmt).IsAccepted

theorem isAccepted_block_iff :
    (Construct.block block).IsAccepted ↔ AllAccepted block.statements := by
  rw [isAccepted_iff]
  simp [parts, AllAccepted]

theorem isAccepted_handler_iff {span : Span} {types : List TypeRef} {name : String} :
    (Construct.handler (.mk span types name block)).IsAccepted ↔
      (Construct.block block).IsAccepted := by
  rw [isAccepted_iff]
  simp [parts, or_imp, forall_and]

theorem isAccepted_group_iff {span : Span} {arrow : Bool} {labels : List SwitchLabel}
    {stmts : List Stmt} :
    (Construct.group (.mk span arrow labels stmts)).IsAccepted ↔ AllAccepted stmts := by
  rw [isAccepted_iff]
  simp [parts, AllAccepted, or_imp, forall_and]

end

end Construct

theorem Except.exists_bind_eq_ok {ε α β : Type} {value : Except ε α} {next : α → Except ε β}
    (first : ∃ found, value = .ok found) (later : ∀ found, ∃ result, next found = .ok result) :
    ∃ result, value >>= next = .ok result := by
  obtain ⟨found, rfl⟩ := first
  exact later found

namespace OutlineContext

/-- Whether a value was found. -/
def Found {α : Type} (value : Except Rejection α) : Prop :=
  ∃ found, value = .ok found

section Found

variable {source : Source} {left right children : Except Rejection (List Branch)}

theorem found_ok {α : Type} {value : α} : Found (.ok value) :=
  ⟨value, rfl⟩

theorem found_bind_iff {α β : Type} {value : Except Rejection α} {next : α → Except Rejection β}
    {later : Prop} (each : ∀ found, value = .ok found → (Found (next found) ↔ later)) :
    Found (value >>= next) ↔ Found value ∧ later := by
  cases value with
  | error rejection =>
      constructor
      · rintro ⟨_, ⟨⟩⟩
      · rintro ⟨⟨_, ⟨⟩⟩, _⟩
  | ok found =>
      change Found (next found) ↔ _
      rw [each found rfl]
      exact (and_iff_right found_ok).symm

theorem found_beside_iff : Found (beside left right) ↔ Found left ∧ Found right := by
  constructor
  · rintro ⟨branches, found⟩
    obtain ⟨first, second, first_eq, second_eq, -⟩ := exists_of_beside_eq_ok found
    exact ⟨⟨first, first_eq⟩, ⟨second, second_eq⟩⟩
  · rintro ⟨⟨first, rfl⟩, second, rfl⟩
    exact found_ok

/-- Without verification, a node is rejected only if its span is empty. -/
theorem found_branch_iff {kind : EntityKind} {value : String} {span : Span} :
    Found ((trusting source).branch kind value span children) ↔
      span.start < span.stop ∧ Found children := by
  constructor
  · rintro ⟨branches, found⟩
    obtain ⟨start_lt, inner, children_eq, -⟩ := eq_of_branch_eq_ok found
    exact ⟨start_lt, inner, children_eq⟩
  · rintro ⟨start_lt, inner, rfl⟩
    rw [branch, entity_eq, if_pos start_lt]
    exact found_ok

theorem found_leaf_iff {kind : EntityKind} {value : String} {span : Span} :
    Found ((trusting source).leaf kind value span) ↔ span.start < span.stop :=
  found_branch_iff.trans (and_iff_left found_ok)

/-- What is above the children of a node does not matter, if its span is not empty. -/
theorem found_branch_iff_of_lt {kind : EntityKind} {value : String} {span : Span}
    (start_lt : span.start < span.stop) :
    Found ((trusting source).branch kind value span children) ↔ Found children :=
  found_branch_iff.trans (and_iff_right start_lt)

/-- A leaf is found if its value is, if its span is not empty. -/
theorem found_bind_leaf_iff {α : Type} {value : Except Rejection α} {kind : EntityKind}
    {text : α → String} {span : Span} (start_lt : span.start < span.stop) :
    Found (value >>= fun found => (trusting source).leaf kind (text found) span) ↔ Found value :=
  (found_bind_iff fun _ _ => found_leaf_iff).trans (and_iff_left start_lt)

theorem found_expressionKind_iff {context : OutlineContext} {expr : Expr} :
    Found (context.expressionKind expr) ↔ expr.MakesStatement := by
  cases expr with
  | unary span op operand =>
      cases op with
      | increment | decrement => exact iff_of_true found_ok trivial
      | _ => exact iff_of_false (by rintro ⟨_, ⟨⟩⟩) id
  | assignment | update | creation | innerCreation | call | memberCall =>
      exact iff_of_true found_ok trivial
  | _ => exact iff_of_false (by rintro ⟨_, ⟨⟩⟩) id

end Found

section Statements

variable {source : Source} {body : Block} {last : Token}

theorem exists_copy (stands : body.StandsIn source last) {expr : Expr}
    (inside : (Construct.block body).Contains (.expr expr)) :
    ∃ text, expr.copy source = .ok text := by
  obtain ⟨text, sliced⟩ := exists_slice?_of_contains stands inside
  change source.slice? expr.span = some text at sliced
  exact ⟨text, by rw [Expr.copy, sliced]⟩

mutual

/-- An expression in a body is rendered, if nothing is missing where rendering looks. -/
theorem exists_render (stands : body.StandsIn source last) {expr : Expr}
    (inside : (Construct.block body).Contains (.expr expr)) (whole : expr.IsWhole) :
    ∃ text, expr.render source = .ok text := by
  cases expr with
  | name | literal | this | super => exact ⟨_, rfl⟩
  | missing => exact whole.elim
  | excerpt => exact exists_copy stands inside
  | fieldAccess _ operand | unary _ _ operand | update _ _ operand | instanceOf _ operand
  | parenthesized _ operand =>
      have inside_operand := inside.part List.mem_cons_self
      exact Except.exists_bind_eq_ok (exists_render stands inside_operand whole) fun _ => ⟨_, rfl⟩
  | cast _ type operand =>
      have inside_operand := inside.part (.tail _ List.mem_cons_self)
      exact Except.exists_bind_eq_ok (exists_render stands inside_operand whole) fun _ => ⟨_, rfl⟩
  | arrayAccess _ left right | binary _ _ left right | assignment _ _ left right =>
      have inside_left := inside.part List.mem_cons_self
      have inside_right := inside.part (.tail _ List.mem_cons_self)
      exact Except.exists_bind_eq_ok (exists_render stands inside_left whole.1) fun _ =>
        Except.exists_bind_eq_ok (exists_render stands inside_right whole.2) fun _ => ⟨_, rfl⟩
  | conditional _ condition whenTrue whenFalse =>
      have inside_condition := inside.part List.mem_cons_self
      have inside_true := inside.part (.tail _ List.mem_cons_self)
      have inside_false := inside.part (.tail _ (.tail _ List.mem_cons_self))
      exact Except.exists_bind_eq_ok (exists_render stands inside_condition whole.1) fun _ =>
        Except.exists_bind_eq_ok (exists_render stands inside_true whole.2.1) fun _ =>
          Except.exists_bind_eq_ok (exists_render stands inside_false whole.2.2) fun _ => ⟨_, rfl⟩
  | call _ method arguments =>
      have inside_arguments (argument : Expr) (member : argument ∈ arguments) :
          (Construct.block body).Contains (.expr argument) :=
        inside.part (.tail _ (List.mem_map_of_mem member))
      exact Except.exists_bind_eq_ok (exists_renderAll stands inside_arguments whole)
        fun _ => ⟨_, rfl⟩
  | memberCall _ receiver method arguments =>
      have inside_arguments (argument : Expr) (member : argument ∈ arguments) :
          (Construct.block body).Contains (.expr argument) :=
        inside.part (.tail _ (.tail _ (List.mem_map_of_mem member)))
      have inside_receiver := inside.part List.mem_cons_self
      exact Except.exists_bind_eq_ok (exists_render stands inside_receiver whole.1) fun _ =>
        Except.exists_bind_eq_ok (exists_renderAll stands inside_arguments whole.2)
          fun _ => ⟨_, rfl⟩
  | creation span type arguments inner =>
      cases inner with
      | some inner => exact exists_copy stands inside
      | none =>
          have inside_arguments (argument : Expr) (member : argument ∈ arguments) :
              (Construct.block body).Contains (.expr argument) :=
            inside.part (List.mem_append_left _ (.tail _ (List.mem_map_of_mem member)))
          have whole := whole.resolve_left Bool.false_ne_true
          exact Except.exists_bind_eq_ok (exists_renderAll stands inside_arguments whole)
            fun _ => ⟨_, rfl⟩
  | innerCreation span outer type arguments inner =>
      cases inner with
      | some inner => exact exists_copy stands inside
      | none =>
          have inside_arguments (argument : Expr) (member : argument ∈ arguments) :
              (Construct.block body).Contains (.expr argument) :=
            inside.part (List.mem_append_left _ (.tail _ (.tail _ (List.mem_map_of_mem member))))
          have whole := whole.resolve_left Bool.false_ne_true
          have inside_outer := inside.part List.mem_cons_self
          exact Except.exists_bind_eq_ok (exists_render stands inside_outer whole.1) fun _ =>
            Except.exists_bind_eq_ok (exists_renderAll stands inside_arguments whole.2)
              fun _ => ⟨_, rfl⟩

/-- Expressions in a body are rendered, if nothing is missing where rendering looks. -/
theorem exists_renderAll (stands : body.StandsIn source last) {exprs : List Expr}
    (inside : ∀ expr ∈ exprs, (Construct.block body).Contains (.expr expr))
    (whole : Expr.AllWhole exprs) : ∃ texts, Expr.renderAll source exprs = .ok texts := by
  cases exprs with
  | nil => exact ⟨[], rfl⟩
  | cons expr exprs =>
      obtain ⟨text, text_eq⟩ := exists_render stands (inside expr List.mem_cons_self) whole.1
      obtain ⟨texts, texts_eq⟩ := exists_renderAll stands
        (fun other member => inside other (.tail expr member)) whole.2
      exact ⟨text :: texts, by rw [Expr.renderAll, text_eq, texts_eq]; rfl⟩

end

theorem found_render_iff (stands : body.StandsIn source last) {expr : Expr}
    (inside : (Construct.block body).Contains (.expr expr)) :
    Found ((trusting source).render expr) ↔ expr.IsWhole := by
  constructor
  · rintro ⟨text, rendered⟩
    exact isWhole_of_render rendered
  · intro whole
    obtain ⟨text, rendered⟩ := exists_render stands inside whole
    exact ⟨text, by rw [render, show (trusting source).source = source from rfl, rendered]⟩

theorem found_renderAll_iff (stands : body.StandsIn source last) {exprs : List Expr}
    (inside : ∀ expr ∈ exprs, (Construct.block body).Contains (.expr expr)) :
    Found ((trusting source).renderAll exprs) ↔ Expr.AllWhole exprs := by
  constructor
  · rintro ⟨text, rendered⟩
    exact allWhole_of_renderAll rendered
  · intro whole
    obtain ⟨texts, rendered⟩ := exists_renderAll stands inside whole
    exact ⟨_, by rw [renderAll, show (trusting source).source = source from rfl, rendered]⟩

theorem found_tailText_iff (stands : body.StandsIn source last) {stmt : Stmt} {expr : Expr}
    (inside : (Construct.block body).Contains (.stmt stmt)) (member : .expr expr ∈ stmt.parts)
    (not_pattern : expr.isPattern = false) :
    Found ((trusting source).tailText expr stmt.span) ↔ expr.isMissing = false := by
  constructor
  · rintro ⟨text, found⟩
    exact isMissing_of_tailText found
  · intro present
    have present : ∀ span, expr ≠ .missing span := by
      rintro span rfl
      cases present
    have cut : ∃ text, (trusting source).source.slice? ⟨expr.span.start, stmt.span.stop⟩ =
        some text := exists_slice?_of_value stands inside member not_pattern present
    unfold tailText
    split
    · exact absurd rfl (present _)
    · exact slice_eq_ok cut

theorem found_verbatimLeaf {kind : EntityKind} {span : Span}
    (cut : ∃ text, source.slice? span = some text) (start_lt : span.start < span.stop) :
    Found ((trusting source).verbatimLeaf kind span) :=
  Except.exists_bind_eq_ok (slice_eq_ok cut) fun _ => found_leaf_iff.mpr start_lt

theorem found_labelForest_iff (stands : body.StandsIn source last) {labels : List SwitchLabel}
    (inside : ∀ label ∈ labels, (Construct.block body).Contains (.label label))
    (spread : ∀ label ∈ labels, label.span.start < label.span.stop) :
    Found ((trusting source).labelForest labels) ↔
      ∀ span values, .case span values ∈ labels → Expr.AllWhole values := by
  induction labels with
  | nil => exact iff_of_true found_ok nofun
  | cons label labels induction =>
      have later := induction (fun other member => inside other (.tail label member))
        fun other member => spread other (.tail label member)
      have start_lt := spread label List.mem_cons_self
      cases label with
      | case span values =>
          have inside_values (value : Expr) (member : value ∈ values) :
              (Construct.block body).Contains (.expr value) :=
            (inside _ List.mem_cons_self).part (List.mem_map_of_mem member)
          have whole : Found ((trusting source).labelForest (.case span values :: labels)) ↔
              Found ((trusting source).renderAll values) ∧
                Found ((trusting source).labelForest labels) :=
            found_bind_iff fun _ _ =>
              found_beside_iff.trans (and_iff_right (found_leaf_iff.mpr start_lt))
          rw [whole, found_renderAll_iff stands inside_values, later]
          simp [or_imp, forall_and]
      | default span =>
          have whole : Found ((trusting source).labelForest (.default span :: labels)) ↔
              Found ((trusting source).labelForest labels) :=
            found_beside_iff.trans (and_iff_right (found_leaf_iff.mpr start_lt))
          rw [whole, later]
          simp

open Construct (AllAccepted isAccepted_stmt_iff isAccepted_block_iff isAccepted_handler_iff
  isAccepted_group_iff)

mutual

theorem found_stmtForest_iff (stands : body.StandsIn source last) (stmt : Stmt)
    (inside : (Construct.block body).Contains (.stmt stmt)) (spread : stmt.Spread)
    (filled : stmt.Filled last.span.stop) :
    Found ((trusting source).stmtForest stmt) ↔ (Construct.stmt stmt).IsAccepted := by
  have cut := exists_slice?_of_contains stands inside
  rw [isAccepted_stmt_iff]
  cases stmt with
  | locals declaration =>
      refine iff_of_true (found_verbatimLeaf cut spread) ⟨trivial, ?_⟩
      simp [Stmt.parts, Variables.parts]
  | localType span kind name =>
      exact iff_of_true (found_verbatimLeaf cut spread) ⟨trivial, nofun⟩
  | constructorCall span target outer arguments =>
      refine iff_of_true (found_verbatimLeaf cut spread) ⟨trivial, ?_⟩
      simp [Stmt.parts, or_imp, forall_and]
  | expr span value =>
      have whole : Found ((trusting source).stmtForest (.expr span value)) ↔
          Found ((trusting source).expressionKind value) ∧ True :=
        found_bind_iff fun _ _ => iff_of_true (found_verbatimLeaf cut spread) trivial
      rw [whole, found_expressionKind_iff, and_true]
      simp [Stmt.IsAcceptable, Stmt.parts]
  | assertion span condition message =>
      have inside_condition := inside.part List.mem_cons_self
      cases message with
      | none =>
          have whole : Found ((trusting source).stmtForest (.assertion span condition none)) ↔
              Found ((trusting source).render condition) := found_bind_leaf_iff spread
          rw [whole, found_render_iff stands inside_condition]
          simp [Stmt.IsAcceptable, Stmt.parts, Expr.AllWhole]
      | some message =>
          have inside_message := inside.part (.tail _ List.mem_cons_self)
          have whole :
              Found ((trusting source).stmtForest (.assertion span condition (some message))) ↔
                Found ((trusting source).render condition) ∧
                  Found ((trusting source).render message) :=
            found_bind_iff fun _ _ => found_bind_leaf_iff spread
          rw [whole, found_render_iff stands inside_condition,
            found_render_iff stands inside_message]
          simp [Stmt.IsAcceptable, Stmt.parts, Expr.AllWhole]
  | jump span kind label =>
      refine iff_of_true (found_leaf_iff.mpr spread) ⟨trivial, ?_⟩
      simp [Stmt.parts]
  | returns span value =>
      cases value with
      | none =>
          exact iff_of_true (found_leaf_iff.mpr spread) ⟨nofun, nofun⟩
      | some value =>
          have whole : Found ((trusting source).stmtForest (.returns span (some value))) ↔
              value.isMissing = false :=
            (found_bind_leaf_iff spread).trans
              (found_tailText_iff stands inside List.mem_cons_self filled)
          rw [whole]
          simp [Stmt.IsAcceptable, Stmt.parts]
  | throws span value =>
      have whole : Found ((trusting source).stmtForest (.throws span value)) ↔
          value.isMissing = false :=
        (found_bind_leaf_iff spread).trans
          (found_tailText_iff stands inside List.mem_cons_self filled)
      rw [whole]
      simp [Stmt.IsAcceptable, Stmt.parts]
  | conditional span condition whenTrue whenFalse =>
      have inside_condition := inside.part List.mem_cons_self
      have inside_true := inside.part (.tail _ List.mem_cons_self)
      cases whenFalse with
      | none =>
          have whole :
              Found ((trusting source).stmtForest (.conditional span condition whenTrue none)) ↔
                Found ((trusting source).render condition) ∧
                  Found ((trusting source).stmtForest whenTrue) :=
            found_bind_iff fun _ _ =>
              (found_branch_iff_of_lt spread).trans (found_branch_iff_of_lt spread)
          rw [whole, found_render_iff stands inside_condition,
            found_stmtForest_iff stands whenTrue inside_true filled.1 filled.2]
          simp [Stmt.IsAcceptable, Stmt.parts]
      | some whenFalse =>
          have inside_false := inside.part (.tail _ (.tail _ List.mem_cons_self))
          have whole : Found ((trusting source).stmtForest
              (.conditional span condition whenTrue (some whenFalse))) ↔
                Found ((trusting source).render condition) ∧
                  Found ((trusting source).stmtForest whenTrue) ∧
                    Found ((trusting source).stmtForest whenFalse) :=
            found_bind_iff fun _ _ => (found_branch_iff_of_lt spread).trans
              (found_beside_iff.trans
                (and_congr (found_branch_iff_of_lt spread) (found_branch_iff_of_lt spread)))
          rw [whole, found_render_iff stands inside_condition,
            found_stmtForest_iff stands whenTrue inside_true filled.1.1 filled.1.2,
            found_stmtForest_iff stands whenFalse inside_false filled.2.1 filled.2.2]
          simp [Stmt.IsAcceptable, Stmt.parts]
  | whileLoop span condition inner =>
      have inside_condition := inside.part List.mem_cons_self
      have inside_inner := inside.part (.tail _ List.mem_cons_self)
      have whole : Found ((trusting source).stmtForest (.whileLoop span condition inner)) ↔
          Found ((trusting source).render condition) ∧ Found ((trusting source).stmtForest inner) :=
        found_bind_iff fun _ _ => found_branch_iff_of_lt spread
      rw [whole, found_render_iff stands inside_condition,
        found_stmtForest_iff stands inner inside_inner filled.1 filled.2]
      simp [Stmt.IsAcceptable, Stmt.parts]
  | doLoop span inner condition =>
      have inside_inner := inside.part List.mem_cons_self
      have inside_condition := inside.part (.tail _ List.mem_cons_self)
      have whole : Found ((trusting source).stmtForest (.doLoop span inner condition)) ↔
          Found ((trusting source).render condition) ∧ Found ((trusting source).stmtForest inner) :=
        found_bind_iff fun _ _ => found_branch_iff_of_lt spread
      rw [whole, found_render_iff stands inside_condition,
        found_stmtForest_iff stands inner inside_inner filled.1 filled.2]
      simp [Stmt.IsAcceptable, Stmt.parts]
  | forLoop span init condition update inner =>
      have inside_inner : (Construct.block body).Contains (.stmt inner) :=
        inside.part (List.mem_append_right _ List.mem_cons_self)
      have inner_iff := found_stmtForest_iff stands inner inside_inner filled.1 filled.2
      have init_accepted : (∀ part ∈ init.parts, part.IsAccepted) ↔ True := by
        cases init <;> simp [ForInit.parts]
      cases condition with
      | none =>
          have whole :
              Found ((trusting source).stmtForest (.forLoop span init none update inner)) ↔
                Found ((trusting source).stmtForest inner) :=
            found_branch_iff_of_lt spread
          rw [whole, inner_iff]
          simp [Stmt.IsAcceptable, Stmt.parts, Expr.AllWhole, or_imp, forall_and, init_accepted]
      | some condition =>
          have inside_condition : (Construct.block body).Contains (.expr condition) :=
            inside.part (by simp [Construct.parts, Stmt.parts])
          have whole : Found ((trusting source).stmtForest
              (.forLoop span init (some condition) update inner)) ↔
                Found ((trusting source).render condition) ∧
                  Found ((trusting source).stmtForest inner) :=
            found_bind_iff fun _ _ => found_branch_iff_of_lt spread
          rw [whole, found_render_iff stands inside_condition, inner_iff]
          simp [Stmt.IsAcceptable, Stmt.parts, Expr.AllWhole, or_imp, forall_and, init_accepted]
  | forEach span element collection inner =>
      have inside_collection := inside.part (.tail _ List.mem_cons_self)
      have inside_inner := inside.part (.tail _ (.tail _ List.mem_cons_self))
      have whole :
          Found ((trusting source).stmtForest (.forEach span element collection inner)) ↔
            Found ((trusting source).render collection) ∧
              Found ((trusting source).stmtForest inner) :=
        found_bind_iff fun _ _ => found_branch_iff_of_lt spread
      rw [whole, found_render_iff stands inside_collection,
        found_stmtForest_iff stands inner inside_inner filled.1 filled.2]
      simp [Stmt.IsAcceptable, Stmt.parts]
  | switch span selector groups =>
      have inside_selector := inside.part List.mem_cons_self
      have inside_groups (group : SwitchGroup) (member : group ∈ groups) :
          (Construct.block body).Contains (.group group) :=
        inside.part (.tail _ (List.mem_map_of_mem member))
      have whole : Found ((trusting source).stmtForest (.switch span selector groups)) ↔
          Found ((trusting source).render selector) ∧
            Found ((trusting source).groupForest groups) :=
        found_bind_iff fun _ _ => found_branch_iff_of_lt spread
      rw [whole, found_render_iff stands inside_selector,
        found_groupForest_iff stands groups inside_groups filled]
      simp [Stmt.IsAcceptable, Stmt.parts, and_assoc, forall_and]
  | synchronized span lock inner =>
      have inside_lock := inside.part List.mem_cons_self
      have inside_inner := inside.part (.tail _ List.mem_cons_self)
      obtain ⟨innerSpan, statements⟩ := inner
      have inside_statements (stmt : Stmt) (member : stmt ∈ statements) :=
        inside_inner.part (List.mem_map_of_mem member)
      have whole : Found ((trusting source).stmtForest
          (.synchronized span lock (.mk innerSpan statements))) ↔
            Found ((trusting source).render lock) ∧ Found ((trusting source).forest statements) :=
        found_bind_iff fun _ _ => found_branch_iff_of_lt spread
      rw [whole, found_render_iff stands inside_lock,
        found_forest_iff stands statements inside_statements filled]
      simp [Stmt.IsAcceptable, Stmt.parts, isAccepted_block_iff, Block.statements]
  | tries span resources inner handlers cleanup =>
      have cuts : ∀ resource ∈ resources, ∃ text, source.slice? resource = some text :=
        fun resource member => exists_slice?_of_contains stands
          (inside.part (List.mem_append_left _ (List.mem_append_left _
            (List.mem_map_of_mem member))))
      have inside_inner : (Construct.block body).Contains (.block inner) :=
        inside.part (List.mem_append_left _ (List.mem_append_right _ List.mem_cons_self))
      have inside_handlers (handler : Handler) (member : handler ∈ handlers) :
          (Construct.block body).Contains (.handler handler) :=
        inside.part (List.mem_append_left _ (List.mem_append_right _
          (.tail _ (List.mem_map_of_mem member))))
      have inside_cleanup (final : Block) (member : final ∈ cleanup) :
          (Construct.block body).Contains (.block final) :=
        inside.part (List.mem_append_right _ (by simpa using member))
      obtain ⟨⟨-, filled_inner⟩, filled_handlers, filled_cleanup⟩ := filled
      obtain ⟨innerSpan, statements⟩ := inner
      have inside_statements (stmt : Stmt) (member : stmt ∈ statements) :=
        inside_inner.part (List.mem_map_of_mem member)
      have whole : Found ((trusting source).stmtForest
          (.tries span resources (.mk innerSpan statements) handlers cleanup)) ↔
            (innerSpan.start < innerSpan.stop ∧ Found ((trusting source).forest statements)) ∧
              Found ((trusting source).clauseForest handlers) ∧
                Found ((trusting source).cleanupForest cleanup) :=
        (found_bind_iff fun _ _ => (found_branch_iff_of_lt spread).trans
          (found_beside_iff.trans (and_congr found_branch_iff found_beside_iff))).trans
          (and_iff_right (slices_eq_ok cuts))
      rw [whole, found_forest_iff stands statements inside_statements filled_inner,
        found_clauseForest_iff stands handlers inside_handlers filled_handlers,
        found_cleanupForest_iff stands cleanup inside_cleanup filled_cleanup]
      have parts_iff : (∀ part ∈ (Stmt.tries span resources (.mk innerSpan statements) handlers
          cleanup).parts, part.IsAccepted) ↔ AllAccepted statements ∧
            (∀ handler ∈ handlers, (Construct.handler handler).IsAccepted) ∧
              ∀ final ∈ cleanup, (Construct.block final).IsAccepted := by
        simp [Stmt.parts, isAccepted_block_iff, Block.statements, or_imp, forall_and]
      rw [parts_iff]
      constructor
      · rintro ⟨⟨start_lt, accepted⟩, handlers_accepted, cleanup_accepted⟩
        exact ⟨⟨start_lt, fun final member => (cleanup_accepted final member).1⟩, accepted,
          handlers_accepted, fun final member => (cleanup_accepted final member).2⟩
      · rintro ⟨⟨start_lt, cleanup_lt⟩, accepted, handlers_accepted, cleanup_accepted⟩
        exact ⟨⟨start_lt, accepted⟩, handlers_accepted,
          fun final member => ⟨cleanup_lt final member, cleanup_accepted final member⟩⟩
  | labeled span label inner =>
      have inside_inner := inside.part (.tail _ List.mem_cons_self)
      have whole : Found ((trusting source).stmtForest (.labeled span label inner)) ↔
          Found ((trusting source).stmtForest inner) :=
        found_branch_iff_of_lt spread
      rw [whole, found_stmtForest_iff stands inner inside_inner filled.1 filled.2]
      simp [Stmt.IsAcceptable, Stmt.parts]
  | block inner =>
      have inside_inner := inside.part List.mem_cons_self
      obtain ⟨innerSpan, statements⟩ := inner
      have inside_statements (stmt : Stmt) (member : stmt ∈ statements) :=
        inside_inner.part (List.mem_map_of_mem member)
      have whole : Found ((trusting source).stmtForest (.block (.mk innerSpan statements))) ↔
          AllAccepted statements := found_forest_iff stands statements inside_statements filled
      rw [whole]
      simp [Stmt.IsAcceptable, Stmt.parts, isAccepted_block_iff, Block.statements]
  | empty span => exact iff_of_true found_ok ⟨trivial, nofun⟩
  | unparsed span => exact iff_of_false (by rintro ⟨_, ⟨⟩⟩) fun accepted => accepted.1

theorem found_forest_iff (stands : body.StandsIn source last) (stmts : List Stmt)
    (inside : ∀ stmt ∈ stmts, (Construct.block body).Contains (.stmt stmt))
    (filled : Stmt.AllFilled last.span.stop stmts) :
    Found ((trusting source).forest stmts) ↔ AllAccepted stmts := by
  cases stmts with
  | nil => exact iff_of_true found_ok nofun
  | cons stmt stmts =>
      obtain ⟨⟨spread, filled_stmt⟩, filled_later⟩ := filled
      have whole : Found ((trusting source).forest (stmt :: stmts)) ↔
          Found ((trusting source).stmtForest stmt) ∧ Found ((trusting source).forest stmts) :=
        found_beside_iff
      rw [whole, found_stmtForest_iff stands stmt (inside stmt List.mem_cons_self) spread
        filled_stmt, found_forest_iff stands stmts
        (fun other member => inside other (.tail stmt member)) filled_later]
      simp [AllAccepted]

theorem found_groupForest_iff (stands : body.StandsIn source last) (groups : List SwitchGroup)
    (inside : ∀ group ∈ groups, (Construct.block body).Contains (.group group))
    (filled : SwitchGroup.AllFilled last.span.stop groups) :
    Found ((trusting source).groupForest groups) ↔
      ∀ group ∈ groups, group.HasWholeLabels ∧ (Construct.group group).IsAccepted := by
  cases groups with
  | nil => exact iff_of_true found_ok nofun
  | cons group groups =>
      have inside_group := inside group List.mem_cons_self
      obtain ⟨span, arrow, labels, statements⟩ := group
      obtain ⟨⟨spread_labels, filled_statements⟩, filled_later⟩ := filled
      have inside_labels (label : SwitchLabel) (member : label ∈ labels) :
          (Construct.block body).Contains (.label label) :=
        inside_group.part (List.mem_append_left _ (List.mem_map_of_mem member))
      have inside_statements (stmt : Stmt) (member : stmt ∈ statements) :
          (Construct.block body).Contains (.stmt stmt) :=
        inside_group.part (List.mem_append_right _ (List.mem_map_of_mem member))
      have whole :
          Found ((trusting source).groupForest (.mk span arrow labels statements :: groups)) ↔
            Found ((trusting source).labelForest labels) ∧
              Found ((trusting source).forest statements) ∧
                Found ((trusting source).groupForest groups) :=
        found_beside_iff.trans (and_congr_right fun _ => found_beside_iff)
      rw [whole, found_labelForest_iff stands inside_labels spread_labels,
        found_forest_iff stands statements inside_statements filled_statements,
        found_groupForest_iff stands groups (fun other member => inside other (.tail _ member))
          filled_later, List.forall_mem_cons, isAccepted_group_iff, and_assoc]
      rfl

theorem found_clauseForest_iff (stands : body.StandsIn source last) (handlers : List Handler)
    (inside : ∀ handler ∈ handlers, (Construct.block body).Contains (.handler handler))
    (filled : Handler.AllFilled last.span.stop handlers) :
    Found ((trusting source).clauseForest handlers) ↔
      ∀ handler ∈ handlers, (Construct.handler handler).IsAccepted := by
  cases handlers with
  | nil => exact iff_of_true found_ok nofun
  | cons first rest =>
      obtain ⟨filled_first, filled_rest⟩ := filled
      have start_lt : first.span.start < first.span.stop := by
        cases first
        exact filled_first.1
      obtain ⟨-, cover_lt⟩ := exists_slice?_handlersSpan stands inside start_lt
      have whole : Found ((trusting source).clauseForest (first :: rest)) ↔
          Found ((trusting source).handlerForest first) ∧
            Found ((trusting source).handlersForest rest) :=
        (found_branch_iff_of_lt cover_lt).trans found_beside_iff
      have inside_first := inside first List.mem_cons_self
      have inside_rest (other : Handler) (member : other ∈ rest) :=
        inside other (.tail first member)
      rw [whole, found_handlerForest_iff stands first inside_first filled_first,
        found_handlersForest_iff stands rest inside_rest filled_rest, List.forall_mem_cons]

theorem found_handlerForest_iff (stands : body.StandsIn source last) (handler : Handler)
    (inside : (Construct.block body).Contains (.handler handler))
    (filled : handler.Filled last.span.stop) :
    Found ((trusting source).handlerForest handler) ↔
      (Construct.handler handler).IsAccepted := by
  obtain ⟨span, types, name, inner⟩ := handler
  have inside_inner : (Construct.block body).Contains (.block inner) :=
    inside.part (List.mem_append_right _ List.mem_cons_self)
  obtain ⟨innerSpan, statements⟩ := inner
  have inside_statements (stmt : Stmt) (member : stmt ∈ statements) :=
    inside_inner.part (List.mem_map_of_mem member)
  rw [isAccepted_handler_iff, isAccepted_block_iff]
  exact (found_branch_iff_of_lt filled.1).trans
    (found_forest_iff stands statements inside_statements filled.2)

theorem found_handlersForest_iff (stands : body.StandsIn source last) (handlers : List Handler)
    (inside : ∀ handler ∈ handlers, (Construct.block body).Contains (.handler handler))
    (filled : Handler.AllFilled last.span.stop handlers) :
    Found ((trusting source).handlersForest handlers) ↔
      ∀ handler ∈ handlers, (Construct.handler handler).IsAccepted := by
  cases handlers with
  | nil => exact iff_of_true found_ok nofun
  | cons handler handlers =>
      have whole : Found ((trusting source).handlersForest (handler :: handlers)) ↔
          Found ((trusting source).handlerForest handler) ∧
            Found ((trusting source).handlersForest handlers) := found_beside_iff
      have inside_first := inside handler List.mem_cons_self
      have inside_rest (other : Handler) (member : other ∈ handlers) :=
        inside other (.tail handler member)
      rw [whole, found_handlerForest_iff stands handler inside_first filled.1,
        found_handlersForest_iff stands handlers inside_rest filled.2, List.forall_mem_cons]

theorem found_cleanupForest_iff (stands : body.StandsIn source last) (cleanup : Option Block)
    (inside : ∀ final ∈ cleanup, (Construct.block body).Contains (.block final))
    (filled : Block.CleanupFilled last.span.stop cleanup) :
    Found ((trusting source).cleanupForest cleanup) ↔ ∀ final ∈ cleanup,
      final.span.start < final.span.stop ∧ (Construct.block final).IsAccepted := by
  cases cleanup with
  | none => exact iff_of_true found_ok nofun
  | some final =>
      have inside_final := inside final rfl
      obtain ⟨span, statements⟩ := final
      have inside_statements (stmt : Stmt) (member : stmt ∈ statements) :=
        inside_final.part (List.mem_map_of_mem member)
      have whole : Found ((trusting source).cleanupForest (some (.mk span statements))) ↔
          span.start < span.stop ∧ Found ((trusting source).forest statements) :=
        found_branch_iff
      rw [whole, found_forest_iff stands statements inside_statements filled.2]
      simp [isAccepted_block_iff, Block.statements, Block.span]

end

end Statements

end OutlineContext

/-- **Which bodies are outlined.** A method with a body is outlined exactly if every statement
inside the body is acceptable. -/
theorem outlineMethod_ok_iff {source : Source} {name : String} {method : Method} {body : Block}
    (found : (CompilationUnit.read source).findMethod? name = some method)
    (has_body : method.body = some body) (verify : Bool) :
    (∃ outline, (outlineMethod source name verify).result = .ok outline) ↔
      ∀ stmt, (Construct.block body).Contains (.stmt stmt) → stmt.IsAcceptable := by
  obtain ⟨last, stands⟩ := CompilationUnit.standsIn_body found has_body
  have inside (stmt : Stmt) (member : stmt ∈ body.statements) :
      (Construct.block body).Contains (.stmt stmt) :=
    .part .self (List.mem_map_of_mem member)
  have filled : Stmt.AllFilled last.span.stop body.statements := by
    obtain ⟨span, statements⟩ := body
    exact stands.filled
  have forest_iff := OutlineContext.found_forest_iff stands body.statements inside filled
  calc (∃ outline, (outlineMethod source name verify).result = .ok outline)
      ↔ OutlineContext.Found ((OutlineContext.trusting source).forest body.statements) := by
        rw [result_outlineMethod_of_body found has_body]
        cases (OutlineContext.trusting source).forest body.statements with
        | ok branches => exact iff_of_true ⟨_, rfl⟩ ⟨_, rfl⟩
        | error rejection =>
            constructor
            · rintro ⟨_, ⟨⟩⟩
            · rintro ⟨_, ⟨⟩⟩
    _ ↔ (Construct.block body).IsAccepted := forest_iff.trans Construct.isAccepted_block_iff.symm

/-- An assignment of nothing is acceptable: it is copied and not rendered. -/
theorem outlineMethod_ok_iff_hollowSource :
    (∃ method, (CompilationUnit.read hollowSource).findMethod? "f" = some method ∧
        method.body = some hollowBody) ∧
      ((∃ outline, (outlineMethod hollowSource "f" true).result = .ok outline) ↔
        ∀ stmt, (Construct.block hollowBody).Contains (.stmt stmt) → stmt.IsAcceptable) := by
  obtain ⟨method, found, has_body⟩ := Option.bind_eq_some_iff.mp body_hollowSource
  exact ⟨⟨method, found, has_body⟩, outlineMethod_ok_iff found has_body true⟩

end JavaOutline
