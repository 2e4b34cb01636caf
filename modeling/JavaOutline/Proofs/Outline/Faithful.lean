import JavaOutline.Proofs.Outline.Acceptance
import JavaOutline.Proofs.Outline.Redundancy
import JavaOutline.Proofs.Reading.Citations
import JavaOutline.Proofs.Token.Lossless

/-!
# Values are faithful to the source

A value that is not put together from the parts of an expression or a header is taken from the text
under the extent of its node: the whole of it for a verbatim node, the end of it for what is
returned or thrown, the front of it for the label of a statement, a part of it for the label of a
jump, and the resources with semicolons between them for a `try`.
-/

namespace JavaOutline

/-- Whether a value is the joined text of spans of a source that are not empty, inside an extent,
and in order. -/
def Source.Joins (source : Source) (extent : Extent) (value : String) : Prop :=
  ∃ spans texts, value = "; ".intercalate texts ∧
    List.Forall₂ (fun span text => source.slice? span = some text) spans texts ∧
    (∀ span ∈ spans, span.start < span.stop ∧
      extent.first ≤ span.start ∧ span.stop ≤ extent.last + 1) ∧
    spans.Pairwise fun left right => left.stop ≤ right.start

/-- Whether the value of an entity in the outline of a body is taken from the text under its
extent, as its kind asks. -/
def Entity.Faithful (source : Source) (body : Block) (entity : Entity) : Prop :=
  (entity.kind.isVerbatim = true → source.excerpt? entity.extent = some entity.value) ∧
  match entity.kind with
  | .returnStatement =>
    ∃ text, source.excerpt? entity.extent = some text ∧ entity.value.toList <:+ text.toList ∧
      ∃ span value, (Construct.block body).Contains (.stmt (.returns span value)) ∧
        span.extent? = some entity.extent ∧ (entity.value = "" ↔ value = none)
  | .throwStatement =>
    ∃ text, source.excerpt? entity.extent = some text ∧ entity.value.toList <:+ text.toList ∧
      entity.value ≠ ""
  | .labeledStatement =>
    ∃ text, source.excerpt? entity.extent = some text ∧ entity.value.toList <+: text.toList ∧
      entity.value ≠ ""
  | .breakStatement | .continueStatement =>
    ∃ text, source.excerpt? entity.extent = some text ∧ entity.value.toList <:+: text.toList
  | .tryStatement => source.Joins entity.extent entity.value
  | _ => True

/-- What is known of the body of a method whose values are taken from a source. -/
structure Block.Quotable (source : Source) (limit : Nat) (body : Block) : Prop where
  /-- What is inside the body is sound. -/
  firm : ∀ node, (Construct.block body).Contains node → node.Firm source
  /-- The values of its `return` and `throw` statements are expressions. -/
  filled : body.Filled limit
  /-- Its labels are tokens, and its resources are not empty. -/
  cites : body.Cites (Token.scan 0 source.chars)

/-- A name that is a token of a source has the text under its span. -/
theorem Name.IsToken.standsIn {source : Source} {name : Name}
    (token : name.IsToken (Token.scan 0 source.chars)) :
    name.span.start < name.span.stop ∧ source.slice? name.span = some name.text := by
  obtain ⟨token, member, rfl⟩ := token
  have stands := (Token.tiles_scanFrom 0 source.chars).standsIn member
  exact ⟨stands.start_lt_stop, stands.slice_eq⟩

theorem CompilationUnit.quotable_body {source : Source} {name : String} {method : Method}
    {body : Block} (found : (CompilationUnit.read source).findMethod? name = some method)
    (has_body : method.body = some body) : ∃ limit, body.Quotable source limit := by
  obtain ⟨last, _, filled⟩ := CompilationUnit.filled_body found has_body
  have order := Cursor.inOrder_start (Token.inOrder_scan source)
  obtain ⟨first, after, reaches, _, read⟩ :=
    (CompilationUnit.readAfter_of_findMethod? found).exists_readFrom has_body
  have cites := Parser.cites_block ⟨source, order⟩ reaches
  rw [read] at cites
  exact ⟨last.span.stop, fun node inside => firm_of_contains found has_body inside, filled, cites⟩

namespace OutlineContext

open Branch

variable {source : Source} {body : Block} {limit : Nat}

/-- Whether the values of all entities of some branches are faithful. -/
def AllFaithful (source : Source) (body : Block) (branches : List Branch) : Prop :=
  ∀ entity ∈ entitiesOf branches, entity.Faithful source body

/-! ## The shapes of forests -/

theorem Yields.bind_of_eq {α : Type} {property : List Branch → Prop} {value : Except Rejection α}
    {rest : α → Except Rejection (List Branch)}
    (yields : ∀ found, value = .ok found → Yields property (rest found)) :
    Yields property (value >>= rest) := by
  cases value with
  | error rejection => exact rejected rejection
  | ok found => exact yields found rfl

theorem faithful_nil : Yields (AllFaithful source body) (.ok []) :=
  allEntities_nil

theorem faithful_beside {left right : Except Rejection (List Branch)}
    (faithful_left : Yields (AllFaithful source body) left)
    (faithful_right : Yields (AllFaithful source body) right) :
    Yields (AllFaithful source body) (beside left right) :=
  allEntities_beside faithful_left faithful_right

theorem faithful_branch {context : OutlineContext} {kind : EntityKind} {value : String}
    {span : Span} {children : Except Rejection (List Branch)}
    (faithful : span.start < span.stop →
      (⟨value, kind, ⟨span.start, span.stop - 1⟩⟩ : Entity).Faithful source body)
    (faithful_children : Yields (AllFaithful source body) children) :
    Yields (AllFaithful source body) (context.branch kind value span children) :=
  allEntities_branch faithful faithful_children

theorem faithful_leaf {context : OutlineContext} {kind : EntityKind} {value : String} {span : Span}
    (faithful : span.start < span.stop →
      (⟨value, kind, ⟨span.start, span.stop - 1⟩⟩ : Entity).Faithful source body) :
    Yields (AllFaithful source body) (context.leaf kind value span) :=
  faithful_branch faithful faithful_nil

theorem slice?_of_slice_eq_ok {context : OutlineContext} {span : Span} {text : String}
    (found : context.slice span = .ok text) : context.source.slice? span = some text := by
  unfold slice at found
  split at found
  · next sliced =>
    cases found
    exact sliced
  · cases found

theorem faithful_verbatimLeaf {context : OutlineContext} {kind : EntityKind} {span : Span}
    (source_eq : context.source = source) (verbatim : kind.isVerbatim = true) :
    Yields (AllFaithful source body) (context.verbatimLeaf kind span) := by
  refine .bind_of_eq fun text sliced => faithful_leaf fun start_lt => ⟨fun _ => ?_, ?_⟩
  · rw [source.excerpt?_eq_slice? start_lt, ← source_eq]
    exact slice?_of_slice_eq_ok sliced
  · cases kind <;> trivial

theorem isVerbatim_of_expressionKind {context : OutlineContext} {expr : Expr} {kind : EntityKind}
    (found : context.expressionKind expr = .ok kind) : kind.isVerbatim = true := by
  unfold expressionKind at found
  split at found <;> cases found <;> rfl

/-! ## Values -/

/-- What was cut out under some spans is their text. -/
theorem forall₂_of_slices {context : OutlineContext} {spans : List Span} {texts : List String}
    (found : spans.mapM context.slice = .ok texts) :
    List.Forall₂ (fun span text => context.source.slice? span = some text) spans texts := by
  induction spans generalizing texts with
  | nil =>
      cases found
      exact .nil
  | cons span spans induction =>
      rw [List.mapM_cons] at found
      obtain ⟨text, sliced, found⟩ := Except.exists_of_bind_eq_ok found
      obtain ⟨later, later_eq, found⟩ := Except.exists_of_bind_eq_ok found
      cases found
      exact .cons (slice?_of_slice_eq_ok sliced) (induction later_eq)

section Values

variable (quotable : body.Quotable source limit)

include quotable

theorem exists_excerpt?_of_contains {node : Construct}
    (inside : (Construct.block body).Contains node) (start_lt : node.span.start < node.span.stop) :
    ∃ text, source.slice? node.span = some text ∧
      source.excerpt? ⟨node.span.start, node.span.stop - 1⟩ = some text := by
  obtain ⟨text, sliced⟩ := (quotable.firm node inside).exists_slice?
  exact ⟨text, sliced, (source.excerpt?_eq_slice? start_lt).trans sliced⟩

/-- The text from an expression to the end of its statement is the end of the text of the statement,
and is not empty. -/
theorem isSuffix_of_tailText {context : OutlineContext} (source_eq : context.source = source)
    {stmt : Stmt} {expr : Expr} {value : String}
    (found : context.tailText expr stmt.span = .ok value)
    (inside : (Construct.block body).Contains (.stmt stmt)) (member : .expr expr ∈ stmt.parts)
    (not_pattern : expr.isPattern = false) (start_lt : stmt.span.start < stmt.span.stop) :
    value ≠ "" ∧ ∃ text, source.excerpt? ⟨stmt.span.start, stmt.span.stop - 1⟩ = some text ∧
      value.toList <:+ text.toList := by
  have present := isMissing_of_tailText found
  have solid : (Construct.expr expr).isSolid = true := by
    cases expr with
    | missing span => cases present
    | excerpt span kind =>
        cases kind with
        | pattern => cases not_pattern
        | _ => rfl
    | _ => rfl
  have sliced : source.slice? ⟨expr.span.start, stmt.span.stop⟩ = some value := by
    rw [← source_eq]
    cases expr with
    | missing span => cases present
    | _ => exact slice?_of_slice_eq_ok found
  have expr_lt := (quotable.firm _ (inside.part member)).start_lt_stop solid
  obtain ⟨start_le, stop_le⟩ := (quotable.firm _ inside).parts_inside _ member expr_lt
  obtain ⟨text, whole, excerpt_eq⟩ := exists_excerpt?_of_contains quotable inside start_lt
  constructor
  · exact Source.ne_empty_of_slice? sliced (Nat.lt_of_lt_of_le expr_lt stop_le)
  · exact ⟨text, excerpt_eq, Source.isSuffix_of_slice? sliced whole start_le rfl⟩

theorem faithful_labeled {span : Span} {label : Name} {inner : Stmt}
    (inside : (Construct.block body).Contains (.stmt (.labeled span label inner)))
    (token : label.IsToken (Token.scan 0 source.chars)) (start_eq : label.span.start = span.start)
    (start_lt : span.start < span.stop) :
    (⟨label.text, .labeledStatement, ⟨span.start, span.stop - 1⟩⟩ : Entity).Faithful
      source body := by
  obtain ⟨label_lt, sliced⟩ := token.standsIn
  have stop_le :=
    ((quotable.firm _ inside).parts_inside (.name label) List.mem_cons_self label_lt).2
  obtain ⟨text, whole, excerpt_eq⟩ := exists_excerpt?_of_contains quotable inside start_lt
  have front := Source.isPrefix_of_slice? sliced whole start_eq stop_le
  exact ⟨nofun, text, excerpt_eq, front, Source.ne_empty_of_slice? sliced label_lt⟩

theorem faithful_jump {span : Span} {kind : JumpKind} {label : Option Name}
    (inside : (Construct.block body).Contains (.stmt (.jump span kind label)))
    (cites : (Stmt.jump span kind label).Cites (Token.scan 0 source.chars))
    (start_lt : span.start < span.stop) :
    (⟨(label.map (·.text)).getD "", kind.entityKind, ⟨span.start, span.stop - 1⟩⟩ :
      Entity).Faithful source body := by
  obtain ⟨text, whole, excerpt_eq⟩ := exists_excerpt?_of_contains quotable inside start_lt
  have part : ((label.map (·.text)).getD "").toList <:+: text.toList := by
    cases label with
    | none => exact List.nil_infix
    | some label =>
        obtain ⟨label_lt, sliced⟩ := Name.IsToken.standsIn cites
        obtain ⟨start_le, stop_le⟩ :=
          (quotable.firm _ inside).parts_inside (.name label) List.mem_cons_self label_lt
        exact Source.isInfix_of_slice? sliced whole start_le stop_le
  cases kind with
  | «break» => exact ⟨nofun, text, excerpt_eq, part⟩
  | «continue» => exact ⟨nofun, text, excerpt_eq, part⟩

theorem faithful_tries {span : Span} {resources : List Span} {inner : Block}
    {handlers : List Handler} {cleanup : Option Block} {context : OutlineContext}
    {texts : List String} (source_eq : context.source = source)
    (inside : (Construct.block body).Contains
      (.stmt (.tries span resources inner handlers cleanup)))
    (spread : ∀ resource ∈ resources, resource.start < resource.stop)
    (sliced : resources.mapM context.slice = .ok texts) (start_lt : span.start < span.stop) :
    (⟨"; ".intercalate texts, .tryStatement, ⟨span.start, span.stop - 1⟩⟩ : Entity).Faithful
      source body := by
  have firm := quotable.firm _ inside
  have part (resource : Span) (member : resource ∈ resources) : Construct.excerpt resource ∈
      (Construct.stmt (.tries span resources inner handlers cleanup)).parts :=
    List.mem_append_left _ (List.mem_append_left _ (List.mem_map_of_mem member))
  refine ⟨nofun, resources, texts, rfl, source_eq ▸ forall₂_of_slices sliced, ?_, ?_⟩
  · intro resource member
    have resource_lt := spread resource member
    obtain ⟨start_le, stop_le⟩ := firm.parts_inside _ (part resource member) resource_lt
    refine ⟨resource_lt, start_le, Nat.le_trans stop_le ?_⟩
    exact Nat.le_of_eq (Nat.sub_add_cancel (Nat.zero_lt_of_lt start_lt)).symm
  · have ordered := List.pairwise_map.mp (List.pairwise_append.mp
      (List.pairwise_append.mp firm.parts_ordered).1).1
    refine ordered.imp_of_mem fun left_mem right_mem in_order => ?_
    exact in_order (spread _ left_mem) (spread _ right_mem)

end Values

/-! ## Statements -/

section Statements

open Construct

variable {context : OutlineContext}

theorem faithful_labelForest (labels : List SwitchLabel) :
    Yields (AllFaithful source body) (context.labelForest labels) := by
  induction labels with
  | nil => exact faithful_nil
  | cons label labels induction =>
      have plain (value : String) (span : Span) :
          Yields (AllFaithful source body) (context.leaf .switchCase value span) :=
        faithful_leaf fun _ => ⟨nofun, trivial⟩
      cases label with
      | case span values => exact .bind fun text => faithful_beside (plain text span) induction
      | default span => exact faithful_beside (plain "default" span) induction

mutual

theorem faithful_stmtForest (quotable : body.Quotable source limit)
    (source_eq : context.source = source) (stmt : Stmt)
    (inside : (Construct.block body).Contains (.stmt stmt)) (filled : stmt.Filled limit)
    (cites : stmt.Cites (Token.scan 0 source.chars)) :
    Yields (AllFaithful source body) (context.stmtForest stmt) := by
  cases stmt with
  | locals declaration => exact faithful_verbatimLeaf source_eq rfl
  | localType span kind name => exact faithful_verbatimLeaf source_eq rfl
  | expr span expr =>
      exact .bind_of_eq fun kind kind_eq =>
        faithful_verbatimLeaf source_eq (isVerbatim_of_expressionKind kind_eq)
  | constructorCall span target outer arguments => exact faithful_verbatimLeaf source_eq rfl
  | assertion span condition message =>
      cases message with
      | none => exact .bind fun text => faithful_leaf fun _ => ⟨nofun, trivial⟩
      | some message =>
          exact .bind fun text => .bind fun note => faithful_leaf fun _ => ⟨nofun, trivial⟩
  | jump span kind label => exact faithful_leaf (faithful_jump quotable inside cites)
  | returns span value =>
      cases value with
      | none =>
          refine faithful_leaf fun start_lt => ⟨nofun, ?_⟩
          obtain ⟨text, -, excerpt_eq⟩ := exists_excerpt?_of_contains quotable inside start_lt
          refine ⟨text, excerpt_eq, List.nil_suffix, span, none, inside, ?_, by simp⟩
          exact Span.extent?_eq_some_iff.mpr ⟨start_lt, rfl⟩
      | some value =>
          refine .bind_of_eq fun tail tail_eq => faithful_leaf fun start_lt => ⟨nofun, ?_⟩
          obtain ⟨nonempty, text, excerpt_eq, suffix⟩ := isSuffix_of_tailText quotable source_eq
            tail_eq inside List.mem_cons_self filled start_lt
          refine ⟨text, excerpt_eq, suffix, span, some value, inside, ?_, by simp [nonempty]⟩
          exact Span.extent?_eq_some_iff.mpr ⟨start_lt, rfl⟩
  | throws span value =>
      refine .bind_of_eq fun tail tail_eq => faithful_leaf fun start_lt => ⟨nofun, ?_⟩
      obtain ⟨nonempty, text, excerpt_eq, suffix⟩ := isSuffix_of_tailText quotable source_eq
        tail_eq inside List.mem_cons_self filled start_lt
      exact ⟨text, excerpt_eq, suffix, nonempty⟩
  | conditional span condition whenTrue whenFalse =>
      have inside_true := inside.part (.tail _ List.mem_cons_self)
      cases whenFalse with
      | none =>
          have faithful_true := faithful_stmtForest quotable source_eq whenTrue inside_true
            filled.2 cites
          exact .bind fun text => faithful_branch (fun _ => ⟨nofun, trivial⟩)
            (faithful_branch (fun _ => ⟨nofun, trivial⟩) faithful_true)
      | some whenFalse =>
          have inside_false := inside.part (.tail _ (.tail _ List.mem_cons_self))
          have faithful_true := faithful_stmtForest quotable source_eq whenTrue inside_true
            filled.1.2 cites.1
          have faithful_false := faithful_stmtForest quotable source_eq whenFalse inside_false
            filled.2.2 cites.2
          exact .bind fun text => faithful_branch (fun _ => ⟨nofun, trivial⟩) (faithful_beside
            (faithful_branch (fun _ => ⟨nofun, trivial⟩) faithful_true)
            (faithful_branch (fun _ => ⟨nofun, trivial⟩) faithful_false))
  | whileLoop span condition inner =>
      have faithful_inner := faithful_stmtForest quotable source_eq inner
        (inside.part (.tail _ List.mem_cons_self)) filled.2 cites
      exact .bind fun text => faithful_branch (fun _ => ⟨nofun, trivial⟩) faithful_inner
  | doLoop span inner condition =>
      have faithful_inner := faithful_stmtForest quotable source_eq inner
        (inside.part List.mem_cons_self) filled.2 cites
      exact .bind fun text => faithful_branch (fun _ => ⟨nofun, trivial⟩) faithful_inner
  | forLoop span init condition update inner =>
      have faithful_inner := faithful_stmtForest quotable source_eq inner
        (inside.part (List.mem_append_right _ List.mem_cons_self)) filled.2 cites
      cases condition with
      | none => exact faithful_branch (fun _ => ⟨nofun, trivial⟩) faithful_inner
      | some condition =>
          exact .bind fun text => faithful_branch (fun _ => ⟨nofun, trivial⟩) faithful_inner
  | forEach span element collection inner =>
      have faithful_inner := faithful_stmtForest quotable source_eq inner
        (inside.part (.tail _ (.tail _ List.mem_cons_self))) filled.2 cites
      exact .bind fun text => faithful_branch (fun _ => ⟨nofun, trivial⟩) faithful_inner
  | switch span selector groups =>
      have faithful_groups := faithful_groupForest quotable source_eq groups
        (fun group member => inside.part (.tail _ (List.mem_map_of_mem member))) filled cites
      exact .bind fun text => faithful_branch (fun _ => ⟨nofun, trivial⟩) faithful_groups
  | synchronized span lock inner =>
      have inside_inner := inside.part (.tail _ List.mem_cons_self)
      obtain ⟨innerSpan, statements⟩ := inner
      have faithful_inner := faithful_forest quotable source_eq statements
        (fun stmt member => inside_inner.part (List.mem_map_of_mem member)) filled cites
      exact .bind fun text => faithful_branch (fun _ => ⟨nofun, trivial⟩) faithful_inner
  | tries span resources inner handlers cleanup =>
      have inside_inner : (Construct.block body).Contains (.block inner) :=
        inside.part (List.mem_append_left _ (List.mem_append_right _ List.mem_cons_self))
      have faithful_handlers := faithful_clauseForest quotable source_eq handlers
        (fun handler member => inside.part (List.mem_append_left _ (List.mem_append_right _
          (.tail _ (List.mem_map_of_mem member))))) filled.2.1 cites.2.2.1
      have faithful_cleanup := faithful_cleanupForest quotable source_eq cleanup
        (fun final final_eq => inside.part (List.mem_append_right _
          (by rw [final_eq]; exact List.mem_cons_self))) filled.2.2 cites.2.2.2
      obtain ⟨innerSpan, statements⟩ := inner
      have faithful_inner := faithful_forest quotable source_eq statements
        (fun stmt member => inside_inner.part (List.mem_map_of_mem member)) filled.1.2 cites.2.1
      have faithful_body : Yields (AllFaithful source body)
          (context.branch .tryBody "" innerSpan (context.forest statements)) :=
        faithful_branch (fun _ => ⟨nofun, trivial⟩) faithful_inner
      exact .bind_of_eq fun texts sliced =>
        faithful_branch (faithful_tries quotable source_eq inside cites.1 sliced)
          (faithful_beside faithful_body (faithful_beside faithful_handlers faithful_cleanup))
  | labeled span label inner =>
      have faithful_inner := faithful_stmtForest quotable source_eq inner
        (inside.part (.tail _ List.mem_cons_self)) filled.2 cites.2.2
      exact faithful_branch (faithful_labeled quotable inside cites.1 cites.2.1) faithful_inner
  | block inner =>
      have inside_inner := inside.part List.mem_cons_self
      obtain ⟨span, statements⟩ := inner
      exact faithful_forest quotable source_eq statements
        (fun stmt member => inside_inner.part (List.mem_map_of_mem member)) filled cites
  | empty span => exact faithful_nil
  | unparsed span => exact .rejected _

theorem faithful_forest (quotable : body.Quotable source limit)
    (source_eq : context.source = source) (stmts : List Stmt)
    (inside : ∀ stmt ∈ stmts, (Construct.block body).Contains (.stmt stmt))
    (filled : Stmt.AllFilled limit stmts)
    (cites : Stmt.AllCite (Token.scan 0 source.chars) stmts) :
    Yields (AllFaithful source body) (context.forest stmts) := by
  cases stmts with
  | nil => exact faithful_nil
  | cons stmt stmts =>
      exact faithful_beside
        (faithful_stmtForest quotable source_eq stmt (inside stmt List.mem_cons_self)
          filled.1.2 cites.1)
        (faithful_forest quotable source_eq stmts
          (fun other member => inside other (.tail stmt member)) filled.2 cites.2)

theorem faithful_groupForest (quotable : body.Quotable source limit)
    (source_eq : context.source = source) (groups : List SwitchGroup)
    (inside : ∀ group ∈ groups, (Construct.block body).Contains (.group group))
    (filled : SwitchGroup.AllFilled limit groups)
    (cites : SwitchGroup.AllCite (Token.scan 0 source.chars) groups) :
    Yields (AllFaithful source body) (context.groupForest groups) := by
  cases groups with
  | nil => exact faithful_nil
  | cons group groups =>
      have inside_group := inside group List.mem_cons_self
      have later := faithful_groupForest quotable source_eq groups
        (fun other member => inside other (.tail group member)) filled.2 cites.2
      obtain ⟨span, arrow, labels, statements⟩ := group
      have faithful_statements := faithful_forest quotable source_eq statements
        (fun stmt member => inside_group.part (List.mem_append_right _
          (List.mem_map_of_mem member))) filled.1.2 cites.1
      exact faithful_beside (faithful_labelForest labels)
        (faithful_beside faithful_statements later)

theorem faithful_clauseForest (quotable : body.Quotable source limit)
    (source_eq : context.source = source) (handlers : List Handler)
    (inside : ∀ handler ∈ handlers, (Construct.block body).Contains (.handler handler))
    (filled : Handler.AllFilled limit handlers)
    (cites : Handler.AllCite (Token.scan 0 source.chars) handlers) :
    Yields (AllFaithful source body) (context.clauseForest handlers) := by
  cases handlers with
  | nil => exact faithful_nil
  | cons first rest =>
      exact faithful_branch (fun _ => ⟨nofun, trivial⟩) (faithful_beside
        (faithful_handlerForest quotable source_eq first (inside first List.mem_cons_self)
          filled.1 cites.1)
        (faithful_handlersForest quotable source_eq rest
          (fun other member => inside other (.tail first member)) filled.2 cites.2))

theorem faithful_handlerForest (quotable : body.Quotable source limit)
    (source_eq : context.source = source) (handler : Handler)
    (inside : (Construct.block body).Contains (.handler handler)) (filled : handler.Filled limit)
    (cites : handler.Cites (Token.scan 0 source.chars)) :
    Yields (AllFaithful source body) (context.handlerForest handler) := by
  obtain ⟨span, types, name, ⟨innerSpan, statements⟩⟩ := handler
  have inside_inner := inside.part (List.mem_append_right _ List.mem_cons_self)
  exact faithful_branch (fun _ => ⟨nofun, trivial⟩) (faithful_forest quotable source_eq statements
    (fun stmt member => inside_inner.part (List.mem_map_of_mem member)) filled.2 cites)

theorem faithful_handlersForest (quotable : body.Quotable source limit)
    (source_eq : context.source = source) (handlers : List Handler)
    (inside : ∀ handler ∈ handlers, (Construct.block body).Contains (.handler handler))
    (filled : Handler.AllFilled limit handlers)
    (cites : Handler.AllCite (Token.scan 0 source.chars) handlers) :
    Yields (AllFaithful source body) (context.handlersForest handlers) := by
  cases handlers with
  | nil => exact faithful_nil
  | cons handler handlers =>
      exact faithful_beside
        (faithful_handlerForest quotable source_eq handler (inside handler List.mem_cons_self)
          filled.1 cites.1)
        (faithful_handlersForest quotable source_eq handlers
          (fun other member => inside other (.tail handler member)) filled.2 cites.2)

theorem faithful_cleanupForest (quotable : body.Quotable source limit)
    (source_eq : context.source = source) (cleanup : Option Block)
    (inside : ∀ final, cleanup = some final → (Construct.block body).Contains (.block final))
    (filled : Block.CleanupFilled limit cleanup)
    (cites : Block.CleanupCites (Token.scan 0 source.chars) cleanup) :
    Yields (AllFaithful source body) (context.cleanupForest cleanup) := by
  cases cleanup with
  | none => exact faithful_nil
  | some final =>
      have inside_final := inside final rfl
      obtain ⟨span, statements⟩ := final
      exact faithful_branch (fun _ => ⟨nofun, trivial⟩) (faithful_forest quotable source_eq
        statements (fun stmt member => inside_final.part (List.mem_map_of_mem member)) filled.2
        cites)

end

end Statements

end OutlineContext

/-- **Values are faithful to the source.** Every node of the outline of a method, but for the root,
stands in the body of the method and has the value that the text under its extent gives. -/
theorem outlineMethod_faithful {source : Source} {name : String} {verify : Bool} {outline : Outline}
    (outlined : (outlineMethod source name verify).result = .ok outline) :
    ∃ method, (CompilationUnit.read source).findMethod? name = some method ∧
      ∀ id node, outline.get? id = some node → id = 0 ∧ node.entity = method.root ∨
        ∃ body, method.body = some body ∧ node.entity.Faithful source body := by
  obtain ⟨method, branches, found, rfl, grown⟩ := exists_of_outlineMethod_eq_ok outlined
  refine ⟨method, found, fun id node node_eq => ?_⟩
  cases id with
  | zero =>
      rw [Outline.get?_graft_ofRoot] at node_eq
      cases node_eq
      exact .inl ⟨rfl, rfl⟩
  | succ i =>
      right
      have member := Outline.entity_mem_of_get?_graft (Nat.le_add_left 1 i) node_eq
      cases has_body : method.body with
      | none =>
          rw [has_body] at grown
          rw [grown] at member
          cases member
      | some body =>
          rw [has_body] at grown
          obtain ⟨limit, quotable⟩ := CompilationUnit.quotable_body found has_body
          refine ⟨body, rfl, ?_⟩
          obtain ⟨span, statements⟩ := body
          exact OutlineContext.faithful_forest quotable rfl statements
            (fun stmt member => .part .self (List.mem_map_of_mem member)) quotable.filled
            quotable.cites branches grown _ member

/-- A file with a method that has two resources and a label. -/
def citingSource : Source :=
  .ofString "class A\x7bint f()\x7btry(r;s)\x7bl:break l;\x7d\x7d\x7d"

/-- The outline of its method. -/
def citingOutline : Outline :=
  ⟨#[⟨⟨"f", .method, ⟨8, 36⟩⟩, none, 0, #[1]⟩,
    ⟨⟨"r; s", .tryStatement, ⟨16, 35⟩⟩, some 0, 0, #[2]⟩,
    ⟨⟨"", .tryBody, ⟨24, 35⟩⟩, some 1, 0, #[3]⟩,
    ⟨⟨"l", .labeledStatement, ⟨25, 34⟩⟩, some 2, 0, #[4]⟩,
    ⟨⟨"l", .breakStatement, ⟨27, 34⟩⟩, some 3, 0, #[]⟩]⟩

theorem result_outlineMethod_citingSource :
    (outlineMethod citingSource "f" true).result = .ok citingOutline := by
  decide +kernel

theorem faithful_citingOutline :
    (outlineMethod citingSource "f" true).result = .ok citingOutline ∧
      ∃ method, (CompilationUnit.read citingSource).findMethod? "f" = some method ∧
        ∀ id node, citingOutline.get? id = some node → id = 0 ∧ node.entity = method.root ∨
          ∃ body, method.body = some body ∧ node.entity.Faithful citingSource body :=
  ⟨result_outlineMethod_citingSource, outlineMethod_faithful result_outlineMethod_citingSource⟩

end JavaOutline
