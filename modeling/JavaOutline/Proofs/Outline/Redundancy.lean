import JavaOutline.Outline.Method
import JavaOutline.Proofs.Outline.Verified
import JavaOutline.Proofs.Reading.Contents

/-!
# Verification is redundant

Whatever stands in the body of a method that was read can be cut out of the source, so that
verification finds nothing to object to. What is outlined with it is outlined without it, and what
is rejected is rejected for the same reason. No reason is a mismatch, and a span is malformed only
if the tokens end where the block of a `try` or of a `finally` clause should begin.
-/

namespace JavaOutline

/-- Whether the body of a method of a source may be rejected for a reason. -/
def Rejection.IsDue (source : Source) (body : Block) : Rejection → Prop
  | .unsupported .. => True
  | .rangeMismatch .. => False
  | .malformedRange .. => ∃ span resources inner handlers cleanup missing,
    (Construct.block body).Contains (.stmt (.tries span resources inner handlers cleanup)) ∧
      (inner = missing ∨ cleanup = some missing) ∧ missing.MissingAtEnd source

namespace OutlineContext

variable {source : Source} {body : Block}

/-- Whether a value was found, or was rejected for a reason that is due. -/
def Grounded {α : Type} (source : Source) (body : Block) (value : Except Rejection α) : Prop :=
  ∀ rejection, value = .error rejection → rejection.IsDue source body

/-- Whether verification makes no difference, and a rejection is due. -/
structure Steady (source : Source) (body : Block)
    (verified unverified : Except Rejection (List Branch)) : Prop where
  /-- The outcome is the same. -/
  same : verified = unverified
  /-- A rejection is due. -/
  grounded : Grounded source body unverified

/-! ## Values -/

theorem grounded_render (context : OutlineContext) (expr : Expr) :
    Grounded source body (context.render expr) := by
  intro rejection found
  unfold render at found
  split at found
  · cases found
  · cases found
    trivial

theorem grounded_renderAll (context : OutlineContext) (exprs : List Expr) :
    Grounded source body (context.renderAll exprs) := by
  intro rejection found
  unfold renderAll at found
  split at found
  · cases found
  · cases found
    trivial

theorem grounded_expressionKind (context : OutlineContext) (expr : Expr) :
    Grounded source body (context.expressionKind expr) := by
  intro rejection found
  unfold expressionKind at found
  split at found <;> cases found
  trivial

theorem slice_eq_ok {context : OutlineContext} {span : Span}
    (cut : ∃ text, context.source.slice? span = some text) :
    ∃ text, context.slice span = .ok text := by
  obtain ⟨text, sliced⟩ := cut
  exact ⟨text, by rw [slice, sliced]⟩

theorem grounded_slice {context : OutlineContext} {span : Span}
    (cut : ∃ text, context.source.slice? span = some text) :
    Grounded source body (context.slice span) := by
  obtain ⟨text, sliced⟩ := slice_eq_ok cut
  rw [sliced]
  exact nofun

theorem slices_eq_ok {context : OutlineContext} {spans : List Span}
    (cut : ∀ span ∈ spans, ∃ text, context.source.slice? span = some text) :
    ∃ texts, spans.mapM context.slice = .ok texts := by
  induction spans with
  | nil => exact ⟨[], rfl⟩
  | cons span spans induction =>
      obtain ⟨text, sliced⟩ := slice_eq_ok (cut span List.mem_cons_self)
      obtain ⟨texts, later⟩ := induction fun other member => cut other (.tail span member)
      exact ⟨text :: texts, by rw [List.mapM_cons, sliced, later]; rfl⟩

theorem grounded_slices {context : OutlineContext} {spans : List Span}
    (cut : ∀ span ∈ spans, ∃ text, context.source.slice? span = some text) :
    Grounded source body (spans.mapM context.slice) := by
  obtain ⟨texts, sliced⟩ := slices_eq_ok cut
  rw [sliced]
  exact nofun

/-! ## Forests -/

namespace Steady

variable {verified unverified left left' right right' : Except Rejection (List Branch)}

theorem nothing : Steady source body (.ok []) (.ok []) :=
  ⟨rfl, nofun⟩

theorem rejected {rejection : Rejection} (due : rejection.IsDue source body) :
    Steady source body (.error rejection) (.error rejection) := by
  refine ⟨rfl, ?_⟩
  rintro _ ⟨⟩
  exact due

theorem bind {α : Type} {value other : Except Rejection α}
    {next next' : α → Except Rejection (List Branch)} (same_value : value = other)
    (grounded : Grounded source body value)
    (steady : ∀ found, value = .ok found → Steady source body (next found) (next' found)) :
    Steady source body (value >>= next) (other >>= next') := by
  subst same_value
  cases value with
  | error rejection => exact rejected (grounded rejection rfl)
  | ok found => exact steady found rfl

theorem beside (steady_left : Steady source body left left')
    (steady_right : Steady source body right right') :
    Steady source body (OutlineContext.beside left right)
      (OutlineContext.beside left' right') := by
  obtain ⟨rfl, grounded_left⟩ := steady_left
  obtain ⟨rfl, grounded_right⟩ := steady_right
  cases left with
  | error rejection => exact rejected (grounded_left rejection rfl)
  | ok branches =>
      cases right with
      | error rejection => exact rejected (grounded_right rejection rfl)
      | ok others => exact ⟨rfl, nofun⟩

/-- A node is not rejected if its span can be cut out and is not empty. -/
theorem branch {kind : EntityKind} {value : String} {span : Span}
    (cut : ∃ text, source.slice? span = some text)
    (honest : kind.isVerbatim = true → source.slice? span = some value)
    (spread : span.start < span.stop ∨
      (Rejection.malformedRange span source.size).IsDue source body)
    (steady : Steady source body verified unverified) :
    Steady source body ((verifying source).branch kind value span verified)
      ((trusting source).branch kind value span unverified) := by
  obtain ⟨rfl, grounded⟩ := steady
  obtain ⟨text, sliced⟩ := cut
  have same : (verifying source).entity kind value span =
      (trusting source).entity kind value span := by
    have equal : ¬(kind.isVerbatim && text ≠ value) = true := by
      simp only [Bool.and_eq_true, decide_eq_true_eq, not_and, not_not]
      intro is_verbatim
      exact Option.some.inj (sliced.symm.trans (honest is_verbatim))
    simp only [entity_eq, sliced, if_neg equal]
    rfl
  refine ⟨by rw [OutlineContext.branch, OutlineContext.branch, same], fun rejection found => ?_⟩
  rw [OutlineContext.branch, entity_eq] at found
  by_cases start_lt : span.start < span.stop
  · rw [if_pos start_lt] at found
    cases verified with
    | error other =>
        cases found
        exact grounded _ rfl
    | ok branches => cases found
  · rw [if_neg start_lt] at found
    cases found
    exact spread.resolve_left start_lt

theorem leaf {kind : EntityKind} {value : String} {span : Span}
    (cut : ∃ text, source.slice? span = some text) (start_lt : span.start < span.stop)
    (rendered : kind.isVerbatim = false) :
    Steady source body ((verifying source).leaf kind value span)
      ((trusting source).leaf kind value span) := by
  refine branch cut (fun is_verbatim => ?_) (.inl start_lt) nothing
  rw [rendered] at is_verbatim
  cases is_verbatim

theorem verbatimLeaf {kind : EntityKind} {span : Span}
    (cut : ∃ text, source.slice? span = some text) (start_lt : span.start < span.stop) :
    Steady source body ((verifying source).verbatimLeaf kind span)
      ((trusting source).verbatimLeaf kind span) := by
  refine bind rfl (grounded_slice cut) fun text found => ?_
  refine branch cut (fun _ => ?_) (.inl start_lt) nothing
  unfold slice at found
  split at found
  · next sliced =>
    cases found
    exact sliced
  · cases found

end Steady

section Statements

open Construct

variable {last : Token}

theorem exists_slice?_of_contains (stands : body.StandsIn source last) {node : Construct}
    (inside : (Construct.block body).Contains node) :
    ∃ text, source.slice? node.span = some text :=
  (stands.firm node inside).exists_slice?

/-- The text from a value to the end of its statement can be cut out, if there is a value. -/
theorem exists_slice?_of_value (stands : body.StandsIn source last) {stmt : Stmt} {expr : Expr}
    (inside : (Construct.block body).Contains (.stmt stmt)) (member : .expr expr ∈ stmt.parts)
    (not_pattern : expr.isPattern = false) (present : ∀ span, expr ≠ .missing span) :
    ∃ text, source.slice? ⟨expr.span.start, stmt.span.stop⟩ = some text := by
  have solid : (Construct.expr expr).isSolid = true := by
    unfold Construct.isSolid
    split
    · next given => exact (present _ (Construct.expr.inj given)).elim
    · next given =>
      cases given
      cases not_pattern
    · rfl
    · next other => exact (other expr rfl).elim
  have whole := stands.firm _ inside
  have part := stands.firm _ (inside.part member)
  have start_lt := part.start_lt_stop solid
  have stop_le := (whole.parts_inside _ member start_lt).2
  refine Source.exists_slice?_iff.mpr ⟨?_, part.boundary_start, whole.boundary_stop⟩
  exact Nat.le_trans (Nat.le_of_lt start_lt) stop_le

theorem grounded_tailText (stands : body.StandsIn source last) {stmt : Stmt} {expr : Expr}
    (inside : (Construct.block body).Contains (.stmt stmt)) (member : .expr expr ∈ stmt.parts)
    (not_pattern : expr.isPattern = false) (context : OutlineContext)
    (source_eq : context.source = source) :
    Grounded source body (context.tailText expr stmt.span) := by
  intro rejection found
  unfold tailText at found
  split at found
  · cases found
    trivial
  · next present =>
    have cut := exists_slice?_of_value stands inside member not_pattern present
    rw [← source_eq] at cut
    exact grounded_slice cut rejection found

theorem steady_labelForest (stands : body.StandsIn source last) (labels : List SwitchLabel)
    (inside : ∀ label ∈ labels, (Construct.block body).Contains (.label label))
    (spread : ∀ label ∈ labels, label.span.start < label.span.stop) :
    Steady source body ((verifying source).labelForest labels)
      ((trusting source).labelForest labels) := by
  induction labels with
  | nil => exact .nothing
  | cons label labels induction =>
      have later := induction (fun other member => inside other (.tail label member))
        fun other member => spread other (.tail label member)
      have cut := exists_slice?_of_contains stands (inside label List.mem_cons_self)
      have start_lt := spread label List.mem_cons_self
      cases label with
      | case span values =>
          exact .bind rfl (grounded_renderAll _ values) fun text _ =>
            .beside (.leaf cut start_lt rfl) later
      | default span => exact .beside (.leaf cut start_lt rfl) later

/-- The span over some `catch` clauses can be cut out and is not empty. -/
theorem exists_slice?_handlersSpan (stands : body.StandsIn source last) {first : Handler}
    {rest : List Handler}
    (inside : ∀ handler ∈ first :: rest, (Construct.block body).Contains (.handler handler))
    (start_lt : first.span.start < first.span.stop) :
    (∃ text, source.slice? (Builder.handlersSpan first rest) = some text) ∧
      (Builder.handlersSpan first rest).start < (Builder.handlersSpan first rest).stop := by
  have member : rest.getLast?.getD first ∈ first :: rest := by
    cases found : rest.getLast? with
    | none => exact List.mem_cons_self
    | some handler => exact List.mem_cons_of_mem first (List.mem_of_getLast? found)
  have whole := stands.firm _ (inside first List.mem_cons_self)
  have other := stands.firm _ (inside _ member)
  have cover_lt : (Builder.handlersSpan first rest).start <
      (Builder.handlersSpan first rest).stop := by
    simp only [Builder.handlersSpan, Span.cover]
    omega
  refine ⟨Source.exists_slice?_iff.mpr ⟨Nat.le_of_lt cover_lt, ?_, ?_⟩, cover_lt⟩
  · simp only [Builder.handlersSpan, Span.cover]
    rcases min_choice first.span.start (rest.getLast?.getD first).span.start with eq | eq
    · rw [eq]
      exact whole.boundary_start
    · rw [eq]
      exact other.boundary_start
  · simp only [Builder.handlersSpan, Span.cover]
    rcases max_choice first.span.stop (rest.getLast?.getD first).span.stop with eq | eq
    · rw [eq]
      exact whole.boundary_stop
    · rw [eq]
      exact other.boundary_stop

mutual

theorem steady_stmtForest (stands : body.StandsIn source last) (stmt : Stmt)
    (inside : (Construct.block body).Contains (.stmt stmt)) (spread : stmt.Spread)
    (filled : stmt.Filled last.span.stop) :
    Steady source body ((verifying source).stmtForest stmt)
      ((trusting source).stmtForest stmt) := by
  have cut := exists_slice?_of_contains stands inside
  cases stmt with
  | locals declaration => exact .verbatimLeaf cut spread
  | localType span kind name => exact .verbatimLeaf cut spread
  | expr span expr =>
      exact .bind rfl (grounded_expressionKind _ expr) fun kind _ => .verbatimLeaf cut spread
  | constructorCall span target outer arguments => exact .verbatimLeaf cut spread
  | assertion span condition message =>
      cases message with
      | none =>
          exact .bind rfl (grounded_render _ condition) fun text _ => .leaf cut spread rfl
      | some message =>
          exact .bind rfl (grounded_render _ condition) fun text _ =>
            .bind rfl (grounded_render _ message) fun note _ => .leaf cut spread rfl
  | jump span kind label => exact .leaf cut spread (by cases kind <;> rfl)
  | returns span value =>
      cases value with
      | none => exact .leaf cut spread rfl
      | some value =>
          exact .bind rfl (grounded_tailText stands inside List.mem_cons_self filled _ rfl)
            fun text _ => .leaf cut spread rfl
  | throws span value =>
      exact .bind rfl (grounded_tailText stands inside List.mem_cons_self filled _ rfl)
        fun text _ => .leaf cut spread rfl
  | conditional span condition whenTrue whenFalse =>
      have inside_true := inside.part (.tail _ List.mem_cons_self)
      cases whenFalse with
      | none =>
          exact .bind rfl (grounded_render _ condition) fun text _ =>
            .branch cut nofun (.inl spread) (.branch cut nofun (.inl spread)
              (steady_stmtForest stands whenTrue inside_true filled.1 filled.2))
      | some whenFalse =>
          have inside_false := inside.part (.tail _ (.tail _ List.mem_cons_self))
          exact .bind rfl (grounded_render _ condition) fun text _ =>
            .branch cut nofun (.inl spread) (.beside
              (.branch cut nofun (.inl spread)
                (steady_stmtForest stands whenTrue inside_true filled.1.1 filled.1.2))
              (.branch cut nofun (.inl spread)
                (steady_stmtForest stands whenFalse inside_false filled.2.1 filled.2.2)))
  | whileLoop span condition inner =>
      exact .bind rfl (grounded_render _ condition) fun text _ =>
        .branch cut nofun (.inl spread) (steady_stmtForest stands inner
          (inside.part (.tail _ List.mem_cons_self)) filled.1 filled.2)
  | doLoop span inner condition =>
      exact .bind rfl (grounded_render _ condition) fun text _ =>
        .branch cut nofun (.inl spread) (steady_stmtForest stands inner
          (inside.part List.mem_cons_self) filled.1 filled.2)
  | forLoop span init condition update inner =>
      have inside_inner : (Construct.block body).Contains (.stmt inner) :=
        inside.part (List.mem_append_right _ List.mem_cons_self)
      cases condition with
      | none =>
          exact .branch cut nofun (.inl spread)
            (steady_stmtForest stands inner inside_inner filled.1 filled.2)
      | some condition =>
          exact .bind rfl (grounded_render _ condition) fun text _ =>
            .branch cut nofun (.inl spread)
              (steady_stmtForest stands inner inside_inner filled.1 filled.2)
  | forEach span element collection inner =>
      exact .bind rfl (grounded_render _ collection) fun text _ =>
        .branch cut nofun (.inl spread) (steady_stmtForest stands inner
          (inside.part (.tail _ (.tail _ List.mem_cons_self))) filled.1 filled.2)
  | switch span selector groups =>
      exact .bind rfl (grounded_render _ selector) fun text _ =>
        .branch cut nofun (.inl spread) (steady_groupForest stands groups
          (fun group member => inside.part (.tail _ (List.mem_map_of_mem member))) filled)
  | synchronized span lock inner =>
      have inside_inner := inside.part (.tail _ List.mem_cons_self)
      obtain ⟨innerSpan, statements⟩ := inner
      exact .bind rfl (grounded_render _ lock) fun text _ =>
        .branch cut nofun (.inl spread) (steady_forest stands statements
          (fun stmt member => inside_inner.part (List.mem_map_of_mem member)) filled)
  | tries span resources inner handlers cleanup =>
      have cuts : ∀ resource ∈ resources, ∃ text, source.slice? resource = some text :=
        fun resource member => exists_slice?_of_contains stands
          (inside.part (List.mem_append_left _ (List.mem_append_left _
            (List.mem_map_of_mem member))))
      have inside_inner : (Construct.block body).Contains (.block inner) :=
        inside.part (List.mem_append_left _ (List.mem_append_right _ List.mem_cons_self))
      have inside_handlers (handler : Handler) (member : handler ∈ handlers) :
          (Construct.block body).Contains (.handler handler) :=
        inside.part (List.mem_append_left _ (List.mem_append_right _
          (.tail _ (List.mem_map_of_mem member))))
      obtain ⟨⟨spread_inner, filled_inner⟩, filled_handlers, filled_cleanup⟩ := filled
      have spread_inner := spread_inner.imp_right fun missing =>
        (⟨_, _, _, _, _, inner, inside, .inl rfl, last, stands.ended, missing⟩ :
          (Rejection.malformedRange inner.span source.size).IsDue source body)
      have cut_inner := exists_slice?_of_contains stands inside_inner
      have steady_cleanup : Steady source body ((verifying source).cleanupForest cleanup)
          ((trusting source).cleanupForest cleanup) := by
        cases cleanup with
        | none => exact .nothing
        | some final =>
            have inside_final : (Construct.block body).Contains (.block final) :=
              inside.part (List.mem_append_right _ List.mem_cons_self)
            have spread_final := filled_cleanup.1.imp_right fun missing =>
              (⟨_, _, _, _, _, final, inside, .inr rfl, last, stands.ended, missing⟩ :
                (Rejection.malformedRange final.span source.size).IsDue source body)
            have cut_final := exists_slice?_of_contains stands inside_final
            obtain ⟨finalSpan, statements⟩ := final
            exact .branch cut_final nofun spread_final (steady_forest stands statements
              (fun stmt member => inside_final.part (List.mem_map_of_mem member))
              filled_cleanup.2)
      obtain ⟨innerSpan, statements⟩ := inner
      exact .bind rfl (grounded_slices cuts) fun texts _ =>
        .branch cut nofun (.inl spread) (.beside
          (.branch cut_inner nofun spread_inner (steady_forest stands statements
            (fun stmt member => inside_inner.part (List.mem_map_of_mem member)) filled_inner))
          (.beside (steady_clauseForest stands handlers inside_handlers filled_handlers)
            steady_cleanup))
  | labeled span label inner =>
      exact .branch cut nofun (.inl spread) (steady_stmtForest stands inner
        (inside.part (.tail _ List.mem_cons_self)) filled.1 filled.2)
  | block inner =>
      have inside_inner := inside.part List.mem_cons_self
      obtain ⟨span, statements⟩ := inner
      exact steady_forest stands statements
        (fun stmt member => inside_inner.part (List.mem_map_of_mem member)) filled
  | empty span => exact .nothing
  | unparsed span => exact .rejected trivial

theorem steady_forest (stands : body.StandsIn source last) (stmts : List Stmt)
    (inside : ∀ stmt ∈ stmts, (Construct.block body).Contains (.stmt stmt))
    (filled : Stmt.AllFilled last.span.stop stmts) :
    Steady source body ((verifying source).forest stmts) ((trusting source).forest stmts) := by
  cases stmts with
  | nil => exact .nothing
  | cons stmt stmts =>
      obtain ⟨⟨spread, filled_stmt⟩, filled_later⟩ := filled
      exact .beside
        (steady_stmtForest stands stmt (inside stmt List.mem_cons_self) spread filled_stmt)
        (steady_forest stands stmts (fun other member => inside other (.tail stmt member))
          filled_later)

theorem steady_groupForest (stands : body.StandsIn source last) (groups : List SwitchGroup)
    (inside : ∀ group ∈ groups, (Construct.block body).Contains (.group group))
    (filled : SwitchGroup.AllFilled last.span.stop groups) :
    Steady source body ((verifying source).groupForest groups)
      ((trusting source).groupForest groups) := by
  cases groups with
  | nil => exact .nothing
  | cons group groups =>
      have inside_group := inside group List.mem_cons_self
      obtain ⟨span, arrow, labels, statements⟩ := group
      obtain ⟨⟨spread_labels, filled_statements⟩, filled_later⟩ := filled
      exact .beside
        (steady_labelForest stands labels (fun label member =>
          inside_group.part (List.mem_append_left _ (List.mem_map_of_mem member))) spread_labels)
        (.beside
          (steady_forest stands statements (fun stmt member =>
            inside_group.part (List.mem_append_right _ (List.mem_map_of_mem member)))
            filled_statements)
          (steady_groupForest stands groups (fun other member => inside other (.tail _ member))
            filled_later))

theorem steady_clauseForest (stands : body.StandsIn source last) (handlers : List Handler)
    (inside : ∀ handler ∈ handlers, (Construct.block body).Contains (.handler handler))
    (filled : Handler.AllFilled last.span.stop handlers) :
    Steady source body ((verifying source).clauseForest handlers)
      ((trusting source).clauseForest handlers) := by
  cases handlers with
  | nil => exact .nothing
  | cons first rest =>
      obtain ⟨filled_first, filled_rest⟩ := filled
      have start_lt : first.span.start < first.span.stop := by
        cases first
        exact filled_first.1
      obtain ⟨cut, cover_lt⟩ := exists_slice?_handlersSpan stands inside start_lt
      exact .branch cut nofun (.inl cover_lt) (.beside
        (steady_handlerForest stands first (inside first List.mem_cons_self) filled_first)
        (steady_handlersForest stands rest (fun other member => inside other (.tail first member))
          filled_rest))

theorem steady_handlerForest (stands : body.StandsIn source last) (handler : Handler)
    (inside : (Construct.block body).Contains (.handler handler))
    (filled : handler.Filled last.span.stop) :
    Steady source body ((verifying source).handlerForest handler)
      ((trusting source).handlerForest handler) := by
  have cut := exists_slice?_of_contains stands inside
  obtain ⟨span, types, name, inner⟩ := handler
  have inside_inner : (Construct.block body).Contains (.block inner) :=
    inside.part (List.mem_append_right _ List.mem_cons_self)
  obtain ⟨innerSpan, statements⟩ := inner
  exact .branch cut nofun (.inl filled.1) (steady_forest stands statements
    (fun stmt member => inside_inner.part (List.mem_map_of_mem member)) filled.2)

theorem steady_handlersForest (stands : body.StandsIn source last) (handlers : List Handler)
    (inside : ∀ handler ∈ handlers, (Construct.block body).Contains (.handler handler))
    (filled : Handler.AllFilled last.span.stop handlers) :
    Steady source body ((verifying source).handlersForest handlers)
      ((trusting source).handlersForest handlers) := by
  cases handlers with
  | nil => exact .nothing
  | cons handler handlers =>
      exact .beside
        (steady_handlerForest stands handler (inside handler List.mem_cons_self) filled.1)
        (steady_handlersForest stands handlers
          (fun other member => inside other (.tail handler member)) filled.2)

end

end Statements

/-- Verification makes no difference to the forest of the body of a method. -/
theorem steady_body {name : String} {method : Method}
    (found : (CompilationUnit.read source).findMethod? name = some method)
    (has_body : method.body = some body) :
    Steady source body ((verifying source).forest body.statements)
      ((trusting source).forest body.statements) := by
  obtain ⟨last, stands⟩ := CompilationUnit.standsIn_body found has_body
  refine steady_forest stands body.statements (fun stmt member => ?_) ?_
  · exact Construct.Contains.self.part (List.mem_map_of_mem member)
  · obtain ⟨span, statements⟩ := body
    exact stands.filled

theorem forest_eq_trusting {name : String} {method : Method}
    (found : (CompilationUnit.read source).findMethod? name = some method)
    (has_body : method.body = some body) (verify : Bool) :
    forest ⟨source, verify⟩ body.statements = (trusting source).forest body.statements := by
  cases verify with
  | true => exact (steady_body found has_body).same
  | false => rfl

end OutlineContext

/-- The outline of a method with a root and the forest of its body. -/
def Outline.ofForest (root : Entity) :
    Except Rejection (List Branch) → Except Refusal Outline
  | .ok branches => .ok ((Outline.ofRoot root).graft 0 branches)
  | .error rejection => .error (.stopped (.rejected rejection))

/-- What comes of outlining a method, by the forest of its body. -/
theorem result_outlineMethod (source : Source) (name : String) (verify : Bool) :
    (outlineMethod source name verify).result =
      match (CompilationUnit.read source).findMethod? name with
      | none => .error (.methodNotFound name)
      | some method => Outline.ofForest method.root (match method.body with
        | none => .ok []
        | some body => OutlineContext.forest ⟨source, verify⟩ body.statements) := by
  unfold outlineMethod
  simp only [readUnit]
  cases (CompilationUnit.read source).findMethod? name with
  | none => rfl
  | some method =>
      simp only [outlineBody]
      cases method.body with
      | none =>
          rw [Outline.ofForest, Outline.graft_nil]
          rfl
      | some body =>
          obtain ⟨later, ran⟩ := outlineBlock_eq_graft ⟨source, verify⟩
            (Outline.isClosed_ofRoot method.root) Nat.zero_lt_one body
            #[.read (CompilationUnit.read source).types.length source.size]
          simp only [ran]
          cases OutlineContext.forest ⟨source, verify⟩ body.statements <;> rfl

/-- A method with a body is outlined as it is without verification. -/
theorem result_outlineMethod_of_body {source : Source} {name : String} {method : Method}
    {body : Block} (found : (CompilationUnit.read source).findMethod? name = some method)
    (has_body : method.body = some body) (verify : Bool) :
    (outlineMethod source name verify).result = Outline.ofForest method.root
      ((OutlineContext.trusting source).forest body.statements) := by
  rw [result_outlineMethod, found, ← OutlineContext.forest_eq_trusting found has_body verify]
  simp only [has_body]

/-- **Verification is redundant.** A method is outlined with verification as without it. If it is
refused, then because it is not found or because its body is rejected, and never because a value
differs from the source; a span is malformed only where the tokens end before a block of a `try`. -/
theorem outlineMethod_verify_redundant (source : Source) (name : String) :
    (outlineMethod source name true).result = (outlineMethod source name false).result ∧
      ∀ verify refusal, (outlineMethod source name verify).result = .error refusal →
        refusal = .methodNotFound name ∨
          ∃ method body rejection, (CompilationUnit.read source).findMethod? name = some method ∧
            method.body = some body ∧ refusal = .stopped (.rejected rejection) ∧
              rejection.IsDue source body := by
  cases found : (CompilationUnit.read source).findMethod? name with
  | none =>
      simp only [result_outlineMethod, found, true_and]
      rintro verify refusal ⟨⟩
      exact .inl rfl
  | some method =>
      cases has_body : method.body with
      | none =>
          simp only [result_outlineMethod, found, has_body, true_and]
          exact nofun
      | some body =>
          have grounded := (OutlineContext.steady_body found has_body).grounded
          simp only [result_outlineMethod_of_body found has_body, true_and]
          intro verify refusal refused
          cases forest_eq : (OutlineContext.trusting source).forest body.statements with
          | ok branches =>
              rw [forest_eq] at refused
              cases refused
          | error rejection =>
              rw [forest_eq] at refused
              cases refused
              exact .inr ⟨method, body, rejection, rfl, has_body, rfl, grounded _ forest_eq⟩

/-- A file that ends where the block of a `try` should begin. -/
def unfinishedSource : Source := .ofString "class A\x7bvoid f()\x7btry"

theorem result_outlineMethod_unfinishedSource :
    (outlineMethod unfinishedSource "f" true).result =
      .error (.stopped (.rejected (.malformedRange ⟨20, 20⟩ 20))) := by
  decide +kernel

theorem isDue_unfinishedSource :
    ∃ method body, (CompilationUnit.read unfinishedSource).findMethod? "f" = some method ∧
      method.body = some body ∧
      (Rejection.malformedRange ⟨20, 20⟩ 20).IsDue unfinishedSource body := by
  obtain ⟨_, due⟩ := outlineMethod_verify_redundant unfinishedSource "f"
  rcases due true _ result_outlineMethod_unfinishedSource with
    absent | ⟨method, body, rejection, found, has_body, refused, is_due⟩
  · cases absent
  · cases refused
    exact ⟨method, body, found, has_body, is_due⟩

end JavaOutline
