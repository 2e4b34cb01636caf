import JavaOutline.Proofs.Outline.Faithful
import JavaOutline.Proofs.Outline.ShownTokens
import JavaOutline.Proofs.Reading.Heads

/-!
# Values keep the tokens of expressions

The values of the nodes of `if`, `while`, `do`, `for`, `switch`, `synchronized` and `assert` show
expressions of their statements. The tokens under the span of such an expression are those of one of
its readings, and its text scans into those of them that the reading shows, parentheses apart.
-/

namespace JavaOutline

/-! ## Tokens in a span -/

/-- The tokens of a source that stand in a span. -/
def Source.tokensIn (source : Source) (span : Span) : List Token :=
  (Token.scan 0 source.chars).filter fun token =>
    span.start ≤ token.span.start && token.span.stop ≤ span.stop

/-- The tokens of a source behind a span. -/
def Source.tokensBehind (source : Source) (span : Span) : List Token :=
  (Token.scan 0 source.chars).filter (span.stop ≤ ·.span.start)

namespace Cursor

variable {source : Source} {before after first last : Cursor} {tokens : List Token}

/-- Tokens that were read stand between the places. -/
theorem InOrder.between (order : before.InOrder source) (reaches : before.Reaches after)
    (rest_eq : before.rest = tokens ++ after.rest) : ∀ token ∈ tokens,
      before.here ≤ token.span.start ∧ token.span.start < token.span.stop ∧
        token.span.stop ≤ after.behind := by
  induction reaches generalizing tokens with
  | refl =>
      obtain rfl := List.self_eq_append_left.mp rest_eq
      exact nofun
  | @tail cursor reaches induction =>
      have order' := order.reaches reaches
      have here_le := order.here_le reaches
      have behind_le := order'.behind_le_behind_tail
      obtain ⟨rest, behind⟩ := cursor
      cases rest with
      | nil => exact induction rest_eq
      | cons next rest =>
          obtain ⟨front, front_eq, -⟩ := reaches.exists_append
          have tokens_eq : tokens = front ++ [next] := by
            have joined : tokens ++ rest = front ++ [next] ++ rest := by
              rw [List.append_assoc]
              exact rest_eq.symm.trans front_eq
            exact List.append_cancel_right joined
          intro token member
          rw [tokens_eq] at member
          rcases List.mem_append.mp member with member | member
          · obtain ⟨start_le, start_lt, stop_le⟩ := induction front_eq token member
            exact ⟨start_le, start_lt, stop_le.trans behind_le⟩
          · obtain rfl := List.mem_singleton.mp member
            exact ⟨here_le, order'.order.2.1, Nat.le_refl _⟩

/-- The tokens between two places are those in the span from the one to the other. -/
theorem tokensIn_eq (reaches : (start (Token.scan 0 source.chars)).Reaches first)
    (leads : first.Reaches last) (rest_eq : first.rest = tokens ++ last.rest) :
    source.tokensIn ⟨first.here, last.behind⟩ = tokens := by
  have order_start := inOrder_start (Token.inOrder_scan source)
  have order := order_start.reaches reaches
  obtain ⟨front, scan_eq, -⟩ := reaches.exists_append
  have earlier := order_start.between reaches scan_eq
  have inside := order.between leads rest_eq
  have later := (order.reaches leads).order
  have front_eq : front.filter (fun token =>
      first.here ≤ token.span.start && token.span.stop ≤ last.behind) = [] := by
    refine List.filter_eq_nil_iff.mpr fun token member => ?_
    obtain ⟨-, start_lt, stop_le⟩ := earlier token member
    have := order.behind_le_here
    simp only [Bool.and_eq_true, decide_eq_true_eq]
    omega
  have tokens_eq : tokens.filter (fun token =>
      first.here ≤ token.span.start && token.span.stop ≤ last.behind) = tokens := by
    refine List.filter_eq_self.mpr fun token member => ?_
    obtain ⟨start_le, -, stop_le⟩ := inside token member
    simp only [Bool.and_eq_true, decide_eq_true_eq]
    omega
  have rest_eq' : last.rest.filter (fun token =>
      first.here ≤ token.span.start && token.span.stop ≤ last.behind) = [] := by
    refine List.filter_eq_nil_iff.mpr fun token member => ?_
    have start_le := later.le_start member
    have start_lt := later.start_lt_stop member
    simp only [Bool.and_eq_true, decide_eq_true_eq]
    omega
  change (Token.scan 0 source.chars).filter _ = tokens
  have scan_eq : Token.scan 0 source.chars = front ++ first.rest := scan_eq
  rw [scan_eq, rest_eq, List.filter_append, List.filter_append, front_eq, tokens_eq, rest_eq',
    List.nil_append, List.append_nil]

/-- The tokens behind a place are those behind a span that ends there. -/
theorem tokensBehind_eq {span : Span} (reaches : (start (Token.scan 0 source.chars)).Reaches last)
    (ends : span.stop = last.behind) : source.tokensBehind span = last.rest := by
  have order_start := inOrder_start (Token.inOrder_scan source)
  have order := order_start.reaches reaches
  obtain ⟨front, scan_eq, -⟩ := reaches.exists_append
  have earlier := order_start.between reaches scan_eq
  have front_eq : front.filter (span.stop ≤ ·.span.start) = [] := by
    refine List.filter_eq_nil_iff.mpr fun token member => ?_
    obtain ⟨-, start_lt, stop_le⟩ := earlier token member
    rw [decide_eq_true_eq]
    omega
  have rest_eq : last.rest.filter (span.stop ≤ ·.span.start) = last.rest := by
    refine List.filter_eq_self.mpr fun token member => ?_
    have start_le := order.order.le_start member
    have := order.behind_le_here
    rw [decide_eq_true_eq]
    omega
  have scan_eq : Token.scan 0 source.chars = front ++ last.rest := scan_eq
  rw [Source.tokensBehind, scan_eq, List.filter_append, front_eq, rest_eq, List.nil_append]

end Cursor

/-! ## Expressions -/

/-- Whether a text is the rendering of an expression that was read from a source and keeps its
tokens. -/
structure Expr.IsShown (source : Source) (expr : Expr) (text : String) : Prop where
  /-- The text is the rendering. -/
  rendered : expr.render source = .ok text
  /-- The tokens in the span of the expression have the fates of one of its readings, in front of
  the tokens behind it. -/
  read : ∃ fates ∈ expr.reading, Fate.tokens fates = source.tokensIn expr.span ∧
    Fate.Before fates (source.tokensBehind expr.span)
  /-- If they have the fates of a reading that loses none of them, the text scans into what is shown
  of them, parentheses apart, as long as no two tokens that are shown next to each other become one
  and some token stands behind the expression. -/
  shown : ∀ fates ∈ expr.reading, Fate.tokens fates = source.tokensIn expr.span →
    Fate.Whole fates → Fate.Spaced fates → source.tokensBehind expr.span ≠ [] →
      unparen ((Token.scan 0 text.toList).map (·.text)) = unparen (Fate.texts fates)

theorem Expr.IsReadFrom.isShown {source : Source} {expr : Expr} {text : String}
    (read : expr.IsReadFrom (.start (Token.scan 0 source.chars)))
    (rendered : expr.render source = .ok text) : expr.IsShown source text := by
  rcases read with missing |
    ⟨first, last, reaches, ⟨leads, fates, member, rest_eq, before⟩, span_eq, -⟩
  · rw [missing] at rendered
    cases rendered
  have tokens_eq := Cursor.tokensIn_eq reaches leads rest_eq
  have behind_eq := Cursor.tokensBehind_eq (reaches.trans leads) (congrArg Span.stop span_eq)
  rw [← span_eq] at tokens_eq
  refine ⟨rendered, ⟨fates, member, tokens_eq.symm, behind_eq ▸ before⟩,
    fun others others_mem same _ spaced behind => ?_⟩
  obtain ⟨front, scan_eq, -⟩ := reaches.exists_append
  refine Expr.unparen_scan_render rendered others_mem
    ⟨spaced, front, last.rest, ?_, fun ends => absurd (behind_eq.trans ends) behind⟩ 0
  rw [same, tokens_eq, List.append_assoc, ← rest_eq]
  exact scan_eq

/-! ## Nodes -/

/-- Whether the value of a node of a kind shows expressions in the head of its statement. -/
def EntityKind.showsHead : EntityKind → Bool
  | .ifStatement | .forStatement | .foreachStatement | .whileStatement | .doStatement
  | .switchStatement | .synchronizedStatement | .assertStatement => true
  | _ => false

/-- The kind of the node whose value shows the expressions in the head of a statement. -/
def Stmt.headKind? : Stmt → Option EntityKind
  | .assertion .. => some .assertStatement
  | .conditional .. => some .ifStatement
  | .whileLoop .. => some .whileStatement
  | .doLoop .. => some .doStatement
  | .forLoop .. => some .forStatement
  | .forEach .. => some .foreachStatement
  | .switch .. => some .switchStatement
  | .synchronized .. => some .synchronizedStatement
  | _ => none

/-- Whether a value is put together from the texts of the expressions in the head of a statement. -/
def Stmt.ShowsHead (shown : Expr → String → Prop) (value : String) : Stmt → Prop
  | .conditional _ head _ _ | .whileLoop _ head _ | .doLoop _ _ head | .forLoop _ _ (some head) _ _
  | .switch _ head _ | .synchronized _ head _ | .assertion _ head none => shown head value
  | .forLoop _ _ none _ _ => value = ""
  | .forEach _ element collection _ => ∃ text, shown collection text ∧
    value = element.type.text ++ " " ++ element.name.text ++ ":" ++ text
  | .assertion _ condition (some message) => ∃ text note, shown condition text ∧
    shown message note ∧ value = text ++ ":" ++ note
  | _ => False

theorem Stmt.ShowsHead.mono {shown later : Expr → String → Prop} {value : String} {stmt : Stmt}
    (le : ∀ expr text, shown expr text → later expr text) (shows : stmt.ShowsHead shown value) :
    stmt.ShowsHead later value := by
  cases stmt with
  | assertion span condition message =>
      cases message with
      | none => exact le _ _ shows
      | some message =>
          obtain ⟨text, note, text_shown, note_shown, value_eq⟩ := shows
          exact ⟨text, note, le _ _ text_shown, le _ _ note_shown, value_eq⟩
  | forLoop span init condition update body =>
      cases condition with
      | none => exact shows
      | some condition => exact le _ _ shows
  | forEach span element collection body =>
      obtain ⟨text, text_shown, value_eq⟩ := shows
      exact ⟨text, le _ _ text_shown, value_eq⟩
  | conditional | whileLoop | doLoop | switch | synchronized => exact le _ _ shows
  | _ => exact shows.elim

/-- Whether an entity whose value shows expressions belongs to a statement in a body and shows those
in its head. -/
def Entity.ShowsHead (shown : Expr → String → Prop) (body : Block) (entity : Entity) : Prop :=
  entity.kind.showsHead = true → ∃ stmt, (Construct.block body).Contains (.stmt stmt) ∧
    stmt.headKind? = some entity.kind ∧ stmt.span.extent? = some entity.extent ∧
      stmt.ShowsHead shown entity.value

namespace OutlineContext

section Heads

variable {context : OutlineContext} {shown : Expr → String → Prop} {body : Block}

/-- Whether the nodes of some branches show the expressions in the heads of statements in a body. -/
def AllShowHeads (shown : Expr → String → Prop) (body : Block) : List Branch → Prop :=
  AllEntities (·.ShowsHead shown body)

/-- A node of another kind shows no expression in the head of its statement. -/
theorem showsHead_plain {kind : EntityKind} {value : String} {span : Span}
    {children : Except Rejection (List Branch)} (plain : kind.showsHead = false)
    (below : Yields (AllShowHeads shown body) children) :
    Yields (AllShowHeads shown body) (context.branch kind value span children) := by
  refine allEntities_branch (fun _ shows => ?_) below
  rw [plain] at shows
  cases shows

theorem showsHead_leaf {kind : EntityKind} {value : String} {span : Span}
    (plain : kind.showsHead = false) :
    Yields (AllShowHeads shown body) (context.leaf kind value span) :=
  showsHead_plain plain allEntities_nil

theorem showsHead_verbatimLeaf {kind : EntityKind} {span : Span} (plain : kind.showsHead = false) :
    Yields (AllShowHeads shown body) (context.verbatimLeaf kind span) :=
  .bind fun _ => showsHead_leaf plain

/-- The node of a statement shows the expressions in its head. -/
theorem showsHead_own {stmt : Stmt} {kind : EntityKind} {value : String}
    {children : Except Rejection (List Branch)}
    (inside : (Construct.block body).Contains (.stmt stmt)) (kind_eq : stmt.headKind? = some kind)
    (shows : stmt.ShowsHead shown value)
    (below : Yields (AllShowHeads shown body) children) :
    Yields (AllShowHeads shown body) (context.branch kind value stmt.span children) :=
  allEntities_branch (fun start_lt _ =>
    ⟨stmt, inside, kind_eq, Span.extent?_eq_some_iff.mpr ⟨start_lt, rfl⟩, shows⟩) below

theorem showsHead_labelForest (labels : List SwitchLabel) :
    Yields (AllShowHeads shown body) (context.labelForest labels) := by
  induction labels with
  | nil => exact allEntities_nil
  | cons label labels induction =>
      cases label with
      | case span values =>
          exact .bind fun text => allEntities_beside (showsHead_leaf rfl) induction
      | default span => exact allEntities_beside (showsHead_leaf rfl) induction

/-- Whether a text is the rendering of an expression of which something is true. -/
def Rendered (context : OutlineContext) (holds : Expr → Prop) (expr : Expr) (text : String) :
    Prop :=
  holds expr ∧ context.render expr = .ok text

theorem render_of_render_eq_ok {expr : Expr} {text : String}
    (found : context.render expr = .ok text) : expr.render context.source = .ok text := by
  unfold render at found
  split at found
  · next rendered =>
    cases found
    exact rendered
  · cases found

section Forests

variable {holds : Expr → Prop}

mutual

theorem showsHead_stmtForest (stmt : Stmt) (inside : (Construct.block body).Contains (.stmt stmt))
    (heads : stmt.AllHeads holds) :
    Yields (AllShowHeads (context.Rendered holds) body) (context.stmtForest stmt) := by
  cases stmt with
  | locals declaration => exact showsHead_verbatimLeaf rfl
  | localType span kind name => exact showsHead_verbatimLeaf rfl
  | expr span expr =>
      refine .bind_of_eq fun kind kind_eq => showsHead_verbatimLeaf ?_
      have verbatim := isVerbatim_of_expressionKind kind_eq
      cases kind <;> first | rfl | cases verbatim
  | constructorCall span target outer arguments => exact showsHead_verbatimLeaf rfl
  | assertion span condition message =>
      cases message with
      | none =>
          exact .bind_of_eq fun text text_eq =>
            showsHead_own inside rfl ⟨heads, text_eq⟩ allEntities_nil
      | some message =>
          exact .bind_of_eq fun text text_eq => .bind_of_eq fun note note_eq =>
            showsHead_own inside rfl
              ⟨text, note, ⟨heads.1, text_eq⟩, ⟨heads.2, note_eq⟩, rfl⟩ allEntities_nil
  | jump span kind label => exact showsHead_leaf (by cases kind <;> rfl)
  | returns span value =>
      cases value with
      | none => exact showsHead_leaf rfl
      | some value => exact .bind fun text => showsHead_leaf rfl
  | throws span value => exact .bind fun text => showsHead_leaf rfl
  | conditional span condition whenTrue whenFalse =>
      have inside_true := inside.part (.tail _ List.mem_cons_self)
      cases whenFalse with
      | none =>
          have below_true := showsHead_stmtForest whenTrue inside_true heads.2
          exact .bind_of_eq fun text text_eq =>
            showsHead_own inside rfl ⟨heads.1, text_eq⟩ (showsHead_plain rfl below_true)
      | some whenFalse =>
          have inside_false := inside.part (.tail _ (.tail _ List.mem_cons_self))
          have below_true := showsHead_stmtForest whenTrue inside_true heads.2.1
          have below_false := showsHead_stmtForest whenFalse inside_false heads.2.2
          exact .bind_of_eq fun text text_eq =>
            showsHead_own inside rfl ⟨heads.1, text_eq⟩ (allEntities_beside
              (showsHead_plain rfl below_true) (showsHead_plain rfl below_false))
  | whileLoop span condition inner =>
      have below := showsHead_stmtForest inner
        (inside.part (.tail _ List.mem_cons_self)) heads.2
      exact .bind_of_eq fun text text_eq =>
        showsHead_own inside rfl ⟨heads.1, text_eq⟩ below
  | doLoop span inner condition =>
      have below := showsHead_stmtForest inner (inside.part List.mem_cons_self) heads.2
      exact .bind_of_eq fun text text_eq =>
        showsHead_own inside rfl ⟨heads.1, text_eq⟩ below
  | forLoop span init condition update inner =>
      have inside_inner := inside.part (List.mem_append_right _ List.mem_cons_self)
      cases condition with
      | none =>
          have below := showsHead_stmtForest inner inside_inner heads
          exact showsHead_own inside rfl rfl below
      | some condition =>
          have below := showsHead_stmtForest inner inside_inner heads.2
          exact .bind_of_eq fun text text_eq =>
            showsHead_own inside rfl ⟨heads.1, text_eq⟩ below
  | forEach span element collection inner =>
      have below := showsHead_stmtForest inner
        (inside.part (.tail _ (.tail _ List.mem_cons_self))) heads.2
      exact .bind_of_eq fun text text_eq =>
        showsHead_own inside rfl ⟨text, ⟨heads.1, text_eq⟩, rfl⟩ below
  | switch span selector groups =>
      have below := showsHead_groupForest groups
        (fun group member => inside.part (.tail _ (List.mem_map_of_mem member))) heads.2
      exact .bind_of_eq fun text text_eq =>
        showsHead_own inside rfl ⟨heads.1, text_eq⟩ below
  | synchronized span lock inner =>
      have inside_inner := inside.part (.tail _ List.mem_cons_self)
      obtain ⟨innerSpan, statements⟩ := inner
      have below := showsHead_forest statements
        (fun stmt member => inside_inner.part (List.mem_map_of_mem member)) heads.2
      exact .bind_of_eq fun text text_eq =>
        showsHead_own inside rfl ⟨heads.1, text_eq⟩ below
  | tries span resources inner handlers cleanup =>
      have inside_inner : (Construct.block body).Contains (.block inner) :=
        inside.part (List.mem_append_left _ (List.mem_append_right _ List.mem_cons_self))
      have below_handlers := showsHead_clauseForest handlers
        (fun handler member => inside.part (List.mem_append_left _ (List.mem_append_right _
          (.tail _ (List.mem_map_of_mem member))))) heads.2.1
      have below_cleanup := showsHead_cleanupForest cleanup
        (fun final final_eq => inside.part (List.mem_append_right _
          (by rw [final_eq]; exact List.mem_cons_self))) heads.2.2
      obtain ⟨innerSpan, statements⟩ := inner
      have below := showsHead_forest statements
        (fun stmt member => inside_inner.part (List.mem_map_of_mem member)) heads.1
      exact .bind fun texts => showsHead_plain rfl (allEntities_beside (showsHead_plain rfl below)
        (allEntities_beside below_handlers below_cleanup))
  | labeled span label inner =>
      exact showsHead_plain rfl (showsHead_stmtForest inner
        (inside.part (.tail _ List.mem_cons_self)) heads)
  | block inner =>
      have inside_inner := inside.part List.mem_cons_self
      obtain ⟨span, statements⟩ := inner
      exact showsHead_forest statements
        (fun stmt member => inside_inner.part (List.mem_map_of_mem member)) heads
  | empty span => exact allEntities_nil
  | unparsed span => exact .rejected _

theorem showsHead_forest (stmts : List Stmt)
    (inside : ∀ stmt ∈ stmts, (Construct.block body).Contains (.stmt stmt))
    (heads : Stmt.EachHead holds stmts) :
    Yields (AllShowHeads (context.Rendered holds) body) (context.forest stmts) := by
  cases stmts with
  | nil => exact allEntities_nil
  | cons stmt stmts =>
      exact allEntities_beside
        (showsHead_stmtForest stmt (inside stmt List.mem_cons_self) heads.1)
        (showsHead_forest stmts (fun other member => inside other (.tail stmt member)) heads.2)

theorem showsHead_groupForest (groups : List SwitchGroup)
    (inside : ∀ group ∈ groups, (Construct.block body).Contains (.group group))
    (heads : SwitchGroup.AllHeads holds groups) :
    Yields (AllShowHeads (context.Rendered holds) body) (context.groupForest groups) := by
  cases groups with
  | nil => exact allEntities_nil
  | cons group groups =>
      have inside_group := inside group List.mem_cons_self
      obtain ⟨span, arrow, labels, statements⟩ := group
      have below := showsHead_forest statements (fun stmt member => inside_group.part
        (List.mem_append_right _ (List.mem_map_of_mem member))) heads.1
      exact allEntities_beside (showsHead_labelForest labels) (allEntities_beside below
        (showsHead_groupForest groups (fun other member => inside other (.tail _ member))
          heads.2))

theorem showsHead_clauseForest (handlers : List Handler)
    (inside : ∀ handler ∈ handlers, (Construct.block body).Contains (.handler handler))
    (heads : Handler.AllHeads holds handlers) :
    Yields (AllShowHeads (context.Rendered holds) body) (context.clauseForest handlers) := by
  cases handlers with
  | nil => exact allEntities_nil
  | cons first rest =>
      obtain ⟨span, types, name, inner⟩ := first
      exact showsHead_plain rfl (allEntities_beside
        (showsHead_handlerForest _ (inside _ List.mem_cons_self) ⟨heads.1, trivial⟩)
        (showsHead_handlersForest rest (fun other member => inside other (.tail _ member))
          heads.2))

theorem showsHead_handlerForest (handler : Handler)
    (inside : (Construct.block body).Contains (.handler handler))
    (heads : Handler.AllHeads holds [handler]) :
    Yields (AllShowHeads (context.Rendered holds) body) (context.handlerForest handler) := by
  obtain ⟨span, types, name, ⟨innerSpan, statements⟩⟩ := handler
  have inside_inner := inside.part (List.mem_append_right _ List.mem_cons_self)
  exact showsHead_plain rfl (showsHead_forest statements
    (fun stmt member => inside_inner.part (List.mem_map_of_mem member)) heads.1)

theorem showsHead_handlersForest (handlers : List Handler)
    (inside : ∀ handler ∈ handlers, (Construct.block body).Contains (.handler handler))
    (heads : Handler.AllHeads holds handlers) :
    Yields (AllShowHeads (context.Rendered holds) body) (context.handlersForest handlers) := by
  cases handlers with
  | nil => exact allEntities_nil
  | cons handler handlers =>
      obtain ⟨span, types, name, inner⟩ := handler
      exact allEntities_beside
        (showsHead_handlerForest _ (inside _ List.mem_cons_self) ⟨heads.1, trivial⟩)
        (showsHead_handlersForest handlers
          (fun other member => inside other (.tail _ member)) heads.2)

theorem showsHead_cleanupForest (cleanup : Option Block)
    (inside : ∀ final, cleanup = some final → (Construct.block body).Contains (.block final))
    (heads : Block.CleanupHeads holds cleanup) :
    Yields (AllShowHeads (context.Rendered holds) body) (context.cleanupForest cleanup) := by
  cases cleanup with
  | none => exact allEntities_nil
  | some final =>
      have inside_final := inside final rfl
      obtain ⟨span, statements⟩ := final
      exact showsHead_plain rfl (showsHead_forest statements
        (fun stmt member => inside_final.part (List.mem_map_of_mem member)) heads)

end

/-- The statements of a body. -/
theorem showsHead_body (context : OutlineContext) : ∀ body : Block, body.AllHeads holds →
    Yields (AllShowHeads (context.Rendered holds) body) (context.forest body.statements)
  | .mk _ statements, heads =>
      showsHead_forest statements
        (fun _ member => .part .self (List.mem_map_of_mem member)) heads

end Forests

end Heads

end OutlineContext

/-- **Rendering keeps the tokens of expressions.** Where the value of a node of the outline of a
method shows expressions, the node belongs to a statement in the body of the method, and its value
is put together from the texts of the expressions in the head of the statement, which keep the
tokens of the source. -/
theorem outlineMethod_keeps_tokens {source : Source} {name : String} {verify : Bool}
    {outline : Outline} (outlined : (outlineMethod source name verify).result = .ok outline) :
    ∃ method, (CompilationUnit.read source).findMethod? name = some method ∧
      ∀ id node, outline.get? id = some node → node.entity.kind.showsHead = true →
        ∃ body stmt, method.body = some body ∧ (Construct.block body).Contains (.stmt stmt) ∧
          stmt.headKind? = some node.entity.kind ∧ stmt.span.extent? = some node.entity.extent ∧
            stmt.ShowsHead (Expr.IsShown source) node.entity.value := by
  obtain ⟨method, branches, found, rfl, grown⟩ := exists_of_outlineMethod_eq_ok outlined
  refine ⟨method, found, fun id node node_eq shows => ?_⟩
  cases id with
  | zero =>
      rw [Outline.get?_graft_ofRoot] at node_eq
      cases node_eq
      cases shows
  | succ i =>
      have member := Outline.entity_mem_of_get?_graft (Nat.le_add_left 1 i) node_eq
      cases has_body : method.body with
      | none =>
          rw [has_body] at grown
          rw [grown] at member
          cases member
      | some body =>
          rw [has_body] at grown
          obtain ⟨first, after, reaches, -, read⟩ :=
            (CompilationUnit.readAfter_of_findMethod? found).exists_readFrom has_body
          have heads := Parser.heads_block ⟨source, .refl⟩ reaches
          rw [read] at heads
          have below := OutlineContext.showsHead_body ⟨source, verify⟩ body heads
          obtain ⟨stmt, inside, kind_eq, extent_eq, shows⟩ := below branches grown _ member shows
          exact ⟨_, stmt, rfl, inside, kind_eq, extent_eq,
            shows.mono fun expr text rendered => rendered.1.isShown
              (OutlineContext.render_of_render_eq_ok rendered.2)⟩

/-- A file with a method that tests a call with a type argument. -/
def genericSource : Source := .ofString "class A\x7bvoid f()\x7bif(a.<T>g());\x7d\x7d"

/-- The call. -/
def genericCall : Expr := .memberCall ⟨20, 28⟩ (.name ⟨20, 21⟩ "a") ⟨"g", ⟨25, 26⟩⟩ []

/-- The body of the method. -/
def genericBody : Block :=
  .mk ⟨16, 31⟩ [.conditional ⟨17, 30⟩ genericCall (.empty ⟨29, 30⟩) none]

theorem scan_genericSource : Token.scan 0 genericSource.chars =
    [⟨.word, "class", ⟨0, 5⟩⟩, ⟨.word, "A", ⟨6, 7⟩⟩, ⟨.openBrace, "\x7b", ⟨7, 8⟩⟩,
     ⟨.word, "void", ⟨8, 12⟩⟩, ⟨.word, "f", ⟨13, 14⟩⟩, ⟨.openParen, "(", ⟨14, 15⟩⟩,
     ⟨.closeParen, ")", ⟨15, 16⟩⟩, ⟨.openBrace, "\x7b", ⟨16, 17⟩⟩, ⟨.word, "if", ⟨17, 19⟩⟩,
     ⟨.openParen, "(", ⟨19, 20⟩⟩, ⟨.word, "a", ⟨20, 21⟩⟩, ⟨.dot, ".", ⟨21, 22⟩⟩,
     ⟨.less, "<", ⟨22, 23⟩⟩, ⟨.word, "T", ⟨23, 24⟩⟩, ⟨.greater, ">", ⟨24, 25⟩⟩,
     ⟨.word, "g", ⟨25, 26⟩⟩, ⟨.openParen, "(", ⟨26, 27⟩⟩, ⟨.closeParen, ")", ⟨27, 28⟩⟩,
     ⟨.closeParen, ")", ⟨28, 29⟩⟩, ⟨.semicolon, ";", ⟨29, 30⟩⟩, ⟨.closeBrace, "\x7d", ⟨30, 31⟩⟩,
     ⟨.closeBrace, "\x7d", ⟨31, 32⟩⟩] := by
  decide +kernel

set_option maxRecDepth 8000 in
theorem body_genericSource :
    ((CompilationUnit.read genericSource).findMethod? "f").bind (·.body) = some genericBody := by
  rw [CompilationUnit.read, scan_genericSource]
  rfl

/-- The outline of the method. -/
def genericOutline : Outline :=
  ⟨#[⟨⟨"f", .method, ⟨8, 30⟩⟩, none, 0, #[1]⟩,
    ⟨⟨"a.g()", .ifStatement, ⟨17, 29⟩⟩, some 0, 0, #[2]⟩,
    ⟨⟨"a.g()", .thenStatement, ⟨17, 29⟩⟩, some 1, 0, #[]⟩]⟩

theorem result_outlineMethod_genericSource :
    (outlineMethod genericSource "f" true).result = .ok genericOutline := by
  decide +kernel

theorem keeps_tokens_genericOutline :
    (outlineMethod genericSource "f" true).result = .ok genericOutline ∧
      ∃ method, (CompilationUnit.read genericSource).findMethod? "f" = some method ∧
        ∀ id node, genericOutline.get? id = some node → node.entity.kind.showsHead = true →
          ∃ body stmt, method.body = some body ∧ (Construct.block body).Contains (.stmt stmt) ∧
            stmt.headKind? = some node.entity.kind ∧ stmt.span.extent? = some node.entity.extent ∧
              stmt.ShowsHead (Expr.IsShown genericSource) node.entity.value :=
  ⟨result_outlineMethod_genericSource,
    outlineMethod_keeps_tokens result_outlineMethod_genericSource⟩

/-- Not all tokens are kept: the value of the `if` lacks the type argument of the call. -/
theorem outlineMethod_genericSource_drops :
    (outlineMethod genericSource "f" true).result = .ok genericOutline ∧
      (∃ method, (CompilationUnit.read genericSource).findMethod? "f" = some method ∧
        method.body = some genericBody) ∧
      .conditional ⟨17, 30⟩ genericCall (.empty ⟨29, 30⟩) none ∈ genericBody.statements ∧
      genericOutline.get? 1 = some ⟨⟨"a.g()", .ifStatement, ⟨17, 29⟩⟩, some 0, 0, #[2]⟩ ∧
      genericCall.render genericSource = .ok "a.g()" ∧
      unparen ((Token.scan 0 "a.g()".toList).map (·.text)) = ["a", ".", "g"] ∧
      unparen ((genericSource.tokensIn genericCall.span).map (·.text)) =
        ["a", ".", "<", "T", ">", "g"] := by
  obtain ⟨method, found, has_body⟩ := Option.bind_eq_some_iff.mp body_genericSource
  refine ⟨result_outlineMethod_genericSource, ⟨method, found, has_body⟩, List.mem_cons_self, rfl,
    ?_, ?_, ?_⟩
  all_goals decide +kernel

/-- Nor do all tokens stay apart: `1 .f()` is rendered as `1.f()`, which begins with a number. -/
example : (Token.scan 0 "1.f()".toList).map (·.text) = ["1.f", "(", ")"] := by
  decide +kernel

end JavaOutline
