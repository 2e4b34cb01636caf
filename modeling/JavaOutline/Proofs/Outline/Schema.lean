import JavaOutline.Proofs.Outline.Laminar

/-!
# The schema of outlines

Some kinds of node are parts of another: the alternatives of a condition, the parts of a `try`, its
`catch` clauses, the labels of a `switch`. They stand nowhere else, and the nodes they are parts of
have nothing but their parts below them. The schema is said of an entity and the entities right
below it. It is proved of the branches of statements rule by rule; that the node over the `catch`
clauses begins with the first and ends with the last of them is due to their order.
-/

namespace JavaOutline

/-- The only kind of node that a node of a kind stands below, if there is only one. -/
def EntityKind.home? : EntityKind → Option EntityKind
  | .thenStatement | .elseStatement => some .ifStatement
  | .tryBody | .catchClauses | .finallyClause => some .tryStatement
  | .catchClause => some .catchClauses
  | .switchCase => some .switchStatement
  | _ => none

/-- Whether a node of a kind may stand below a node of another. -/
def EntityKind.StandsBelow (kind above : EntityKind) : Prop :=
  kind ≠ .method ∧ ∀ home, kind.home? = some home → above = home

/-- Whether a kind is that of a statement: nodes of the kind are no roots and no parts. -/
def EntityKind.IsFree (kind : EntityKind) : Prop :=
  kind ≠ .method ∧ kind.home? = none

instance (kind : EntityKind) : Decidable kind.IsFree :=
  inferInstanceAs (Decidable (_ ∧ _))

/-- A part may stand below the kind it is a part of. -/
theorem EntityKind.standsBelow_of_home? {kind above : EntityKind}
    (is_part : kind.home? = some above) : kind.StandsBelow above := by
  refine ⟨?_, fun home is_home => ?_⟩
  · rintro rfl
    cases is_part
  · rw [is_part] at is_home
    exact Option.some.inj is_home

theorem EntityKind.IsFree.standsBelow {kind : EntityKind} (free : kind.IsFree)
    (above : EntityKind) : kind.StandsBelow above := by
  refine ⟨free.1, fun home is_home => ?_⟩
  rw [free.2] at is_home
  cases is_home

/-- Whether nodes of a kind have statements below them, neither nothing nor only parts. -/
def EntityKind.HasStatements (kind : EntityKind) : Prop :=
  kind.isLeaf = false ∧ kind ≠ .ifStatement ∧ kind ≠ .tryStatement ∧ kind ≠ .catchClauses

instance (kind : EntityKind) : Decidable kind.HasStatements :=
  inferInstanceAs (Decidable (_ ∧ _))

/-- Whether an entity may have these entities right below it. -/
structure Entity.Admits (above : Entity) (below : List Entity) : Prop where
  /-- A leaf has nothing below it. -/
  leaf : above.kind.isLeaf = true → below = []
  /-- A condition has its alternatives below it, with its own value and extent. -/
  alternatives : above.kind = .ifStatement →
    below = [{ above with kind := .thenStatement }] ∨
      below = [{ above with kind := .thenStatement }, { above with kind := .elseStatement }]
  /-- A `try` has its parts below it. -/
  parts : above.kind = .tryStatement →
    below.map (·.kind) ∈
      [[.tryBody], [.tryBody, .catchClauses], [.tryBody, .finallyClause],
        [.tryBody, .catchClauses, .finallyClause]]
  /-- The `catch` clauses of a `try` are at least one, and fill the extent of their node. -/
  clauses : above.kind = .catchClauses →
    (∀ child ∈ below, child.kind = .catchClause) ∧
      ∃ first last, below.head? = some first ∧ below.getLast? = some last ∧
        above.extent = ⟨first.extent.first, last.extent.last⟩

/-- The schema does not say what stands below an entity that has statements below it. -/
theorem Entity.admits_of_hasStatements {above : Entity} (has : above.kind.HasStatements)
    (below : List Entity) : above.Admits below where
  leaf is_leaf := by
    rw [has.1] at is_leaf
    cases is_leaf
  alternatives is_if := (has.2.1 is_if).elim
  parts is_try := (has.2.2.1 is_try).elim
  clauses is_clauses := (has.2.2.2 is_clauses).elim

theorem Entity.admits_nil {above : Entity} (is_leaf : above.kind.isLeaf = true) :
    above.Admits [] where
  leaf _ := rfl
  alternatives is_if := by
    rw [is_if] at is_leaf
    cases is_leaf
  parts is_try := by
    rw [is_try] at is_leaf
    cases is_leaf
  clauses is_clauses := by
    rw [is_clauses] at is_leaf
    cases is_leaf

/-- The first of some `catch` clauses in order begins and ends no later than the last of them. -/
theorem Entity.le_getLast_of_isChain {first : Entity} {rest : List Entity}
    (is_clause : ∀ entity ∈ first :: rest, entity.kind = .catchClause)
    (ordered : ∀ entity ∈ first :: rest, entity.extent.first ≤ entity.extent.last)
    (chain : (first :: rest).IsChain Entity.Precedes) :
    first.extent.first ≤ (rest.getLast?.getD first).extent.first ∧
      first.extent.last ≤ (rest.getLast?.getD first).extent.last := by
  induction rest generalizing first with
  | nil => exact ⟨Nat.le_refl _, Nat.le_refl _⟩
  | cons second rest induction =>
      have later := induction (fun entity member => is_clause entity (.tail first member))
        (fun entity member => ordered entity (.tail first member)) chain.tail
      have first_le := ordered first List.mem_cons_self
      have second_le := ordered second (.tail first List.mem_cons_self)
      have first_lt : first.extent.last < second.extent.first := by
        rcases chain.rel with lt | ⟨is_then, _⟩
        · exact lt
        · rw [is_clause first List.mem_cons_self] at is_then
          cases is_then
      simp only [List.getLast?_cons, Option.getD_some]
      omega

namespace Branch

mutual

/-- Whether the entities of a branch obey the schema. -/
def Schematic : Branch → Prop
  | .mk entity children =>
    entity.Admits (children.map Branch.entity) ∧
      (∀ child ∈ children, child.entity.kind.StandsBelow entity.kind) ∧ AllSchematic children

/-- Whether some branches obey the schema, each for itself. -/
def AllSchematic : List Branch → Prop
  | [] => True
  | branch :: branches => branch.Schematic ∧ AllSchematic branches

end

theorem allSchematic_append {left right : List Branch} (schematic_left : AllSchematic left)
    (schematic_right : AllSchematic right) : AllSchematic (left ++ right) := by
  induction left with
  | nil => exact schematic_right
  | cons branch branches induction =>
      obtain ⟨first, later⟩ := schematic_left
      exact ⟨first, induction later⟩

theorem AllLaminar.first_le_last {source : Source} {branches : List Branch}
    (laminar : AllLaminar source branches) :
    ∀ entity ∈ branches.map Branch.entity, entity.extent.first ≤ entity.extent.last := by
  induction branches with
  | nil => exact nofun
  | cons branch branches induction =>
      obtain ⟨entity, children⟩ := branch
      obtain ⟨laminar_branch, laminar_later⟩ := laminar
      intro other member
      rcases List.mem_cons.mp member with rfl | later
      · exact laminar_branch.1.first_le_last
      · exact induction laminar_later other later

theorem allLaminar_append_iff {source : Source} {left right : List Branch} :
    AllLaminar source (left ++ right) ↔ AllLaminar source left ∧ AllLaminar source right := by
  induction left with
  | nil => simp [AllLaminar]
  | cons branch branches induction => simp [AllLaminar, induction, and_assoc]

/-- Whether branches have kinds of a sort, and obey the schema if they are laminar. -/
structure Bears (source : Source) (sort : EntityKind → Prop) (branches : List Branch) : Prop where
  /-- The topmost kinds are of the sort. -/
  kinds : ∀ branch ∈ branches, sort branch.entity.kind
  /-- Laminar branches obey the schema. -/
  schematic : AllLaminar source branches → AllSchematic branches

namespace Bears

variable {source : Source} {sort : EntityKind → Prop}

theorem nil : Bears source sort [] :=
  ⟨nofun, fun _ => trivial⟩

theorem append {left right : List Branch} (bears_left : Bears source sort left)
    (bears_right : Bears source sort right) : Bears source sort (left ++ right) where
  kinds branch member := by
    rcases List.mem_append.mp member with member | member
    · exact bears_left.kinds branch member
    · exact bears_right.kinds branch member
  schematic laminar := by
    obtain ⟨laminar_left, laminar_right⟩ := allLaminar_append_iff.mp laminar
    exact allSchematic_append (bears_left.schematic laminar_left)
      (bears_right.schematic laminar_right)

theorem mono {sort' : EntityKind → Prop} {branches : List Branch}
    (bears : Bears source sort branches) (implies : ∀ kind, sort kind → sort' kind) :
    Bears source sort' branches :=
  ⟨fun branch member => implies _ (bears.kinds branch member), bears.schematic⟩

end Bears

end Branch

/-- The entity of a `catch` clause. -/
def Handler.entity : Handler → Entity
  | .mk span types _ _ =>
    ⟨" | ".intercalate (types.map (·.text)), .catchClause, ⟨span.start, span.stop - 1⟩⟩

theorem Handler.kind_entity (handler : Handler) : handler.entity.kind = .catchClause := by
  cases handler
  rfl

theorem Handler.extent_entity (handler : Handler) :
    handler.entity.extent = ⟨handler.span.start, handler.span.stop - 1⟩ := by
  cases handler
  rfl

/-- The span over some `catch` clauses in order begins with the first and ends with the last. -/
theorem Builder.extent_handlersSpan {first : Handler} {rest : List Handler}
    (ordered : ∀ entity ∈ (first :: rest).map Handler.entity,
      entity.extent.first ≤ entity.extent.last)
    (chain : ((first :: rest).map Handler.entity).IsChain Entity.Precedes) :
    (⟨(handlersSpan first rest).start, (handlersSpan first rest).stop - 1⟩ : Extent) =
      ⟨first.entity.extent.first, (rest.getLast?.getD first).entity.extent.last⟩ := by
  have is_clause : ∀ entity ∈ (first :: rest).map Handler.entity, entity.kind = .catchClause := by
    intro entity member
    obtain ⟨handler, _, rfl⟩ := List.mem_map.mp member
    exact handler.kind_entity
  have first_le := Entity.le_getLast_of_isChain is_clause ordered chain
  rw [List.getLast?_map, Option.getD_map] at first_le
  simp only [Handler.extent_entity] at first_le ⊢
  simp only [handlersSpan, Span.cover, Extent.mk.injEq]
  omega

namespace OutlineContext

open Branch

variable {source : Source} {context : OutlineContext} {sort inner : EntityKind → Prop}

theorem bears_nothing : Yields (Bears source sort) (.ok []) := by
  rintro branches ⟨⟩
  exact .nil

theorem bears_beside {left right : Except Rejection (List Branch)}
    (bears_left : Yields (Bears source sort) left)
    (bears_right : Yields (Bears source sort) right) :
    Yields (Bears source sort) (beside left right) := by
  intro branches found
  obtain ⟨first, second, first_eq, second_eq, rfl⟩ := exists_of_beside_eq_ok found
  exact (bears_left first first_eq).append (bears_right second second_eq)

theorem bears_mono {forest : Except Rejection (List Branch)} {sort' : EntityKind → Prop}
    (bears : Yields (Bears source sort) forest) (implies : ∀ kind, sort kind → sort' kind) :
    Yields (Bears source sort') forest :=
  fun branches found => (bears branches found).mono implies

/-- A branch obeys the schema if its entity admits those right below it, and the branches below it
obey the schema and may stand there. -/
theorem bears_branch {kind : EntityKind} {value : String} {span : Span}
    {children : Except Rejection (List Branch)} (is_sort : sort kind)
    (bears : Yields (Bears source inner) children)
    (stands : ∀ other, inner other → other.StandsBelow kind)
    (admits : ∀ branches, children = .ok branches →
      (Branch.mk ⟨value, kind, ⟨span.start, span.stop - 1⟩⟩ branches).Laminar source →
      Entity.Admits ⟨value, kind, ⟨span.start, span.stop - 1⟩⟩ (branches.map Branch.entity)) :
    Yields (Bears source sort) (context.branch kind value span children) := by
  intro branches found
  obtain ⟨_, below, children_eq, rfl⟩ := eq_of_branch_eq_ok found
  obtain ⟨kinds, schematic⟩ := bears below children_eq
  refine ⟨fun branch member => ?_, fun laminar => ⟨⟨?_, ?_, ?_⟩, trivial⟩⟩
  · rw [List.mem_singleton.mp member]
    exact is_sort
  · exact admits below children_eq laminar.1
  · exact fun child member => stands _ (kinds child member)
  · exact schematic laminar.1.2.2.2

/-- A branch that has statements below it may have all of them there. -/
theorem bears_statements {kind : EntityKind} {value : String} {span : Span}
    {children : Except Rejection (List Branch)} (is_sort : sort kind) (has : kind.HasStatements)
    (bears : Yields (Bears source EntityKind.IsFree) children) :
    Yields (Bears source sort) (context.branch kind value span children) :=
  bears_branch is_sort bears (fun _ free => free.standsBelow kind)
    fun _ _ _ => Entity.admits_of_hasStatements has _

theorem bears_leaf {kind : EntityKind} {value : String} {span : Span} (is_sort : sort kind)
    (is_leaf : kind.isLeaf = true) :
    Yields (Bears source sort) (context.leaf kind value span) := by
  have nothing : Yields (Bears source EntityKind.IsFree) (.ok []) := bears_nothing
  refine bears_branch is_sort nothing (fun _ free => free.standsBelow kind) ?_
  rintro branches ⟨⟩ _
  exact Entity.admits_nil is_leaf

theorem bears_verbatimLeaf {kind : EntityKind} {span : Span} (is_sort : sort kind)
    (is_leaf : kind.isLeaf = true) :
    Yields (Bears source sort) (context.verbatimLeaf kind span) :=
  .bind fun _ => bears_leaf is_sort is_leaf

/-- A condition has one alternative or two, with its own value and extent. -/
theorem bears_conditional {value : String} {span : Span}
    {children : Except Rejection (List Branch)}
    (bears : Yields (Bears source (·.home? = some .ifStatement)) children)
    (alternatives : ∀ branches, children = .ok branches →
      branches.map Branch.entity = [⟨value, .thenStatement, ⟨span.start, span.stop - 1⟩⟩] ∨
        branches.map Branch.entity = [⟨value, .thenStatement, ⟨span.start, span.stop - 1⟩⟩,
          ⟨value, .elseStatement, ⟨span.start, span.stop - 1⟩⟩]) :
    Yields (Bears source EntityKind.IsFree) (context.branch .ifStatement value span children) := by
  refine bears_branch (by decide) bears (fun _ => EntityKind.standsBelow_of_home?) ?_
  intro branches found _
  exact ⟨nofun, fun _ => alternatives branches found, nofun, nofun⟩

theorem bears_labelForest (context : OutlineContext) (labels : List SwitchLabel) :
    Yields (Bears source (·.StandsBelow .switchStatement)) (context.labelForest labels) := by
  have stands : EntityKind.switchCase.StandsBelow .switchStatement :=
    EntityKind.standsBelow_of_home? rfl
  induction labels with
  | nil => exact bears_nothing
  | cons label labels induction =>
      cases label with
      | case span values =>
          exact .bind fun _ => bears_beside (bears_leaf stands rfl) induction
      | default span => exact bears_beside (bears_leaf stands rfl) induction

theorem isFree_of_expressionKind {expr : Expr} {kind : EntityKind}
    (found : context.expressionKind expr = .ok kind) : kind.IsFree ∧ kind.isLeaf = true := by
  unfold expressionKind at found
  split at found <;> cases found <;> exact ⟨by decide, rfl⟩

theorem isFree_entityKind (jump : JumpKind) :
    jump.entityKind.IsFree ∧ jump.entityKind.isLeaf = true := by
  cases jump <;> exact ⟨by decide, rfl⟩

theorem map_entity_handlerForest {handler : Handler} {branches : List Branch}
    (found : context.handlerForest handler = .ok branches) :
    branches.map Branch.entity = [handler.entity] := by
  obtain ⟨span, types, name, body⟩ := handler
  obtain ⟨bodySpan, statements⟩ := body
  obtain ⟨_, below, _, rfl⟩ := eq_of_branch_eq_ok found
  rfl

theorem map_entity_handlersForest {handlers : List Handler} {branches : List Branch}
    (found : context.handlersForest handlers = .ok branches) :
    branches.map Branch.entity = handlers.map Handler.entity := by
  induction handlers generalizing branches with
  | nil =>
      cases found
      rfl
  | cons handler handlers induction =>
      obtain ⟨first, later, first_eq, later_eq, rfl⟩ := exists_of_beside_eq_ok found
      rw [List.map_append, map_entity_handlerForest first_eq, induction later_eq]
      rfl

/-- The node over some `catch` clauses admits them. -/
theorem admits_handlersForest {first : Handler} {rest : List Handler} {branches : List Branch}
    {above : Entity} (is_clauses : above.kind = .catchClauses)
    (extent_eq : above.extent =
      ⟨(Builder.handlersSpan first rest).start, (Builder.handlersSpan first rest).stop - 1⟩)
    (found : context.handlersForest (first :: rest) = .ok branches)
    (laminar : (Branch.mk above branches).Laminar source) :
    above.Admits (branches.map Branch.entity) := by
  obtain ⟨_, _, precedes, laminar_branches⟩ := laminar
  have ordered := AllLaminar.first_le_last laminar_branches
  have chain : (branches.map Branch.entity).IsChain Entity.Precedes :=
    List.isChain_map _ |>.mpr precedes
  rw [map_entity_handlersForest found] at ordered chain ⊢
  rw [Builder.extent_handlersSpan ordered chain] at extent_eq
  refine ⟨?_, ?_, ?_, fun _ => ⟨?_, first.entity, (rest.getLast?.getD first).entity, rfl, ?_,
    extent_eq⟩⟩
  · rw [is_clauses]
    exact nofun
  · rw [is_clauses]
    exact nofun
  · rw [is_clauses]
    exact nofun
  · intro entity member
    obtain ⟨handler, _, rfl⟩ := List.mem_map.mp member
    exact handler.kind_entity
  · rw [List.getLast?_map, List.getLast?_cons, Option.map_some]

theorem map_kind_branch {kind : EntityKind} {value : String} {span : Span}
    {children : Except Rejection (List Branch)} {branches : List Branch}
    (found : context.branch kind value span children = .ok branches) :
    branches.map (·.entity.kind) = [kind] := by
  obtain ⟨_, below, _, rfl⟩ := eq_of_branch_eq_ok found
  rfl

theorem map_kind_clauseForest {handlers : List Handler} {branches : List Branch}
    (found : context.clauseForest handlers = .ok branches) :
    branches.map (·.entity.kind) = [] ∨ branches.map (·.entity.kind) = [.catchClauses] := by
  cases handlers with
  | nil =>
      cases found
      exact .inl rfl
  | cons first rest => exact .inr (map_kind_branch found)

theorem map_kind_cleanupForest {cleanup : Option Block} {branches : List Branch}
    (found : context.cleanupForest cleanup = .ok branches) :
    branches.map (·.entity.kind) = [] ∨ branches.map (·.entity.kind) = [.finallyClause] := by
  cases cleanup with
  | none =>
      cases found
      exact .inl rfl
  | some body =>
      obtain ⟨span, statements⟩ := body
      exact .inr (map_kind_branch found)

/-- A `try` admits its parts. -/
theorem admits_parts {value : String} {extent : Extent} {bodySpan : Span}
    {statements : Except Rejection (List Branch)} {handlers : List Handler}
    {cleanup : Option Block} {branches : List Branch}
    (found : beside (context.branch .tryBody "" bodySpan statements)
      (beside (context.clauseForest handlers) (context.cleanupForest cleanup)) = .ok branches) :
    Entity.Admits ⟨value, .tryStatement, extent⟩ (branches.map Branch.entity) := by
  obtain ⟨body, others, body_eq, others_eq, rfl⟩ := exists_of_beside_eq_ok found
  obtain ⟨clauses, last, clauses_eq, last_eq, rfl⟩ := exists_of_beside_eq_ok others_eq
  refine ⟨nofun, nofun, fun _ => ?_, nofun⟩
  have kinds := map_kind_branch body_eq
  rw [List.map_map, Function.comp_def, List.map_append, List.map_append, kinds]
  rcases map_kind_clauseForest clauses_eq with kinds | kinds <;>
    rcases map_kind_cleanupForest last_eq with kinds' | kinds' <;>
    rw [kinds, kinds'] <;> decide

mutual

theorem bears_stmtForest (context : OutlineContext) (stmt : Stmt) :
    Yields (Bears source EntityKind.IsFree) (context.stmtForest stmt) := by
  cases stmt with
  | locals declaration => exact bears_verbatimLeaf (by decide) rfl
  | localType span kind name => exact bears_verbatimLeaf (by decide) rfl
  | expr span expr =>
      cases kind_eq : context.expressionKind expr with
      | error rejection =>
          simp only [stmtForest, kind_eq]
          exact .rejected rejection
      | ok kind =>
          obtain ⟨free, is_leaf⟩ := isFree_of_expressionKind kind_eq
          simp only [stmtForest, kind_eq]
          exact bears_verbatimLeaf free is_leaf
  | constructorCall span target outer arguments => exact bears_verbatimLeaf (by decide) rfl
  | assertion span condition message =>
      cases message with
      | none => exact .bind fun _ => bears_leaf (by decide) rfl
      | some message => exact .bind fun _ => .bind fun _ => bears_leaf (by decide) rfl
  | jump span kind label =>
      obtain ⟨free, is_leaf⟩ := isFree_entityKind kind
      exact bears_leaf free is_leaf
  | returns span value =>
      cases value with
      | none => exact bears_leaf (by decide) rfl
      | some value => exact .bind fun _ => bears_leaf (by decide) rfl
  | throws span value => exact .bind fun _ => bears_leaf (by decide) rfl
  | conditional span condition whenTrue whenFalse =>
      cases whenFalse with
      | none =>
          refine .bind fun text => bears_conditional
            (bears_statements rfl (by decide) (bears_stmtForest context whenTrue)) ?_
          intro branches found
          obtain ⟨_, below, _, rfl⟩ := eq_of_branch_eq_ok found
          exact .inl rfl
      | some whenFalse =>
          refine .bind fun text => bears_conditional
            (bears_beside
              (bears_statements rfl (by decide) (bears_stmtForest context whenTrue))
              (bears_statements rfl (by decide) (bears_stmtForest context whenFalse))) ?_
          intro branches found
          obtain ⟨first, second, first_eq, second_eq, rfl⟩ := exists_of_beside_eq_ok found
          obtain ⟨_, below, _, rfl⟩ := eq_of_branch_eq_ok first_eq
          obtain ⟨_, below, _, rfl⟩ := eq_of_branch_eq_ok second_eq
          exact .inr rfl
  | whileLoop span condition body =>
      exact .bind fun _ => bears_statements (by decide) (by decide) (bears_stmtForest context body)
  | doLoop span body condition =>
      exact .bind fun _ => bears_statements (by decide) (by decide) (bears_stmtForest context body)
  | forLoop span init condition update body =>
      cases condition with
      | none => exact bears_statements (by decide) (by decide) (bears_stmtForest context body)
      | some condition =>
          exact .bind fun _ =>
            bears_statements (by decide) (by decide) (bears_stmtForest context body)
  | forEach span element collection body =>
      exact .bind fun _ => bears_statements (by decide) (by decide) (bears_stmtForest context body)
  | switch span selector groups =>
      have has : EntityKind.switchStatement.HasStatements := by decide
      exact .bind fun _ => bears_branch (by decide) (bears_groupForest context groups)
        (fun _ stands => stands) fun _ _ _ => Entity.admits_of_hasStatements has _
  | synchronized span lock body =>
      obtain ⟨bodySpan, statements⟩ := body
      exact .bind fun _ =>
        bears_statements (by decide) (by decide) (bears_forest context statements)
  | tries span resources body handlers cleanup =>
      obtain ⟨bodySpan, statements⟩ := body
      have is_part : EntityKind.tryBody.home? = some .tryStatement := rfl
      exact .bind fun _ => bears_branch (by decide)
        (bears_beside (bears_statements is_part (by decide) (bears_forest context statements))
          (bears_beside (bears_clauseForest context handlers)
            (bears_cleanupForest context cleanup)))
        (fun _ => EntityKind.standsBelow_of_home?) fun _ found _ => admits_parts found
  | labeled span label body =>
      exact bears_statements (by decide) (by decide) (bears_stmtForest context body)
  | block inner =>
      obtain ⟨span, statements⟩ := inner
      exact bears_forest context statements
  | empty span => exact bears_nothing
  | unparsed span => exact .rejected _

theorem bears_forest (context : OutlineContext) (stmts : List Stmt) :
    Yields (Bears source EntityKind.IsFree) (context.forest stmts) := by
  cases stmts with
  | nil => exact bears_nothing
  | cons stmt stmts =>
      exact bears_beside (bears_stmtForest context stmt) (bears_forest context stmts)

theorem bears_groupForest (context : OutlineContext) (groups : List SwitchGroup) :
    Yields (Bears source (·.StandsBelow .switchStatement)) (context.groupForest groups) := by
  cases groups with
  | nil => exact bears_nothing
  | cons group groups =>
      obtain ⟨span, arrow, labels, statements⟩ := group
      exact bears_beside (bears_labelForest context labels)
        (bears_beside
          (bears_mono (bears_forest context statements) fun _ free => free.standsBelow _)
          (bears_groupForest context groups))

theorem bears_clauseForest (context : OutlineContext) (handlers : List Handler) :
    Yields (Bears source (·.home? = some .tryStatement)) (context.clauseForest handlers) := by
  cases handlers with
  | nil => exact bears_nothing
  | cons first rest =>
      exact bears_branch rfl
        (bears_beside (bears_handlerForest context first) (bears_handlersForest context rest))
        (fun _ => EntityKind.standsBelow_of_home?)
        fun _ found laminar => admits_handlersForest rfl rfl found laminar

theorem bears_handlerForest (context : OutlineContext) (handler : Handler) :
    Yields (Bears source (·.home? = some .catchClauses)) (context.handlerForest handler) := by
  obtain ⟨span, types, name, body⟩ := handler
  obtain ⟨bodySpan, statements⟩ := body
  exact bears_statements rfl (by decide) (bears_forest context statements)

theorem bears_handlersForest (context : OutlineContext) (handlers : List Handler) :
    Yields (Bears source (·.home? = some .catchClauses)) (context.handlersForest handlers) := by
  cases handlers with
  | nil => exact bears_nothing
  | cons handler handlers =>
      exact bears_beside (bears_handlerForest context handler)
        (bears_handlersForest context handlers)

theorem bears_cleanupForest (context : OutlineContext) (cleanup : Option Block) :
    Yields (Bears source (·.home? = some .tryStatement)) (context.cleanupForest cleanup) := by
  cases cleanup with
  | none => exact bears_nothing
  | some body =>
      obtain ⟨span, statements⟩ := body
      exact bears_statements rfl (by decide) (bears_forest context statements)

end

end OutlineContext

namespace Outline

open Branch

/-- The entity of the node of a name. -/
def entity? (outline : Outline) (id : Nat) : Option Entity :=
  (outline.get? id).map (·.entity)

/-- Whether a node of an outline obeys the schema. -/
structure Obeys (outline : Outline) (id : Nat) (node : Node) : Prop where
  /-- The root stands for a method, and nothing else does. -/
  method_iff : node.entity.kind = .method ↔ id = 0
  /-- The node admits the entities right below it. -/
  admits : ∃ below, node.children.toList.map outline.entity? = below.map some ∧
    node.entity.Admits below
  /-- A part is a child of what it is a part of. -/
  part : ∀ home, node.entity.kind.home? = some home → ∃ parent above,
    node.parent = some parent ∧ outline.get? parent = some above ∧ id ∈ above.children ∧
      above.entity.kind = home

/-- Whether every node of an outline obeys the schema. -/
def Schematic (outline : Outline) : Prop :=
  ∀ id node, outline.get? id = some node → outline.Obeys id node

theorem HoldsAll.map_entity? {outline : Outline} {first parent : Nat} {branches : List Branch}
    (holds : outline.HoldsAll first parent branches) :
    (names first branches).map outline.entity? = (branches.map Branch.entity).map some := by
  induction branches generalizing first with
  | nil => rfl
  | cons branch branches induction =>
      obtain ⟨holds_branch, holds_later⟩ := holds
      obtain ⟨node, found, entity_eq⟩ := holds_branch.exists_node
      simp [names, entity?, found, entity_eq, induction holds_later]

mutual

theorem Holds.obeys {outline : Outline} {id parent : Nat} {branch : Branch} {above : Node}
    (positive : 0 < id) (holds : outline.Holds id parent branch) (schematic : branch.Schematic)
    (found_above : outline.get? parent = some above) (listed : id ∈ above.children)
    (stands : branch.entity.kind.StandsBelow above.entity.kind) :
    ∀ i < branch.count, ∃ node, outline.get? (id + i) = some node ∧
      outline.Obeys (id + i) node := by
  cases branch with
  | mk entity children =>
      obtain ⟨⟨index, found⟩, holds_children⟩ := holds
      obtain ⟨admits, stand_children, schematic_children⟩ := schematic
      intro i lt
      cases i with
      | zero =>
          refine ⟨_, found, ?_, ⟨_, holds_children.map_entity?, admits⟩, ?_⟩
          · exact ⟨fun is_method => (stands.1 is_method).elim, fun is_root => by omega⟩
          · intro home is_home
            exact ⟨parent, above, rfl, found_above, listed, stands.2 home is_home⟩
      | succ i =>
          have lt_children : i < countOf children := by
            simp only [count] at lt
            omega
          have obeys := holds_children.obeys (Nat.lt_add_right 1 positive) schematic_children found
            (fun _ member => List.mem_toArray.mpr member) stand_children i lt_children
          rwa [Nat.add_assoc, Nat.add_comm 1] at obeys

theorem HoldsAll.obeys {outline : Outline} {first parent : Nat} {branches : List Branch}
    {above : Node} (positive : 0 < first) (holds : outline.HoldsAll first parent branches)
    (schematic : AllSchematic branches) (found_above : outline.get? parent = some above)
    (listed : ∀ id ∈ names first branches, id ∈ above.children)
    (stands : ∀ branch ∈ branches, branch.entity.kind.StandsBelow above.entity.kind) :
    ∀ i < countOf branches, ∃ node, outline.get? (first + i) = some node ∧
      outline.Obeys (first + i) node := by
  cases branches with
  | nil => exact nofun
  | cons branch branches =>
      obtain ⟨holds_branch, holds_later⟩ := holds
      obtain ⟨schematic_branch, schematic_later⟩ := schematic
      intro i lt
      by_cases here : i < branch.count
      · exact holds_branch.obeys positive schematic_branch found_above
          (listed first List.mem_cons_self) (stands branch List.mem_cons_self) i here
      · have lt_later : i - branch.count < countOf branches := by
          simp only [countOf] at lt
          omega
        have obeys := holds_later.obeys (Nat.lt_add_right _ positive) schematic_later found_above
          (fun id member => listed id (List.mem_cons_of_mem first member))
          (fun other member => stands other (List.mem_cons_of_mem branch member)) _ lt_later
        rwa [Nat.add_assoc, Nat.add_sub_cancel' (Nat.le_of_not_lt here)] at obeys

end

/-- Statements that obey the schema make an outline that does, below the root of a method. -/
theorem schematic_graft {root : Entity} {branches : List Branch}
    (is_method : root.kind = .method) (free : ∀ branch ∈ branches, branch.entity.kind.IsFree)
    (schematic : AllSchematic branches) : ((ofRoot root).graft 0 branches).Schematic := by
  have root_found := get?_graft_ofRoot root branches
  have holds := holdsAll_graft_ofRoot root branches
  intro id node found
  cases id with
  | zero =>
      rw [root_found] at found
      cases found
      have has : root.kind.HasStatements := by
        rw [is_method]
        decide
      refine ⟨⟨fun _ => rfl, fun _ => is_method⟩, ⟨_, holds.map_entity?, ?_⟩, ?_⟩
      · exact Entity.admits_of_hasStatements has _
      · intro home is_home
        rw [is_method] at is_home
        cases is_home
  | succ i =>
      have lt_size : i + 1 < ((ofRoot root).graft 0 branches).size :=
        (Array.getElem?_eq_some_iff.mp found).1
      rw [size_graft, size_ofRoot] at lt_size
      obtain ⟨other, other_found, obeys⟩ := holds.obeys Nat.one_pos schematic root_found
        (fun _ member => List.mem_toArray.mpr member)
        (fun branch member => (free branch member).standsBelow _) i (by omega)
      rw [Nat.add_comm] at other_found obeys
      rw [found] at other_found
      cases other_found
      exact obeys

end Outline

/-- The branches of the body of a method that was read are laminar. -/
theorem Method.LaidOut.fit_forest {source : Source} {context : OutlineContext} {method : Method}
    {body : Block} {before after : Cursor} (laidOut : method.LaidOut before after)
    (order : before.InOrder source) (has_body : method.body = some body) :
    Branch.ForestFits source before.here after.behind (context.forest body.statements) := by
  obtain ⟨span, statements⟩ := body
  exact .between order (laidOut.body _ has_body) Block.LaidOut.reaches fun order inner =>
    .block order inner fun order inner => OutlineContext.fits_forest context order statements inner

/-- **Outlines obey the schema.** In the outline of a method, the root alone stands for a method,
leaves have no children, conditions and `try` statements have their parts as children in order, and
the parts of a statement stand nowhere else. -/
theorem outlineMethod_schematic {source : Source} {name : String} {verify : Bool}
    {outline : Outline} (outlined : (outlineMethod source name verify).result = .ok outline) :
    outline.Schematic := by
  obtain ⟨method, branches, found, rfl, grown⟩ := exists_of_outlineMethod_eq_ok outlined
  obtain ⟨before, after, reaches, laidOut⟩ := CompilationUnit.readAfter_of_findMethod? found
  have order := (Cursor.inOrder_start (Token.inOrder_scan source)).reaches reaches
  cases body_eq : method.body with
  | none =>
      rw [body_eq] at grown
      subst grown
      exact Outline.schematic_graft rfl nofun trivial
  | some body =>
      rw [body_eq] at grown
      have fit := laidOut.fit_forest order body_eq branches grown
      have bears : Branch.Bears source EntityKind.IsFree branches :=
        OutlineContext.bears_forest _ body.statements branches grown
      exact Outline.schematic_graft rfl bears.kinds (bears.schematic fit.laminar)

/-- A file with a method that has a condition and a `try`. -/
def partedSource : Source :=
  .ofString "class A{void f(){if(a);else;try{}catch(E e){}catch(F e){}}}"

/-- The outline of its method. -/
def partedOutline : Outline :=
  ⟨#[⟨⟨"f", .method, ⟨8, 57⟩⟩, none, 0, #[1, 4]⟩,
    ⟨⟨"a", .ifStatement, ⟨17, 27⟩⟩, some 0, 0, #[2, 3]⟩,
    ⟨⟨"a", .thenStatement, ⟨17, 27⟩⟩, some 1, 0, #[]⟩,
    ⟨⟨"a", .elseStatement, ⟨17, 27⟩⟩, some 1, 1, #[]⟩,
    ⟨⟨"", .tryStatement, ⟨28, 56⟩⟩, some 0, 1, #[5, 6]⟩,
    ⟨⟨"", .tryBody, ⟨31, 32⟩⟩, some 4, 0, #[]⟩,
    ⟨⟨"", .catchClauses, ⟨33, 56⟩⟩, some 4, 1, #[7, 8]⟩,
    ⟨⟨"E", .catchClause, ⟨33, 44⟩⟩, some 6, 0, #[]⟩,
    ⟨⟨"F", .catchClause, ⟨45, 56⟩⟩, some 6, 1, #[]⟩]⟩

theorem result_outlineMethod_partedSource :
    (outlineMethod partedSource "f" true).result = .ok partedOutline := by
  decide +kernel

theorem schematic_partedOutline :
    (outlineMethod partedSource "f" true).result = .ok partedOutline ∧ partedOutline.Schematic :=
  ⟨result_outlineMethod_partedSource, outlineMethod_schematic result_outlineMethod_partedSource⟩

end JavaOutline
