import JavaOutline.Proofs.Outline.Refinement
import JavaOutline.Proofs.Source.Slice

/-!
# What verification promises

The blocks here need not come from the source that they are outlined with, so their spans are
arbitrary. Verification finds no value that differs from its text, because a verbatim value is cut
out of the source under the same span; it can only find that a span does not fit. So a block that is
outlined with verification is outlined without it to the same nodes, all of which fit the source,
and verbatim nodes have the text under their extent in either case.
-/

namespace JavaOutline

/-- Whether a body was rejected because a value is not its source text. -/
def Rejection.isMismatch : Rejection → Bool
  | .rangeMismatch .. => true
  | _ => false

namespace Branch

mutual

/-- The entities of a branch, parents before children. -/
def entities : Branch → List Entity
  | .mk entity children => entity :: entitiesOf children

/-- The entities of some branches in order. -/
def entitiesOf : List Branch → List Entity
  | [] => []
  | branch :: branches => entities branch ++ entitiesOf branches

end

theorem entitiesOf_append (left right : List Branch) :
    entitiesOf (left ++ right) = entitiesOf left ++ entitiesOf right := by
  induction left with
  | nil => rfl
  | cons branch branches induction =>
      rw [List.cons_append, entitiesOf, entitiesOf, induction, List.append_assoc]

mutual

theorem map_entity_nodes (id parent index : Nat) (branch : Branch) :
    (nodes id parent index branch).map (·.entity) = entities branch := by
  cases branch with
  | mk entity children => rw [nodes, entities, List.map_cons, map_entity_nodesOf]

/-- The nodes of some branches have their entities. -/
theorem map_entity_nodesOf (first parent index : Nat) (branches : List Branch) :
    (nodesOf first parent index branches).map (·.entity) = entitiesOf branches := by
  cases branches with
  | nil => rfl
  | cons branch branches =>
      rw [nodesOf, entitiesOf, List.map_append, map_entity_nodes, map_entity_nodesOf]

end

end Branch

namespace OutlineContext

open Branch

/-- Whether something is true of all entities of some branches. -/
def AllEntities (holds : Entity → Prop) (branches : List Branch) : Prop :=
  ∀ entity ∈ entitiesOf branches, holds entity

variable {holds : Entity → Prop}

theorem allEntities_nil : Yields (AllEntities holds) (.ok []) := by
  rintro branches ⟨⟩
  exact nofun

theorem allEntities_beside {left right : Except Rejection (List Branch)}
    (holds_left : Yields (AllEntities holds) left)
    (holds_right : Yields (AllEntities holds) right) :
    Yields (AllEntities holds) (beside left right) := by
  intro branches found entity member
  obtain ⟨first, second, first_eq, second_eq, rfl⟩ := exists_of_beside_eq_ok found
  rw [entitiesOf_append] at member
  rcases List.mem_append.mp member with member | member
  · exact holds_left first first_eq entity member
  · exact holds_right second second_eq entity member

theorem allEntities_branch {context : OutlineContext} {kind : EntityKind} {value : String}
    {span : Span} {children : Except Rejection (List Branch)}
    (holds_own : span.start < span.stop → holds ⟨value, kind, ⟨span.start, span.stop - 1⟩⟩)
    (holds_children : Yields (AllEntities holds) children) :
    Yields (AllEntities holds) (context.branch kind value span children) := by
  intro branches found entity member
  obtain ⟨start_lt, inner, inner_eq, rfl⟩ := eq_of_branch_eq_ok found
  rw [entitiesOf, entities, entitiesOf, List.append_nil] at member
  cases member with
  | head => exact holds_own start_lt
  | tail _ member => exact holds_children inner inner_eq entity member

end OutlineContext

/-- A node that was grafted onto an outline has an entity of the branches. -/
theorem Outline.entity_mem_of_get?_graft {outline : Outline} {parent id : Nat}
    {branches : List Branch} {node : Node} (new : outline.size ≤ id)
    (found : (outline.graft parent branches).get? id = some node) :
    node.entity ∈ Branch.entitiesOf branches := by
  rw [← Nat.add_sub_cancel' new, get?_graft_new] at found
  rw [← Branch.map_entity_nodesOf outline.size parent (outline.children parent).length branches]
  exact List.mem_map_of_mem (List.mem_of_getElem? found)

namespace OutlineContext

open Branch

/-! ## Values -/

/-- Whether a value was found, or was rejected for some reason other than a mismatch. -/
def Agrees {α : Type} (value : Except Rejection α) : Prop :=
  ∀ rejection, value = .error rejection → rejection.isMismatch = false

theorem agrees_slice (context : OutlineContext) (span : Span) : Agrees (context.slice span) := by
  intro rejection found
  unfold slice at found
  split at found
  · cases found
  · cases found
    rfl

theorem agrees_render (context : OutlineContext) (expr : Expr) : Agrees (context.render expr) := by
  intro rejection found
  unfold render at found
  split at found
  · cases found
  · cases found
    rfl

theorem agrees_renderAll (context : OutlineContext) (exprs : List Expr) :
    Agrees (context.renderAll exprs) := by
  intro rejection found
  unfold renderAll at found
  split at found
  · cases found
  · cases found
    rfl

theorem agrees_tailText (context : OutlineContext) (expr : Expr) (statement : Span) :
    Agrees (context.tailText expr statement) := by
  intro rejection found
  unfold tailText at found
  split at found
  · cases found
    rfl
  · exact agrees_slice context _ rejection found

theorem agrees_expressionKind (context : OutlineContext) (expr : Expr) :
    Agrees (context.expressionKind expr) := by
  intro rejection found
  unfold expressionKind at found
  split at found <;> cases found
  rfl

theorem agrees_slices (context : OutlineContext) (spans : List Span) :
    Agrees (spans.mapM context.slice) := by
  induction spans with
  | nil => exact nofun
  | cons span spans induction =>
      intro rejection found
      rw [List.mapM_cons] at found
      cases first : context.slice span with
      | error rejection =>
          rw [first] at found
          cases found
          exact agrees_slice context span _ first
      | ok text =>
          rw [first] at found
          cases later : spans.mapM context.slice with
          | error rejection =>
              rw [later] at found
              cases found
              exact induction _ later
          | ok texts =>
              rw [later] at found
              cases found

/-! ## Entities -/

/-- An entity is found if its span is not empty and passes verification. -/
theorem entity_eq (context : OutlineContext) (kind : EntityKind) (value : String) (span : Span) :
    context.entity kind value span =
      if span.start < span.stop then
        match context.verify, context.source.slice? span with
        | true, none => .error (context.malformed span)
        | true, some actual =>
          if kind.isVerbatim && actual ≠ value then .error (.rangeMismatch kind value actual)
          else .ok ⟨value, kind, ⟨span.start, span.stop - 1⟩⟩
        | false, _ => .ok ⟨value, kind, ⟨span.start, span.stop - 1⟩⟩
      else .error (context.malformed span) := by
  unfold entity
  by_cases start_lt : span.start < span.stop
  · rw [Span.extent?_eq_some_iff.mpr ⟨start_lt, rfl⟩, if_pos start_lt]
    simp only [context.source.excerpt?_eq_slice? start_lt]
    cases context.verify with
    | false => rfl
    | true =>
        cases context.source.slice? span with
        | none => rfl
        | some actual =>
            rw [if_pos rfl]
            dsimp only
            split_ifs <;> rfl
  · rw [Span.extent?_eq_none_iff.mpr (Nat.le_of_not_lt start_lt), if_neg start_lt]

theorem agrees_entity {source : Source} {kind : EntityKind} {value : String} {span : Span}
    (honest : kind.isVerbatim = true → source.slice? span = some value) (verify : Bool) :
    Agrees ((⟨source, verify⟩ : OutlineContext).entity kind value span) := by
  intro rejection found
  rw [entity_eq] at found
  split_ifs at found
  · cases verify with
    | false => cases found
    | true =>
        cases sliced : source.slice? span with
        | none =>
            simp only [sliced] at found
            cases found
            rfl
        | some actual =>
            have equal : ¬(kind.isVerbatim && actual ≠ value) = true := by
              simp only [Bool.and_eq_true, decide_eq_true_eq, not_and, not_not]
              intro is_verbatim
              exact Option.some.inj (sliced.symm.trans (honest is_verbatim))
            simp only [sliced, if_neg equal] at found
            cases found
  · cases found
    rfl

theorem exists_slice?_of_entity {source : Source} {kind : EntityKind} {value : String} {span : Span}
    (found : ∃ entity, (⟨source, true⟩ : OutlineContext).entity kind value span = .ok entity) :
    ∃ text, source.slice? span = some text := by
  obtain ⟨entity, found⟩ := found
  cases sliced : source.slice? span with
  | none =>
      rw [entity_eq] at found
      split_ifs at found
      simp only [sliced] at found
      cases found
  | some text => exact ⟨text, rfl⟩

theorem exists_entity_of_branch {context : OutlineContext} {kind : EntityKind} {value : String}
    {span : Span} {children : Except Rejection (List Branch)} {branches : List Branch}
    (found : context.branch kind value span children = .ok branches) :
    ∃ entity, context.entity kind value span = .ok entity := by
  unfold branch at found
  cases made : context.entity kind value span with
  | error rejection =>
      rw [made] at found
      cases found
  | ok entity => exact ⟨entity, rfl⟩

theorem agrees_branch {context : OutlineContext} {kind : EntityKind} {value : String}
    {span : Span} {children : Except Rejection (List Branch)}
    (agrees : Agrees (context.entity kind value span)) (agrees_children : Agrees children) :
    Agrees (context.branch kind value span children) := by
  intro rejection found
  unfold branch at found
  cases made : context.entity kind value span with
  | error other =>
      rw [made] at found
      cases found
      exact agrees _ made
  | ok entity =>
      rw [made] at found
      cases children with
      | error other =>
          cases found
          exact agrees_children _ rfl
      | ok branches => cases found

/-! ## Forests -/

/-- What holds of the forest of some statements with verification and of the one without. -/
structure Checked (source : Source) (verified unverified : Except Rejection (List Branch)) :
    Prop where
  /-- With verification, no value is found to differ from its text. -/
  agrees_verified : Agrees verified
  /-- Nor is one without. -/
  agrees_unverified : Agrees unverified
  /-- Branches that pass verification are the same without it. -/
  same : ∀ branches, verified = .ok branches → unverified = .ok branches
  /-- Branches that pass verification fit the source. -/
  fits : ∀ branches, verified = .ok branches → ∀ entity ∈ entitiesOf branches,
    ∃ text, source.excerpt? entity.extent = some text
  /-- Verbatim values are the text under their extent. -/
  verbatim : ∀ branches, unverified = .ok branches → ∀ entity ∈ entitiesOf branches,
    entity.kind.isVerbatim = true → source.excerpt? entity.extent = some entity.value

namespace Checked

variable {source : Source} {verified unverified : Except Rejection (List Branch)}

theorem nothing : Checked source (.ok []) (.ok []) where
  agrees_verified := nofun
  agrees_unverified := nofun
  same _ := id
  fits := by
    rintro branches ⟨⟩
    exact nofun
  verbatim := by
    rintro branches ⟨⟩
    exact nofun

theorem rejected {rejection : Rejection} (agrees : rejection.isMismatch = false) :
    Checked source (.error rejection) (.error rejection) where
  agrees_verified := by
    rintro rejection ⟨⟩
    exact agrees
  agrees_unverified := by
    rintro rejection ⟨⟩
    exact agrees
  same := nofun
  fits := nofun
  verbatim := nofun

/-- A value that does not depend on verification is found first. -/
theorem bind {α : Type} {value other : Except Rejection α}
    {next next' : α → Except Rejection (List Branch)} (same_value : value = other)
    (agrees : Agrees value)
    (checked : ∀ found, value = .ok found → Checked source (next found) (next' found)) :
    Checked source (value >>= next) (other >>= next') := by
  subst same_value
  cases value with
  | error rejection => exact rejected (agrees rejection rfl)
  | ok found => exact checked found rfl

theorem agrees_beside {left right : Except Rejection (List Branch)} (agrees_left : Agrees left)
    (agrees_right : Agrees right) : Agrees (beside left right) := by
  intro rejection found
  cases left with
  | error other =>
      cases found
      exact agrees_left _ rfl
  | ok branches =>
      cases right with
      | error other =>
          cases found
          exact agrees_right _ rfl
      | ok others => cases found

theorem beside {left left' right right' : Except Rejection (List Branch)}
    (checked_left : Checked source left left') (checked_right : Checked source right right') :
    Checked source (OutlineContext.beside left right) (OutlineContext.beside left' right') where
  agrees_verified := agrees_beside checked_left.agrees_verified checked_right.agrees_verified
  agrees_unverified := agrees_beside checked_left.agrees_unverified checked_right.agrees_unverified
  same branches found := by
    obtain ⟨first, second, first_eq, second_eq, rfl⟩ := exists_of_beside_eq_ok found
    rw [checked_left.same first first_eq, checked_right.same second second_eq]
    rfl
  fits branches found entity member := by
    obtain ⟨first, second, first_eq, second_eq, rfl⟩ := exists_of_beside_eq_ok found
    rw [entitiesOf_append] at member
    rcases List.mem_append.mp member with member | member
    · exact checked_left.fits first first_eq entity member
    · exact checked_right.fits second second_eq entity member
  verbatim branches found entity member := by
    obtain ⟨first, second, first_eq, second_eq, rfl⟩ := exists_of_beside_eq_ok found
    rw [entitiesOf_append] at member
    rcases List.mem_append.mp member with member | member
    · exact checked_left.verbatim first first_eq entity member
    · exact checked_right.verbatim second second_eq entity member

/-- A node may have any value, unless it is verbatim: then it has the text under its span. -/
theorem branch {kind : EntityKind} {value : String} {span : Span}
    (honest : kind.isVerbatim = true → source.slice? span = some value)
    (checked : Checked source verified unverified) :
    Checked source ((⟨source, true⟩ : OutlineContext).branch kind value span verified)
      ((⟨source, false⟩ : OutlineContext).branch kind value span unverified) := by
  by_cases start_lt : span.start < span.stop
  · have plain : (⟨source, false⟩ : OutlineContext).entity kind value span =
        .ok ⟨value, kind, ⟨span.start, span.stop - 1⟩⟩ := by
      rw [entity_eq, if_pos start_lt]
    have excerpt_eq := source.excerpt?_eq_slice? start_lt
    refine
      { agrees_verified := agrees_branch (agrees_entity honest true) checked.agrees_verified
        agrees_unverified := agrees_branch (agrees_entity honest false) checked.agrees_unverified
        same := ?_
        fits := ?_
        verbatim := ?_ }
    · intro branches found
      obtain ⟨-, inner, inner_eq, rfl⟩ := eq_of_branch_eq_ok found
      rw [OutlineContext.branch, plain, checked.same inner inner_eq]
      rfl
    · intro branches found entity member
      have sliced := exists_slice?_of_entity (exists_entity_of_branch found)
      obtain ⟨-, inner, inner_eq, rfl⟩ := eq_of_branch_eq_ok found
      rw [entitiesOf, entities, entitiesOf, List.append_nil] at member
      cases member with
      | head => rwa [excerpt_eq]
      | tail _ member => exact checked.fits inner inner_eq entity member
    · intro branches found entity member is_verbatim
      obtain ⟨-, inner, inner_eq, rfl⟩ := eq_of_branch_eq_ok found
      rw [entitiesOf, entities, entitiesOf, List.append_nil] at member
      cases member with
      | head => rw [excerpt_eq, honest is_verbatim]
      | tail _ member => exact checked.verbatim inner inner_eq entity member is_verbatim
  · have empty (verify : Bool) (forest : Except Rejection (List Branch)) :
        (⟨source, verify⟩ : OutlineContext).branch kind value span forest =
          .error (.malformedRange span source.size) := by
      rw [OutlineContext.branch, entity_eq, if_neg start_lt]
      rfl
    rw [empty true, empty false]
    exact rejected rfl

/-- A node whose value is cut out under its own span has that text. -/
theorem verbatimLeaf {kind : EntityKind} (span : Span) :
    Checked source ((⟨source, true⟩ : OutlineContext).verbatimLeaf kind span)
      ((⟨source, false⟩ : OutlineContext).verbatimLeaf kind span) := by
  refine bind rfl (agrees_slice _ span) fun text found => branch (fun _ => ?_) nothing
  unfold slice at found
  split at found
  · next sliced =>
    cases found
    exact sliced
  · cases found

theorem leaf {kind : EntityKind} (value : String) (span : Span)
    (rendered : kind.isVerbatim = false) :
    Checked source ((⟨source, true⟩ : OutlineContext).leaf kind value span)
      ((⟨source, false⟩ : OutlineContext).leaf kind value span) :=
  branch (fun verbatim => by rw [rendered] at verbatim; cases verbatim) nothing

end Checked

variable (source : Source)

/-- The context that verifies extents. -/
abbrev verifying : OutlineContext := ⟨source, true⟩

/-- The context that does not. -/
abbrev trusting : OutlineContext := ⟨source, false⟩

theorem checked_labelForest (labels : List SwitchLabel) :
    Checked source ((verifying source).labelForest labels)
      ((trusting source).labelForest labels) := by
  induction labels with
  | nil => exact .nothing
  | cons label labels induction =>
      cases label with
      | case span values =>
          exact .bind rfl (agrees_renderAll _ values) fun text _ =>
            .beside (.leaf text span rfl) induction
      | default span => exact .beside (.leaf "default" span rfl) induction

mutual

theorem checked_stmtForest (stmt : Stmt) :
    Checked source ((verifying source).stmtForest stmt) ((trusting source).stmtForest stmt) := by
  cases stmt with
  | locals declaration => exact .verbatimLeaf declaration.span
  | localType span kind name => exact .verbatimLeaf span
  | expr span expr =>
      exact .bind rfl (agrees_expressionKind _ expr) fun kind _ => .verbatimLeaf span
  | constructorCall span target outer arguments => exact .verbatimLeaf span
  | assertion span condition message =>
      cases message with
      | none => exact .bind rfl (agrees_render _ condition) fun text _ => .leaf text span rfl
      | some message =>
          exact .bind rfl (agrees_render _ condition) fun text _ =>
            .bind rfl (agrees_render _ message) fun note _ => .leaf _ span rfl
  | jump span kind label => exact .leaf _ span (by cases kind <;> rfl)
  | returns span value =>
      cases value with
      | none => exact .leaf "" span rfl
      | some value =>
          exact .bind rfl (agrees_tailText _ value span) fun text _ => .leaf text span rfl
  | throws span value =>
      exact .bind rfl (agrees_tailText _ value span) fun text _ => .leaf text span rfl
  | conditional span condition whenTrue whenFalse =>
      cases whenFalse with
      | none =>
          exact .bind rfl (agrees_render _ condition) fun text _ =>
            .branch nofun (.branch nofun (checked_stmtForest whenTrue))
      | some whenFalse =>
          exact .bind rfl (agrees_render _ condition) fun text _ =>
            .branch nofun (.beside (.branch nofun (checked_stmtForest whenTrue))
              (.branch nofun (checked_stmtForest whenFalse)))
  | whileLoop span condition body =>
      exact .bind rfl (agrees_render _ condition) fun text _ =>
        .branch nofun (checked_stmtForest body)
  | doLoop span body condition =>
      exact .bind rfl (agrees_render _ condition) fun text _ =>
        .branch nofun (checked_stmtForest body)
  | forLoop span init condition update body =>
      cases condition with
      | none => exact .branch nofun (checked_stmtForest body)
      | some condition =>
          exact .bind rfl (agrees_render _ condition) fun text _ =>
            .branch nofun (checked_stmtForest body)
  | forEach span element collection body =>
      exact .bind rfl (agrees_render _ collection) fun text _ =>
        .branch nofun (checked_stmtForest body)
  | switch span selector groups =>
      exact .bind rfl (agrees_render _ selector) fun text _ =>
        .branch nofun (checked_groupForest groups)
  | synchronized span lock body =>
      obtain ⟨bodySpan, statements⟩ := body
      exact .bind rfl (agrees_render _ lock) fun text _ =>
        .branch nofun (checked_forest statements)
  | tries span resources body handlers cleanup =>
      obtain ⟨bodySpan, statements⟩ := body
      exact .bind rfl (agrees_slices _ resources) fun texts _ =>
        .branch nofun (.beside (.branch nofun (checked_forest statements))
          (.beside (checked_clauseForest handlers) (checked_cleanupForest cleanup)))
  | labeled span label body => exact .branch nofun (checked_stmtForest body)
  | block inner =>
      obtain ⟨span, statements⟩ := inner
      exact checked_forest statements
  | empty span => exact .nothing
  | unparsed span => exact .rejected rfl

theorem checked_forest (stmts : List Stmt) :
    Checked source ((verifying source).forest stmts) ((trusting source).forest stmts) := by
  cases stmts with
  | nil => exact .nothing
  | cons stmt stmts => exact .beside (checked_stmtForest stmt) (checked_forest stmts)

theorem checked_groupForest (groups : List SwitchGroup) :
    Checked source ((verifying source).groupForest groups)
      ((trusting source).groupForest groups) := by
  cases groups with
  | nil => exact .nothing
  | cons group groups =>
      obtain ⟨span, arrow, labels, statements⟩ := group
      exact .beside (checked_labelForest source labels)
        (.beside (checked_forest statements) (checked_groupForest groups))

theorem checked_clauseForest (handlers : List Handler) :
    Checked source ((verifying source).clauseForest handlers)
      ((trusting source).clauseForest handlers) := by
  cases handlers with
  | nil => exact .nothing
  | cons first rest =>
      exact .branch nofun (.beside (checked_handlerForest first) (checked_handlersForest rest))

theorem checked_handlerForest (handler : Handler) :
    Checked source ((verifying source).handlerForest handler)
      ((trusting source).handlerForest handler) := by
  obtain ⟨span, types, name, body⟩ := handler
  obtain ⟨bodySpan, statements⟩ := body
  exact .branch nofun (checked_forest statements)

theorem checked_handlersForest (handlers : List Handler) :
    Checked source ((verifying source).handlersForest handlers)
      ((trusting source).handlersForest handlers) := by
  cases handlers with
  | nil => exact .nothing
  | cons handler handlers =>
      exact .beside (checked_handlerForest handler) (checked_handlersForest handlers)

theorem checked_cleanupForest (cleanup : Option Block) :
    Checked source ((verifying source).cleanupForest cleanup)
      ((trusting source).cleanupForest cleanup) := by
  cases cleanup with
  | none => exact .nothing
  | some body =>
      obtain ⟨span, statements⟩ := body
      exact .branch nofun (checked_forest statements)

end

end OutlineContext

/-- Outlining a block below a node ends as its forest does, and grafts a forest if there is one. -/
theorem outlineBlock_outcome (context : OutlineContext) {outline : Outline} {parent : Nat}
    (inside : parent < outline.size) (block : Block) (events : Array Event) :
    let run := (outlineBlock context parent block).run.run ⟨outline, events⟩
    run.1 = Builder.outcome (context.forest block.statements) ∧
      ∀ branches, context.forest block.statements = .ok branches →
        run.2.outline = outline.graft parent branches := by
  intro run
  obtain ⟨grown, later, ran, complete⟩ :=
    (Builder.builds_addStmts context parent block.statements).inside ⟨outline, events⟩ inside
  have run_eq : run = _ := run_outlineBlock context parent block ⟨outline, events⟩
  rw [ran] at run_eq
  cases forest_eq : context.forest block.statements with
  | ok branches =>
      rw [forest_eq] at run_eq
      rw [run_eq]
      refine ⟨rfl, ?_⟩
      rintro others ⟨⟩
      rw [← complete branches forest_eq]
      rfl
  | error rejection =>
      rw [forest_eq] at run_eq
      rw [run_eq]
      exact ⟨rfl, nofun⟩

theorem exists_forest_of_outlineBlock (context : OutlineContext) {outline : Outline} {parent : Nat}
    (inside : parent < outline.size) {block : Block} {events : Array Event}
    (outlined : ((outlineBlock context parent block).run.run ⟨outline, events⟩).1 = .ok ()) :
    ∃ branches, context.forest block.statements = .ok branches ∧
      ((outlineBlock context parent block).run.run ⟨outline, events⟩).2.outline =
        outline.graft parent branches := by
  obtain ⟨result_eq, outline_eq⟩ := outlineBlock_outcome context inside block events
  cases forest_eq : context.forest block.statements with
  | ok branches => exact ⟨branches, rfl, outline_eq branches forest_eq⟩
  | error rejection =>
      rw [forest_eq] at result_eq
      cases result_eq.symm.trans outlined

/-- **Verification is sound for any block.** It never finds a value that differs from its text; a
block that passes it has nodes that fit the source, and the same nodes without verification; and
verbatim nodes have the text under their extent in either case. -/
theorem outlineBlock_verified (source : Source) {outline : Outline} {parent : Nat}
    (inside : parent < outline.size) (block : Block) (events : Array Event) :
    let run (verify : Bool) :=
      (outlineBlock ⟨source, verify⟩ parent block).run.run ⟨outline, events⟩
    let created (verify : Bool) (node : Node) :=
      ∃ id, outline.size ≤ id ∧ (run verify).2.outline.get? id = some node
    (∀ verify kind expected actual,
      (run verify).1 ≠ .error (.rejected (.rangeMismatch kind expected actual))) ∧
    ((run true).1 = .ok () →
      (∀ node, created true node →
        node.entity.extent.first ≤ node.entity.extent.last ∧
          node.entity.extent.last < source.size ∧
          ∃ text, source.excerpt? node.entity.extent = some text) ∧
      (run false).1 = .ok () ∧ (run false).2.outline = (run true).2.outline) ∧
    ∀ verify, (run verify).1 = .ok () → ∀ node, created verify node →
      node.entity.kind.isVerbatim = true →
        source.excerpt? node.entity.extent = some node.entity.value := by
  intro run created
  have checked := OutlineContext.checked_forest source block.statements
  have outcomes (verify : Bool) := outlineBlock_outcome ⟨source, verify⟩ inside block events
  refine ⟨?_, ?_, ?_⟩
  · intro verify kind expected actual stopped
    have agrees : OutlineContext.Agrees
        ((⟨source, verify⟩ : OutlineContext).forest block.statements) := by
      cases verify with
      | true => exact checked.agrees_verified
      | false => exact checked.agrees_unverified
    have stopped := (outcomes verify).1.symm.trans stopped
    cases forest_eq : (⟨source, verify⟩ : OutlineContext).forest block.statements with
    | ok branches =>
        rw [forest_eq] at stopped
        cases stopped
    | error rejection =>
        rw [forest_eq] at stopped
        cases stopped
        cases agrees _ forest_eq
  · intro outlined
    obtain ⟨branches, forest_eq, outline_eq⟩ :=
      exists_forest_of_outlineBlock ⟨source, true⟩ inside outlined
    have unverified := checked.same branches forest_eq
    refine ⟨?_, ?_, ?_⟩
    · rintro node ⟨id, new, node_found⟩
      rw [outline_eq] at node_found
      obtain ⟨text, excerpt_eq⟩ :=
        checked.fits branches forest_eq _ (Outline.entity_mem_of_get?_graft new node_found)
      obtain ⟨first_le, last_lt⟩ := Source.bounds_of_excerpt? excerpt_eq
      exact ⟨first_le, last_lt, text, excerpt_eq⟩
    · refine (outcomes false).1.trans ?_
      rw [unverified]
      rfl
    · exact ((outcomes false).2 branches unverified).trans outline_eq.symm
  · rintro verify outlined node ⟨id, new, node_found⟩ is_verbatim
    obtain ⟨branches, forest_eq, outline_eq⟩ :=
      exists_forest_of_outlineBlock ⟨source, verify⟩ inside outlined
    rw [outline_eq] at node_found
    have unverified :
        (⟨source, false⟩ : OutlineContext).forest block.statements = .ok branches := by
      cases verify with
      | true => exact checked.same branches forest_eq
      | false => exact forest_eq
    exact checked.verbatim branches unverified _
      (Outline.entity_mem_of_get?_graft new node_found) is_verbatim

/-- The text `é++;`. -/
def accentedSource : Source := .ofString "é++;"

/-- A block with the statement that fills it. -/
def accentedBlock : Block :=
  .mk ⟨0, 0⟩ [.expr ⟨0, 5⟩ (.update ⟨0, 4⟩ .increment (.name ⟨0, 2⟩ "é"))]

/-- The outline of its statement below a root. -/
def accentedOutline : Outline :=
  ⟨#[⟨⟨"f", .method, ⟨0, 0⟩⟩, none, 0, #[1]⟩,
    ⟨⟨"é++;", .postfixExpression, ⟨0, 4⟩⟩, some 0, 0, #[]⟩]⟩

theorem outlineBlock_accentedBlock :
    let root := Outline.ofRoot ⟨"f", .method, ⟨0, 0⟩⟩
    let run (verify : Bool) :=
      (outlineBlock ⟨accentedSource, verify⟩ 0 accentedBlock).run.run ⟨root, #[]⟩
    0 < root.size ∧ (run true).1 = .ok () ∧ (run false).2.outline = (run true).2.outline ∧
      accentedSource.excerpt? ⟨0, 4⟩ = some "é++;" := by
  intro root run
  have inside : 0 < root.size := Nat.one_pos
  have outlined : (run true).1 = .ok () ∧ (run true).2.outline = accentedOutline := ⟨rfl, rfl⟩
  obtain ⟨-, verified, verbatim⟩ := outlineBlock_verified accentedSource inside accentedBlock #[]
  refine ⟨inside, outlined.1, (verified outlined.1).2.2, ?_⟩
  exact verbatim true outlined.1 ⟨⟨"é++;", .postfixExpression, ⟨0, 4⟩⟩, some 0, 0, #[]⟩
    ⟨1, Nat.le_refl _, by rw [show _ = accentedOutline from outlined.2]; rfl⟩ rfl

end JavaOutline
