import JavaOutline.Proofs.Outline.Forest
import JavaOutline.Proofs.Outline.Graft

/-!
# Outlining builds the forest

A builder that adds statements below a node grafts exactly their forest there, or, if the forest is
a rejection, stops with that rejection after grafting some part of it. Below a name that is not in
the outline it changes nothing at all. `Builds` says both, and it is proved rule by rule along the
statements. Taking back what was grafted then makes the outlining of a block all or nothing.
-/

namespace JavaOutline

namespace Builder

theorem run_bind {α β : Type} (action : Builder α) (next : α → Builder β) (draft : Draft) :
    (action >>= next).run.run draft =
      match action.run.run draft with
      | (.ok value, later) => (next value).run.run later
      | (.error stop, later) => (.error stop, later) := by
  simp only [bind, ExceptT.bind, ExceptT.bindCont, ExceptT.run, ExceptT.mk, StateT.bind, StateT.run]
  cases action draft with
  | mk result later => cases result <;> rfl

theorem run_createChild (parent : Nat) (entity : Entity) (draft : Draft) :
    (createChild parent entity).run.run draft =
      match draft.outline.createChild parent entity with
      | .ok (id, outline) => (.ok id, { draft with outline })
      | .error fault => (.error (.fault fault), draft) := by
  unfold createChild
  rw [run_bind]
  simp only [get, getThe]
  change (match draft.outline.createChild parent entity with
    | .ok (id, outline) => _
    | .error fault => _ : Builder Nat).run.run draft = _
  cases draft.outline.createChild parent entity <;> rfl

/-- How a builder ends that is to add some branches. -/
def outcome : Except Rejection (List Branch) → Except Stop Unit
  | .ok _ => .ok ()
  | .error rejection => .error (.rejected rejection)

/-- A builder adds a forest below `parent`: all of it if there is no rejection, and otherwise some
part of it. Where `parent` is not in the outline, the outline stays as it is. -/
structure Builds (action : Builder Unit) (parent : Nat) (forest : Except Rejection (List Branch)) :
    Prop where
  /-- Below a node of the outline, branches are grafted. -/
  inside : ∀ draft : Draft, parent < draft.outline.size → ∃ grown events,
    action.run.run draft = (outcome forest, ⟨draft.outline.graft parent grown, events⟩) ∧
      ∀ branches, forest = .ok branches → grown = branches
  /-- Below nothing, nothing is added. -/
  outside : ∀ draft : Draft, draft.outline.size ≤ parent →
    (action.run.run draft).2.outline = draft.outline

namespace Builds

variable {parent : Nat} {forest : Except Rejection (List Branch)}

theorem nothing (parent : Nat) : Builds (pure ()) parent (.ok []) where
  inside draft _ := by
    refine ⟨[], draft.events, ?_, ?_⟩
    · rw [Outline.graft_nil]
      rfl
    · rintro branches ⟨⟩
      rfl
  outside _ _ := rfl

theorem rejected (parent : Nat) (rejection : Rejection) :
    Builds (throw (.rejected rejection)) parent (.error rejection) where
  inside draft _ := by
    refine ⟨[], draft.events, ?_, ?_⟩
    · rw [Outline.graft_nil]
      rfl
    · rintro branches ⟨⟩
  outside _ _ := rfl

/-- An event leaves the outline alone. -/
theorem report {action : Builder Unit} (event : Event) (builds : Builds action parent forest) :
    Builds (do JavaOutline.report event; action) parent forest where
  inside draft below :=
    builds.inside { draft with events := draft.events.push event } below
  outside draft above :=
    builds.outside { draft with events := draft.events.push event } above

/-- A value that may be rejected is found before anything is added. -/
theorem ofExcept {α : Type} {next : α → Builder Unit}
    {forest : α → Except Rejection (List Branch)} (value : Except Rejection α)
    (builds : ∀ found, Builds (next found) parent (forest found)) :
    Builds (Builder.ofExcept value >>= next) parent (value >>= forest) := by
  cases value with
  | ok found => exact builds found
  | error rejection => exact rejected parent rejection

/-- One builder after another adds one forest beside the other. -/
theorem beside {first second : Builder Unit} {left right : Except Rejection (List Branch)}
    (builds_left : Builds first parent left) (builds_right : Builds second parent right) :
    Builds (do first; second) parent (OutlineContext.beside left right) where
  inside draft below := by
    obtain ⟨grown, events, ran, complete⟩ := builds_left.inside draft below
    cases left with
    | error rejection =>
        refine ⟨grown, events, ?_, ?_⟩
        · rw [run_bind, ran]
          rfl
        · rintro branches ⟨⟩
    | ok branches =>
        obtain rfl := complete branches rfl
        have below' : parent < (draft.outline.graft parent grown).size := by
          rw [Outline.size_graft]
          omega
        obtain ⟨later, events', ran', complete'⟩ :=
          builds_right.inside ⟨draft.outline.graft parent grown, events⟩ below'
        refine ⟨grown ++ later, events', ?_, ?_⟩
        · rw [run_bind, ran]
          simp only [outcome]
          rw [ran', Outline.graft_graft below]
          cases right <;> rfl
        · cases right with
          | error rejection => rintro branches ⟨⟩
          | ok others =>
              obtain rfl := complete' others rfl
              rintro branches ⟨⟩
              rfl
  outside draft above := by
    have kept := builds_left.outside draft above
    rw [run_bind]
    split
    · rename_i later ran
      rw [ran] at kept
      exact (builds_right.outside later (kept ▸ above)).trans kept
    · rename_i later ran
      rw [ran] at kept
      exact kept

/-- A node is added first, and the branches below it after that. -/
theorem child {next : Nat → Builder Unit} (entity : Entity)
    (builds : ∀ id, Builds (next id) id forest) :
    Builds (createChild parent entity >>= next) parent
      (do return [.mk entity (← forest)]) where
  inside draft below := by
    have below' : draft.outline.size < (draft.outline.graft parent [.mk entity []]).size := by
      rw [Outline.size_graft]
      simp [Branch.countOf, Branch.count]
    obtain ⟨grown, events, ran, complete⟩ :=
      (builds draft.outline.size).inside ⟨draft.outline.graft parent [.mk entity []], _⟩ below'
    refine ⟨[.mk entity grown], events, ?_, ?_⟩
    · rw [run_bind, run_createChild, Outline.createChild_eq_graft below]
      simp only
      rw [ran, Outline.graft_below, List.nil_append]
      cases forest <;> rfl
    · cases forest with
      | error rejection => rintro branches ⟨⟩
      | ok others =>
          obtain rfl := complete others rfl
          rintro branches ⟨⟩
          rfl
  outside draft above := by
    rw [run_bind, run_createChild, Outline.createChild_eq_error above]

/-- So it is for a node whose span may have no extent. -/
theorem branch {next : Nat → Builder Unit} (context : OutlineContext) (kind : EntityKind)
    (value : String) (span : Span) (builds : ∀ id, Builds (next id) id forest) :
    Builds (addNode context parent kind value span >>= next) parent
      (context.branch kind value span forest) := by
  rw [addNode, bind_assoc]
  exact ofExcept _ fun entity => child entity builds

/-- A node with branches below it is followed by what stands beside it. -/
theorem branchBeside {inner : Nat → Builder Unit} {rest : Builder Unit}
    {others : Except Rejection (List Branch)} (context : OutlineContext) (kind : EntityKind)
    (value : String) (span : Span) (builds : ∀ id, Builds (inner id) id forest)
    (builds_rest : Builds rest parent others) :
    Builds (do let id ← addNode context parent kind value span; inner id; rest) parent
      (OutlineContext.beside (context.branch kind value span forest) others) := by
  have joined := beside (branch context kind value span builds) builds_rest
  rwa [bind_assoc] at joined

theorem leaf (context : OutlineContext) (kind : EntityKind) (value : String) (span : Span) :
    Builds (discard (addNode context parent kind value span)) parent
      (context.leaf kind value span) := by
  exact branch context kind value span fun id => nothing id

theorem verbatimLeaf (context : OutlineContext) (kind : EntityKind) (span : Span) :
    Builds (addVerbatim context parent kind span) parent (context.verbatimLeaf kind span) :=
  ofExcept _ fun value => leaf context kind value span

end Builds

theorem builds_addLabels (context : OutlineContext) (parent : Nat) (labels : List SwitchLabel) :
    Builds (addLabels context parent labels) parent (context.labelForest labels) := by
  induction labels with
  | nil => exact .nothing parent
  | cons label labels induction =>
      cases label with
      | case span values =>
          exact .ofExcept _ fun text => .beside (.leaf context _ text span) induction
      | default span => exact .beside (.leaf context _ "default" span) induction

mutual

theorem builds_addStmt (context : OutlineContext) (parent : Nat) (stmt : Stmt) :
    Builds (addStmt context parent stmt) parent (context.stmtForest stmt) := by
  cases stmt with
  | locals declaration => exact .verbatimLeaf context _ declaration.span
  | localType span kind name => exact .verbatimLeaf context _ span
  | expr span expr => exact .ofExcept _ fun kind => .verbatimLeaf context kind span
  | constructorCall span target outer arguments => exact .verbatimLeaf context _ span
  | assertion span condition message =>
      cases message with
      | none => exact .ofExcept _ fun text => .leaf context _ text span
      | some message =>
          exact .ofExcept _ fun text => .ofExcept _ fun note => .leaf context _ _ span
  | jump span kind label => exact .leaf context _ _ span
  | returns span value =>
      cases value with
      | none => exact .leaf context _ "" span
      | some value => exact .ofExcept _ fun text => .leaf context _ text span
  | throws span value => exact .ofExcept _ fun text => .leaf context _ text span
  | conditional span condition whenTrue whenFalse =>
      cases whenFalse with
      | none =>
          exact .ofExcept _ fun text => .branch context _ text span fun node =>
            .branch context _ text span fun branch =>
              .report _ (builds_addStmt context branch whenTrue)
      | some whenFalse =>
          exact .ofExcept _ fun text => .branch context _ text span fun node =>
            .branchBeside context _ text span
              (fun branch => .report _ (builds_addStmt context branch whenTrue))
              (.branch context _ text span fun branch =>
                .report _ (builds_addStmt context branch whenFalse))
  | whileLoop span condition body =>
      exact .ofExcept _ fun text => .branch context _ text span fun id =>
        .report _ (builds_addStmt context id body)
  | doLoop span body condition =>
      exact .ofExcept _ fun text => .branch context _ text span fun id =>
        .report _ (builds_addStmt context id body)
  | forLoop span init condition update body =>
      cases condition with
      | none =>
          exact .branch context _ "" span fun id => .report _ (builds_addStmt context id body)
      | some condition =>
          exact .ofExcept _ fun text => .branch context _ text span fun id =>
            .report _ (builds_addStmt context id body)
  | forEach span element collection body =>
      exact .ofExcept _ fun text => .branch context _ _ span fun id =>
        .report _ (builds_addStmt context id body)
  | switch span selector groups =>
      exact .ofExcept _ fun text => .branch context _ text span fun id =>
        builds_addGroups context id groups
  | synchronized span lock body =>
      obtain ⟨bodySpan, statements⟩ := body
      exact .ofExcept _ fun text => .branch context _ text span fun id =>
        builds_addStmts context id statements
  | tries span resources body handlers cleanup =>
      obtain ⟨bodySpan, statements⟩ := body
      exact .ofExcept _ fun texts => .branch context _ _ span fun node =>
        .branchBeside context _ "" bodySpan
          (fun body => builds_addStmts context body statements)
          (.beside (builds_addClauses context node handlers)
            (builds_addCleanup context node cleanup))
  | labeled span label body =>
      exact .branch context _ label.text span fun id => .report _ (builds_addStmt context id body)
  | block inner =>
      obtain ⟨span, statements⟩ := inner
      exact builds_addStmts context parent statements
  | empty span => exact .nothing parent
  | unparsed span => exact .rejected parent _

theorem builds_addStmts (context : OutlineContext) (parent : Nat) (stmts : List Stmt) :
    Builds (addStmts context parent stmts) parent (context.forest stmts) := by
  cases stmts with
  | nil => exact .nothing parent
  | cons stmt stmts =>
      exact .beside (.report _ (builds_addStmt context parent stmt))
        (builds_addStmts context parent stmts)

theorem builds_addGroups (context : OutlineContext) (parent : Nat) (groups : List SwitchGroup) :
    Builds (addGroups context parent groups) parent (context.groupForest groups) := by
  cases groups with
  | nil => exact .nothing parent
  | cons group groups =>
      obtain ⟨span, arrow, labels, statements⟩ := group
      exact .beside (builds_addLabels context parent labels)
        (.beside (builds_addStmts context parent statements)
          (builds_addGroups context parent groups))

theorem builds_addClauses (context : OutlineContext) (parent : Nat) (handlers : List Handler) :
    Builds (addClauses context parent handlers) parent (context.clauseForest handlers) := by
  cases handlers with
  | nil => exact .nothing parent
  | cons first rest =>
      exact .branch context _ "" _ fun id =>
        .beside (builds_addHandler context id first) (builds_addHandlers context id rest)

theorem builds_addHandler (context : OutlineContext) (parent : Nat) (handler : Handler) :
    Builds (addHandler context parent handler) parent (context.handlerForest handler) := by
  obtain ⟨span, types, name, body⟩ := handler
  obtain ⟨bodySpan, statements⟩ := body
  exact .branch context _ _ span fun id => builds_addStmts context id statements

theorem builds_addHandlers (context : OutlineContext) (parent : Nat) (handlers : List Handler) :
    Builds (addHandlers context parent handlers) parent (context.handlersForest handlers) := by
  cases handlers with
  | nil => exact .nothing parent
  | cons handler handlers =>
      exact .beside (builds_addHandler context parent handler)
        (builds_addHandlers context parent handlers)

theorem builds_addCleanup (context : OutlineContext) (parent : Nat) (cleanup : Option Block) :
    Builds (addCleanup context parent cleanup) parent (context.cleanupForest cleanup) := by
  cases cleanup with
  | none => exact .nothing parent
  | some block =>
      obtain ⟨span, statements⟩ := block
      exact .branch context _ "" span fun id => builds_addStmts context id statements

end

end Builder

/-- Outlining a block adds its statements, and takes back what was added if one is rejected. -/
theorem run_outlineBlock (context : OutlineContext) (parent : Nat) (block : Block)
    (draft : Draft) :
    (outlineBlock context parent block).run.run draft =
      match (Builder.addStmts context parent block.statements).run.run draft with
      | (.ok (), later) =>
        (.ok (),
          ⟨later.outline, later.events.push
            (.outlinedBlock block.statements.length (later.outline.size - draft.outline.size))⟩)
      | (.error (.rejected rejection), later) =>
        (.error (.rejected rejection),
          ⟨later.outline.truncate draft.outline.size, later.events.push (.rejected rejection)⟩)
      | (.error (.fault fault), later) => (.error (.fault fault), later) := by
  rw [outlineBlock]
  generalize Builder.addStmts context parent block.statements = action
  simp only [ExceptT.run_mk, StateT.run_bind, StateT.run_get, pure_bind]
  cases action.run.run draft with
  | mk result later =>
      cases result with
      | ok value => rfl
      | error stop => cases stop <;> rfl

/-- Outlining a block grafts its forest, or leaves the outline as it was and stops with the
rejection that the forest is. -/
theorem outlineBlock_eq_graft (context : OutlineContext) {outline : Outline}
    (closed : outline.IsClosed) {parent : Nat} (inside : parent < outline.size) (block : Block)
    (events : Array Event) :
    ∃ events', (outlineBlock context parent block).run.run ⟨outline, events⟩ =
      match context.forest block.statements with
      | .ok branches => (.ok (), ⟨outline.graft parent branches, events'⟩)
      | .error rejection => (.error (.rejected rejection), ⟨outline, events'⟩) := by
  obtain ⟨grown, later, ran, complete⟩ :=
    (Builder.builds_addStmts context parent block.statements).inside ⟨outline, events⟩ inside
  rw [run_outlineBlock, ran]
  cases found : context.forest block.statements with
  | ok branches =>
      obtain rfl := complete branches found
      exact ⟨_, rfl⟩
  | error rejection =>
      simp only [Builder.outcome]
      rw [closed.truncate_graft]
      exact ⟨_, rfl⟩

/-- Below a name that is not in the outline, outlining a block changes nothing. -/
theorem outline_outlineBlock_of_le (context : OutlineContext) {outline : Outline} {parent : Nat}
    (outside : outline.size ≤ parent) (block : Block) (events : Array Event) :
    ((outlineBlock context parent block).run.run ⟨outline, events⟩).2.outline = outline := by
  have kept := (Builder.builds_addStmts context parent block.statements).outside
    ⟨outline, events⟩ outside
  rw [run_outlineBlock]
  split
  · rename_i later ran
    rw [ran] at kept
    exact kept
  · rename_i rejection later ran
    rw [ran] at kept
    have size_le : later.outline.size ≤ max outline.size 1 := by
      rw [kept]
      exact Nat.le_max_left _ _
    simp only [Outline.truncate]
    rw [if_pos size_le]
    exact kept
  · rename_i fault later ran
    rw [ran] at kept
    exact kept

/-- Outlining a block below a node succeeds if and only if the block has a forest. It adds the
nodes of the forest and changes nothing else; a rejection is the one of the forest, and leaves the
outline as it was. -/
theorem outlineBlock_refines_forest (context : OutlineContext) {outline : Outline}
    (closed : outline.IsClosed) {parent : Nat} (inside : parent < outline.size) (block : Block)
    (events : Array Event) :
    ∃ result draft,
      (outlineBlock context parent block).run.run ⟨outline, events⟩ = (result, draft) ∧
      match context.forest block.statements with
      | .ok branches => result = .ok () ∧ outline.Grafted parent branches draft.outline
      | .error rejection => result = .error (.rejected rejection) ∧ draft.outline = outline := by
  obtain ⟨later, ran⟩ := outlineBlock_eq_graft context closed inside block events
  rw [ran]
  cases context.forest block.statements with
  | ok branches => exact ⟨_, _, rfl, rfl, outline.grafted_graft parent branches⟩
  | error rejection => exact ⟨_, _, rfl, rfl, rfl⟩

/-- The block `{ if (x) break; else continue; }`. -/
def branchingBlock : Block :=
  .mk ⟨0, 32⟩ [.conditional ⟨2, 30⟩ (.name ⟨6, 7⟩ "x") (.jump ⟨9, 15⟩ .break none)
    (some (.jump ⟨21, 30⟩ .continue none))]

/-- Its branches: an `if` over its two alternatives. -/
def branchingForest : List Branch :=
  [.mk ⟨"x", .ifStatement, ⟨2, 29⟩⟩
    [.mk ⟨"x", .thenStatement, ⟨2, 29⟩⟩ [.mk ⟨"", .breakStatement, ⟨9, 14⟩⟩ []],
     .mk ⟨"x", .elseStatement, ⟨2, 29⟩⟩ [.mk ⟨"", .continueStatement, ⟨21, 29⟩⟩ []]]]

/-- The text of the block, with extents to be verified. -/
def branchingContext : OutlineContext := ⟨.ofString "{ if (x) break; else continue; }", true⟩

theorem forest_branchingBlock :
    branchingContext.forest branchingBlock.statements = .ok branchingForest := rfl

theorem outlineBlock_branchingBlock :
    let outline := Outline.ofRoot ⟨"run", .method, ⟨0, 31⟩⟩
    outline.IsClosed ∧ 0 < outline.size ∧ ∃ result draft,
      (outlineBlock branchingContext 0 branchingBlock).run.run ⟨outline, #[]⟩ = (result, draft) ∧
        result = .ok () ∧ outline.Grafted 0 branchingForest draft.outline := by
  intro outline
  have closed : outline.IsClosed := Outline.isClosed_ofRoot _
  obtain ⟨result, draft, ran, refined⟩ :=
    outlineBlock_refines_forest branchingContext closed closed.root branchingBlock #[]
  rw [forest_branchingBlock] at refined
  exact ⟨closed, closed.root, result, draft, ran, refined⟩

end JavaOutline
