import JavaOutline.Proofs.Outline.Refinement

/-!
# All or nothing

Every outline that can be made by adding nodes and outlining blocks, rejected ones among them, is
closed: the children of its nodes are nodes of it. In such an outline the nodes that a rejected
block left behind can be told from the others by their names, so taking them back restores the
outline exactly.
-/

namespace JavaOutline

namespace Outline

/-- The outlines that can be made from a root by adding single nodes and by outlining blocks,
whether or not these are rejected. -/
inductive Reachable : Outline → Prop
  | root (entity : Entity) : Reachable (ofRoot entity)
  | node {outline grown : Outline} {parent id : Nat} {entity : Entity} :
      Reachable outline → outline.createChild parent entity = .ok (id, grown) → Reachable grown
  | block {outline : Outline} (context : OutlineContext) (parent : Nat) (block : Block)
      (events : Array Event) :
      Reachable outline →
      Reachable ((outlineBlock context parent block).run.run ⟨outline, events⟩).2.outline

theorem IsClosed.createChild {outline grown : Outline} {parent id : Nat} {entity : Entity}
    (closed : outline.IsClosed) (created : outline.createChild parent entity = .ok (id, grown)) :
    grown.IsClosed := by
  by_cases inside : parent < outline.size
  · rw [createChild_eq_graft inside] at created
    cases created
    exact closed.graft parent [.mk entity []]
  · rw [createChild_eq_error (Nat.le_of_not_lt inside)] at created
    cases created

theorem IsClosed.outlineBlock {outline : Outline} (closed : outline.IsClosed)
    (context : OutlineContext) (parent : Nat) (block : Block) (events : Array Event) :
    ((JavaOutline.outlineBlock context parent block).run.run
      ⟨outline, events⟩).2.outline.IsClosed := by
  by_cases inside : parent < outline.size
  · obtain ⟨later, ran⟩ := outlineBlock_eq_graft context closed inside block events
    rw [ran]
    cases context.forest block.statements with
    | ok branches => exact closed.graft parent branches
    | error rejection => exact closed
  · rw [outline_outlineBlock_of_le context (Nat.le_of_not_lt inside)]
    exact closed

theorem Reachable.isClosed {outline : Outline} (reachable : outline.Reachable) :
    outline.IsClosed := by
  induction reachable with
  | root entity => exact isClosed_ofRoot entity
  | node _ created closed => exact closed.createChild created
  | block context parent block events _ closed =>
      exact closed.outlineBlock context parent block events

end Outline

/-- A block that is not outlined leaves no trace, wherever it was to be added and however far
outlining came. -/
theorem outlineBlock_all_or_nothing {outline : Outline} (reachable : outline.Reachable)
    (context : OutlineContext) (parent : Nat) (block : Block) (events : Array Event)
    (stopped : ((outlineBlock context parent block).run.run ⟨outline, events⟩).1 ≠ .ok ()) :
    ((outlineBlock context parent block).run.run ⟨outline, events⟩).2.outline = outline := by
  by_cases inside : parent < outline.size
  · obtain ⟨later, ran⟩ :=
      outlineBlock_eq_graft context reachable.isClosed inside block events
    rw [ran] at stopped ⊢
    cases found : context.forest block.statements with
    | ok branches =>
        rw [found] at stopped
        exact (stopped rfl).elim
    | error rejection => rfl
  · exact outline_outlineBlock_of_le context (Nat.le_of_not_lt inside) block events

/-- An outline with one node below its root. -/
def seededOutline : Outline :=
  (Outline.ofRoot ⟨"run", .method, ⟨0, 20⟩⟩).graft 0 [.mk ⟨"init();", .methodInvocation, ⟨0, 6⟩⟩ []]

/-- The block `{ while (x) break; + }`, which has an unparsed statement after a loop. -/
def unparsedBlock : Block :=
  .mk ⟨0, 22⟩ [.whileLoop ⟨2, 18⟩ (.name ⟨9, 10⟩ "x") (.jump ⟨12, 18⟩ .break none),
    .unparsed ⟨19, 20⟩]

theorem seededOutline_reachable : seededOutline.Reachable :=
  .node (.root ⟨"run", .method, ⟨0, 20⟩⟩) (Outline.createChild_eq_graft (by decide) _)

theorem outlineBlock_unparsedBlock :
    let context : OutlineContext := ⟨.ofString "{ while (x) break; + }", false⟩
    let run := (outlineBlock context 0 unparsedBlock).run.run ⟨seededOutline, #[]⟩
    seededOutline.Reachable ∧ run.1 ≠ .ok () ∧ run.2.outline = seededOutline := by
  intro context run
  have stopped : run.1 ≠ .ok () := by
    obtain ⟨later, ran⟩ := outlineBlock_eq_graft context seededOutline_reachable.isClosed
      (by decide : 0 < seededOutline.size) unparsedBlock #[]
    have rejected : context.forest unparsedBlock.statements =
        .error (context.unsupported "unparsed statement" ⟨19, 20⟩) := rfl
    rw [show run = _ from ran, rejected]
    nofun
  exact ⟨seededOutline_reachable, stopped,
    outlineBlock_all_or_nothing seededOutline_reachable context 0 unparsedBlock #[] stopped⟩

end JavaOutline
