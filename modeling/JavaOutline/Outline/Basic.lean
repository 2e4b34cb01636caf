import JavaOutline.Entity.Basic

/-!
# Outlines

An outline is an ordered tree of entities. Its nodes stand in one array in the order of their
creation, and a node is named by its position there. A node knows its parent, its position among
the children of the parent, and its own children. Nodes are only added, as last children, and taken
back again from the end.

Names and positions among children are kept in 32-bit words. They are numbers here, so what is said
of outlines is about those of at most `narrowMax + 1` nodes, whose names the words can hold.
-/

namespace JavaOutline

/-- A node of an outline. -/
structure Node where
  /-- What the node stands for. -/
  entity : Entity
  /-- The parent; the root has none. -/
  parent : Option Nat
  /-- The position among the children of the parent. -/
  index : Nat
  /-- The children in order. -/
  children : Array Nat
  deriving DecidableEq, Repr

/-- An ordered tree of entities. -/
structure Outline where
  /-- The nodes in the order of their creation; the first is the root. -/
  nodes : Array Node
  deriving DecidableEq, Repr

namespace Outline

/-- The outline that consists of a root. -/
def ofRoot (root : Entity) : Outline :=
  ⟨#[⟨root, none, 0, #[]⟩]⟩

/-- The number of nodes. -/
def size (outline : Outline) : Nat :=
  outline.nodes.size

/-- The node of a name. -/
def get? (outline : Outline) (id : Nat) : Option Node :=
  outline.nodes[id]?

/-- The node of a name, which must be in the outline. -/
def node (outline : Outline) (id : Nat) : Except Fault Node :=
  match outline.get? id with
  | some node => .ok node
  | none => .error (.notANode id)

/-- Adds a last child under `parent` and gives the name of the new node. -/
def createChild (outline : Outline) (parent : Nat) (entity : Entity) :
    Except Fault (Nat × Outline) :=
  match outline.nodes[parent]? with
  | none => .error (.indexOutOfBounds outline.size parent)
  | some above =>
    let id := outline.size
    let nodes := outline.nodes.modify parent fun above =>
      { above with children := above.children.push id }
    .ok (id, ⟨nodes.push ⟨entity, some parent, above.children.size, #[]⟩⟩)

/-- Takes back all nodes but the first `size`, of which at least the root remains. The nodes taken
back stand last among the children of those that stay. -/
def truncate (outline : Outline) (size : Nat) : Outline :=
  let size := max size 1
  if outline.size ≤ size then outline
  else
    ⟨(outline.nodes.take size).map fun node =>
      { node with children := node.children.popWhile (size ≤ ·) }⟩

theorem size_ofRoot (root : Entity) : (ofRoot root).size = 1 := rfl

theorem size_createChild {outline grown : Outline} {parent id : Nat} {entity : Entity}
    (created : outline.createChild parent entity = .ok (id, grown)) :
    id = outline.size ∧ grown.size = outline.size + 1 := by
  unfold createChild at created
  split at created
  · simp at created
  · simp only [Except.ok.injEq, Prod.mk.injEq] at created
    obtain ⟨rfl, rfl⟩ := created
    simp [size]

/-- As long as a name is left, the new node is named by a 32-bit word. -/
theorem wrap_createChild {outline grown : Outline} {parent id : Nat} {entity : Entity}
    (created : outline.createChild parent entity = .ok (id, grown))
    (left : outline.size ≤ narrowMax) : wrap id = id := by
  obtain ⟨rfl, -⟩ := size_createChild created
  exact wrap_of_le left

end Outline

end JavaOutline
