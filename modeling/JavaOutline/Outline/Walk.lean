import JavaOutline.Outline.Basic

/-!
# Moving about in an outline

The relatives of a node, and the nodes below it in the order of the source. A walk keeps a stack of
nodes to be visited; in an outline every node is visited once, so the number of nodes bounds it. As
everywhere, an outline is taken to have at most `narrowMax + 1` nodes, so that no two share a name.
-/

namespace JavaOutline.Outline

/-- The children of a node; a name that is not in the outline has none. -/
def children (outline : Outline) (id : Nat) : List Nat :=
  ((outline.get? id).map (·.children.toList)).getD []

/-- The parent of a node. -/
def parent? (outline : Outline) (id : Nat) : Option Nat :=
  (outline.get? id).bind (·.parent)

/-- The first child of a node. -/
def firstChild? (outline : Outline) (id : Nat) : Option Nat :=
  (outline.children id).head?

/-- The last child of a node. -/
def lastChild? (outline : Outline) (id : Nat) : Option Nat :=
  (outline.children id).getLast?

/-- The child of its parent that follows a node. -/
def next? (outline : Outline) (id : Nat) : Option Nat := do
  let node ← outline.get? id
  let parent ← node.parent
  (outline.children parent)[node.index + 1]?

/-- The child of its parent that precedes a node. -/
def previous? (outline : Outline) (id : Nat) : Option Nat := do
  let node ← outline.get? id
  let parent ← node.parent
  if node.index = 0 then none else (outline.children parent)[node.index - 1]?

/-- Whether a node has no parent. -/
def isRoot (outline : Outline) (id : Nat) : Bool :=
  (outline.parent? id).isNone

/-- Whether a node has no children. -/
def isLeaf (outline : Outline) (id : Nat) : Bool :=
  (outline.children id).isEmpty

/-- The node reached by going to first children at most `n` times. -/
def firstLeafUpTo (outline : Outline) : Nat → Nat → Nat
  | 0, id => id
  | n + 1, id =>
    match outline.firstChild? id with
    | none => id
    | some child => outline.firstLeafUpTo n child

/-- The leaf reached by going to first children. -/
def firstLeaf (outline : Outline) (id : Nat) : Nat :=
  outline.firstLeafUpTo outline.size id

/-- Visits at most `n` nodes from a stack: each node before its children, and these in order. -/
def visit (outline : Outline) : Nat → List Nat → List Nat
  | 0, _ => []
  | _ + 1, [] => []
  | n + 1, id :: stack => id :: outline.visit n (outline.children id ++ stack)

/-- A node and the nodes below it, parents before children. -/
def descendants (outline : Outline) (id : Nat) : List Nat :=
  outline.visit outline.size [id]

/-- The leaves at and below a node, in the same order. -/
def leaves (outline : Outline) (id : Nat) : List Nat :=
  (outline.descendants id).filter outline.isLeaf

end JavaOutline.Outline
