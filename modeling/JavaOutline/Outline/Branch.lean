import JavaOutline.Json.Write
import JavaOutline.Outline.Walk
import JavaOutline.Text.Quoted

/-!
# Branches

A branch is an entity with the branches below it: the tree at a node of an outline, without names of
nodes. Its text is the value of a leaf, and otherwise the value with the texts of the children in
braces. Its export has the members `type`, `value`, `start`, `end` and `children` in this order.
-/

namespace JavaOutline

/-- An entity with the branches below it. -/
inductive Branch where
  | mk (entity : Entity) (children : List Branch)
  deriving Repr

namespace Branch

mutual

/-- The text of a branch. -/
def text : Branch → String
  | .mk entity [] => entity.value
  | .mk entity (child :: children) =>
    entity.value ++ " \x7b " ++ ",".intercalate (text child :: texts children) ++ " \x7d"

/-- The texts of some branches. -/
def texts : List Branch → List String
  | [] => []
  | branch :: branches => text branch :: texts branches

end

mutual

/-- A branch as a JSON value. -/
def json : Branch → Json
  | .mk entity children =>
    .ofMembers
      [("type", .ofString entity.kind.name), ("value", .ofString entity.value),
       ("start", .natural entity.extent.first), ("end", .natural entity.extent.last),
       ("children", .array (jsons children))]

/-- Some branches as JSON values. -/
def jsons : List Branch → List Json
  | [] => []
  | branch :: branches => json branch :: jsons branches

end

end Branch

namespace Outline

/-- The branch at a node, cut off `n` levels below it. -/
def branchUpTo? (outline : Outline) : Nat → Nat → Option Branch
  | 0, id => (outline.get? id).map fun node => .mk node.entity []
  | n + 1, id => (outline.get? id).map fun node =>
    .mk node.entity (node.children.toList.filterMap (outline.branchUpTo? n))

/-- The branch at a node. No path in an outline is longer than its number of nodes. -/
def branch? (outline : Outline) (id : Nat) : Option Branch :=
  outline.branchUpTo? outline.size id

/-- The text of the branch at a node. -/
def textAt (outline : Outline) (id : Nat) : String :=
  ((outline.branch? id).map Branch.text).getD ""

/-- The text of an outline. -/
def text (outline : Outline) : String :=
  outline.textAt 0

/-- The compact export of the branch at a node. -/
def jsonAt (outline : Outline) (id : Nat) : String :=
  ((outline.branch? id).map (·.json.compact)).getD ""

/-- The pretty export of an outline. -/
def prettyJson (outline : Outline) : String :=
  ((outline.branch? 0).map (·.json.pretty 0)).getD ""

end Outline

/-- The written form of a node, such as
`Node { id: NodeId(3), type: IfStatement, value: "x", range: [0, 5] }`. -/
def Node.text (node : Node) (id : Nat) : String :=
  let fields :=
    [s!"id: NodeId({id})", "type: " ++ node.entity.kind.title,
     "value: " ++ quoted node.entity.value, "range: " ++ node.entity.extent.text]
  "Node \x7b " ++ ", ".intercalate fields ++ " \x7d"

end JavaOutline
