import Mathlib
import JavaOutline.Outline.Branch

/-!
# Grafting branches onto an outline

`Outline.graft` adds some branches below a node in one step. Their nodes are named in order of a
walk that visits parents before children, from the first free name on, and the topmost ones become
the last children of the node. Adding a single node is a graft, and so is everything that adding
nodes one after the other can do: a second graft below the same node, or below the topmost node of
a branch just grafted, joins with the first.
-/

namespace JavaOutline

namespace Branch

mutual

/-- The number of nodes of a branch. -/
def count : Branch → Nat
  | .mk _ children => countOf children + 1

/-- The number of nodes of some branches. -/
def countOf : List Branch → Nat
  | [] => 0
  | branch :: branches => count branch + countOf branches

end

/-- The names of the topmost nodes of some branches whose nodes are named from `first` on. -/
def names (first : Nat) : List Branch → List Nat
  | [] => []
  | branch :: branches => first :: names (first + branch.count) branches

mutual

/-- The nodes of a branch in the order of their names, of which `id` is the first. -/
def nodes (id parent index : Nat) : Branch → List Node
  | .mk entity children =>
    ⟨entity, some parent, index, (names (id + 1) children).toArray⟩ ::
      nodesOf (id + 1) id 0 children

/-- The nodes of some branches below one parent, in the order of their names. -/
def nodesOf (first parent index : Nat) : List Branch → List Node
  | [] => []
  | branch :: branches =>
    nodes first parent index branch ++ nodesOf (first + branch.count) parent (index + 1) branches

end

theorem names_append (first : Nat) (left right : List Branch) :
    names first (left ++ right) = names first left ++ names (first + countOf left) right := by
  induction left generalizing first with
  | nil => simp [names, countOf]
  | cons branch branches induction =>
      simp only [List.cons_append, names, countOf]
      rw [induction, Nat.add_assoc]

@[simp]
theorem length_names (first : Nat) (branches : List Branch) :
    (names first branches).length = branches.length := by
  induction branches generalizing first with
  | nil => rfl
  | cons branch branches induction => simp [names, induction]

theorem le_of_mem_names {first id : Nat} {branches : List Branch}
    (member : id ∈ names first branches) : first ≤ id := by
  induction branches generalizing first with
  | nil => simp [names] at member
  | cons branch branches induction =>
      rcases List.mem_cons.mp member with rfl | later
      · exact Nat.le_refl _
      · exact Nat.le_trans (Nat.le_add_right first branch.count) (induction later)

theorem lt_of_mem_names {first id : Nat} {branches : List Branch}
    (member : id ∈ names first branches) : id < first + countOf branches := by
  induction branches generalizing first with
  | nil => simp [names] at member
  | cons branch branches induction =>
      have nonempty : 0 < branch.count := by
        cases branch with
        | mk entity children => exact Nat.succ_pos _
      rw [countOf]
      rcases List.mem_cons.mp member with rfl | later
      · omega
      · have := induction later
        omega

theorem nodesOf_append (first parent index : Nat) (left right : List Branch) :
    nodesOf first parent index (left ++ right) =
      nodesOf first parent index left ++
        nodesOf (first + countOf left) parent (index + left.length) right := by
  induction left generalizing first index with
  | nil => simp [nodesOf, countOf]
  | cons branch branches induction =>
      simp only [List.cons_append, nodesOf, countOf, List.length_cons]
      rw [induction, List.append_assoc, Nat.add_assoc, Nat.add_assoc,
        Nat.add_comm 1 branches.length]

mutual

@[simp]
theorem length_nodes (id parent index : Nat) (branch : Branch) :
    (nodes id parent index branch).length = branch.count := by
  cases branch with
  | mk entity children => simp [nodes, count, length_nodesOf]

@[simp]
theorem length_nodesOf (first parent index : Nat) (branches : List Branch) :
    (nodesOf first parent index branches).length = countOf branches := by
  cases branches with
  | nil => rfl
  | cons branch branches =>
      rw [nodesOf, countOf, List.length_append, length_nodes, length_nodesOf]

end

mutual

theorem child_lt_of_mem_nodes {id parent index : Nat} {branch : Branch} {node : Node}
    (member : node ∈ nodes id parent index branch) :
    ∀ child ∈ node.children, child < id + branch.count := by
  cases branch with
  | mk entity children =>
      intro child below
      rw [nodes] at member
      rw [count]
      rcases List.mem_cons.mp member with rfl | inner
      · have := lt_of_mem_names (List.mem_toArray.mp below)
        omega
      · have := child_lt_of_mem_nodesOf inner child below
        omega

theorem child_lt_of_mem_nodesOf {first parent index : Nat} {branches : List Branch} {node : Node}
    (member : node ∈ nodesOf first parent index branches) :
    ∀ child ∈ node.children, child < first + countOf branches := by
  cases branches with
  | nil => simp [nodesOf] at member
  | cons branch branches =>
      intro child below
      rw [nodesOf] at member
      rw [countOf]
      rcases List.mem_append.mp member with here | later
      · have := child_lt_of_mem_nodes here child below
        omega
      · have := child_lt_of_mem_nodesOf later child below
        omega

end

end Branch

namespace Outline

open Branch

/-- The outline with some branches added below `parent`, after the children it has. -/
def graft (outline : Outline) (parent : Nat) (branches : List Branch) : Outline where
  nodes :=
    (outline.nodes.modify parent fun above =>
      { above with children := above.children ++ (names outline.size branches).toArray }) ++
    (nodesOf outline.size parent (outline.children parent).length branches).toArray

private theorem modify_append_left {α : Type} {left right : Array α} {i : Nat} {f : α → α}
    (inside : i < left.size) : (left ++ right).modify i f = left.modify i f ++ right := by
  ext <;> grind -ring -linarith

private theorem modify_append_right {α : Type} {left right : Array α} {i : Nat} {f : α → α} :
    (left ++ right).modify (left.size + i) f = left ++ right.modify i f := by
  ext <;> grind -ring -linarith

private theorem modify_modify {α : Type} {entries : Array α} {i : Nat} {f g : α → α} :
    (entries.modify i f).modify i g = entries.modify i (g ∘ f) := by
  ext <;> grind -ring -linarith

@[simp]
theorem size_graft (outline : Outline) (parent : Nat) (branches : List Branch) :
    (outline.graft parent branches).size = outline.size + countOf branches := by
  simp [graft, size]

theorem get?_graft_of_ne {outline : Outline} {parent id : Nat} (branches : List Branch)
    (inside : id < outline.size) (other : id ≠ parent) :
    (outline.graft parent branches).get? id = outline.get? id := by
  unfold size at inside
  simp only [get?, graft]
  rw [Array.getElem?_append_left (by simpa using inside), Array.getElem?_modify,
    if_neg (Ne.symm other)]

theorem get?_graft_parent {outline : Outline} {parent : Nat} {above : Node}
    (branches : List Branch) (found : outline.get? parent = some above) :
    (outline.graft parent branches).get? parent =
      some { above with
        children := above.children ++ (names outline.size branches).toArray } := by
  have inside : parent < outline.nodes.size := (Array.getElem?_eq_some_iff.mp found).1
  simp only [get?] at found
  simp only [get?, graft]
  rw [Array.getElem?_append_left (by simpa using inside), Array.getElem?_modify, if_pos rfl, found,
    Option.map_some]

theorem get?_graft_new (outline : Outline) (parent i : Nat) (branches : List Branch) :
    (outline.graft parent branches).get? (outline.size + i) =
      (nodesOf outline.size parent (outline.children parent).length branches)[i]? := by
  simp only [get?, graft]
  rw [Array.getElem?_append_right (by simp [size])]
  simp [size]

/-- What an outline is after some branches were added below `parent`, node by node. -/
structure Grafted (before : Outline) (parent : Nat) (branches : List Branch) (after : Outline) :
    Prop where
  /-- There are as many new nodes as the branches have. -/
  size_eq : after.size = before.size + countOf branches
  /-- A name of the old outline other than the parent names the node that it named. -/
  old : ∀ id < before.size, id ≠ parent → after.get? id = before.get? id
  /-- The parent has the topmost new nodes as its last children, and is otherwise unchanged. -/
  above : ∀ node, before.get? parent = some node →
    after.get? parent =
      some { node with children := node.children ++ (names before.size branches).toArray }
  /-- The new nodes follow the old ones, parents before children. -/
  new : ∀ i, after.get? (before.size + i) =
    (nodesOf before.size parent (before.children parent).length branches)[i]?

theorem grafted_graft (outline : Outline) (parent : Nat) (branches : List Branch) :
    Grafted outline parent branches (outline.graft parent branches) where
  size_eq := size_graft outline parent branches
  old _ inside other := get?_graft_of_ne branches inside other
  above _ found := get?_graft_parent branches found
  new i := get?_graft_new outline parent i branches

/-- Whether some nodes stand one after the other in an outline, the first of them under a name. -/
def Stands (outline : Outline) (first : Nat) (nodes : List Node) : Prop :=
  ∀ i < nodes.length, outline.get? (first + i) = nodes[i]?

theorem Stands.of_append {outline : Outline} {first : Nat} {left right : List Node}
    (stands : outline.Stands first (left ++ right)) :
    outline.Stands first left ∧ outline.Stands (first + left.length) right := by
  constructor
  · intro i inside
    have found := stands i (by rw [List.length_append]; omega)
    rwa [List.getElem?_append_left inside] at found
  · intro i inside
    have found := stands (left.length + i) (by rw [List.length_append]; omega)
    rwa [List.getElem?_append_right (Nat.le_add_right _ _), Nat.add_sub_cancel_left,
      ← Nat.add_assoc] at found

theorem Stands.of_cons {outline : Outline} {first : Nat} {node : Node} {nodes : List Node}
    (stands : outline.Stands first (node :: nodes)) :
    outline.get? first = some node ∧ outline.Stands (first + 1) nodes := by
  rw [← List.singleton_append] at stands
  exact ⟨stands 0 (Nat.succ_pos _), stands.of_append.2⟩

/-- What is grafted onto a root stands behind the root. -/
theorem stands_graft_ofRoot (root : Entity) (branches : List Branch) :
    ((ofRoot root).graft 0 branches).Stands 1 (nodesOf 1 0 0 branches) :=
  fun i _ => get?_graft_new (ofRoot root) 0 i branches

theorem children_graft {outline : Outline} {parent : Nat} (branches : List Branch)
    (inside : parent < outline.size) :
    (outline.graft parent branches).children parent =
      outline.children parent ++ names outline.size branches := by
  obtain ⟨above, found⟩ : ∃ above, outline.get? parent = some above :=
    ⟨_, Array.getElem?_eq_getElem inside⟩
  simp [children, found, get?_graft_parent branches found]

@[simp]
theorem graft_nil (outline : Outline) (parent : Nat) : outline.graft parent [] = outline := by
  have unchanged : outline.nodes.modify parent (fun above => above) = outline.nodes := by
    ext <;> grind -ring -linarith
  simp [graft, names, nodesOf, unchanged]

/-- Grafting twice below one node is grafting once. -/
theorem graft_graft {outline : Outline} {parent : Nat} (inside : parent < outline.size)
    (left right : List Branch) :
    (outline.graft parent left).graft parent right = outline.graft parent (left ++ right) := by
  have length_children : ((outline.graft parent left).children parent).length =
      (outline.children parent).length + left.length := by
    rw [children_graft left inside, List.length_append, length_names]
  rw [graft, length_children, size_graft]
  simp only [graft]
  rw [modify_append_left (by simpa [size] using inside), modify_modify, names_append,
    nodesOf_append]
  simp [Function.comp_def]

/-- Grafting below the topmost node of a branch that was just grafted is grafting the larger
branch. -/
theorem graft_below (outline : Outline) (parent : Nat) (entity : Entity)
    (left right : List Branch) :
    (outline.graft parent [.mk entity left]).graft outline.size right =
      outline.graft parent [.mk entity (left ++ right)] := by
  have length_children : ((outline.graft parent [.mk entity left]).children outline.size).length =
      left.length := by
    have found := outline.get?_graft_new parent 0 [.mk entity left]
    rw [Nat.add_zero] at found
    simp [children, found, nodesOf, Branch.nodes]
  rw [graft, length_children, size_graft]
  simp only [graft, names, nodesOf, Branch.nodes, count, countOf, List.append_nil]
  -- The topmost node of the branch is the first one behind the old nodes.
  have position : outline.size = (outline.nodes.modify parent fun above =>
      { above with children := above.children ++ [outline.size].toArray }).size + 0 := by
    simp [size]
  rw [congrArg (Array.modify _ · _) position, modify_append_right, names_append, nodesOf_append]
  simp [Nat.add_assoc, Nat.add_comm 1]

/-- Adding a node is grafting a branch without children. -/
theorem createChild_eq_graft {outline : Outline} {parent : Nat} (inside : parent < outline.size)
    (entity : Entity) :
    outline.createChild parent entity =
      .ok (outline.size, outline.graft parent [.mk entity []]) := by
  have found : outline.nodes[parent]? = some outline.nodes[parent] :=
    Array.getElem?_eq_getElem inside
  have length_children :
      (outline.children parent).length = outline.nodes[parent].children.size := by
    simp [children, get?, found]
  simp [createChild, found, graft, length_children, names, nodesOf, Branch.nodes]

/-- Nothing can be added below a name that is not in the outline. -/
theorem createChild_eq_error {outline : Outline} {parent : Nat} (outside : outline.size ≤ parent)
    (entity : Entity) :
    outline.createChild parent entity = .error (.indexOutOfBounds outline.size parent) := by
  have absent : outline.nodes[parent]? = none := Array.getElem?_eq_none outside
  simp [createChild, absent]

/-- An outline that has a root, and whose nodes have nodes of the outline as their children. -/
structure IsClosed (outline : Outline) : Prop where
  /-- There is a root. -/
  root : 0 < outline.size
  /-- A child is a node of the outline. -/
  child_lt : ∀ node ∈ outline.nodes, ∀ child ∈ node.children, child < outline.size

theorem isClosed_ofRoot (root : Entity) : (ofRoot root).IsClosed where
  root := Nat.one_pos
  child_lt := by simp [ofRoot]

theorem IsClosed.graft {outline : Outline} (closed : outline.IsClosed) (parent : Nat)
    (branches : List Branch) : (outline.graft parent branches).IsClosed where
  root := by
    have := closed.root
    rw [size_graft]
    omega
  child_lt := by
    intro node member child below
    rw [size_graft]
    rw [Outline.graft] at member
    rcases Array.mem_append.mp member with old | new
    · obtain ⟨id, inside, rfl⟩ := Array.mem_iff_getElem.mp old
      rw [Array.size_modify] at inside
      rw [Array.getElem_modify] at below
      split at below
      · rcases Array.mem_append.mp below with early | late
        · have := closed.child_lt _ (Array.getElem_mem inside) child early
          omega
        · exact lt_of_mem_names (List.mem_toArray.mp late)
      · have := closed.child_lt _ (Array.getElem_mem inside) child below
        omega
    · exact child_lt_of_mem_nodesOf (List.mem_toArray.mp new) child below

private theorem popWhile_eq_self {entries : Array Nat} {p : Nat → Bool}
    (kept : ∀ entry ∈ entries, p entry = false) : entries.popWhile p = entries := by
  rw [Array.popWhile]
  split
  · rename_i nonempty
    rw [kept _ (Array.getElem_mem (Nat.sub_lt nonempty Nat.one_pos))]
    rfl
  · rfl

/-- Taking back the nodes of a graft restores the outline: of the children of a node exactly the
topmost new nodes have names that are not old. -/
theorem IsClosed.truncate_graft {outline : Outline} (closed : outline.IsClosed) (parent : Nat)
    (branches : List Branch) : (outline.graft parent branches).truncate outline.size = outline := by
  have kept : ∀ node ∈ outline.nodes,
      node.children.popWhile (outline.size ≤ ·) = node.children := by
    intro node member
    apply popWhile_eq_self
    intro child below
    exact decide_eq_false (Nat.not_le.mpr (closed.child_lt node member child below))
  have taken : ∀ above : Node, (above.children ++ (names outline.size branches).toArray).popWhile
      (outline.size ≤ ·) = above.children.popWhile (outline.size ≤ ·) := by
    intro above
    apply Array.popWhile_append_of_pos
    intro child new
    exact decide_eq_true (le_of_mem_names (List.mem_toArray.mp new))
  rw [truncate, Nat.max_eq_left closed.root, size_graft]
  split
  · -- Without a new node there are no branches.
    rename_i unchanged
    cases branches with
    | nil => exact graft_nil outline parent
    | cons branch branches =>
        cases branch with
        | mk entity children =>
            simp only [countOf, count] at unchanged
            omega
  · congr 1
    apply Array.ext
    · simp [Outline.graft, size]
    · intro id _ inside
      have node_kept := kept _ (Array.getElem_mem inside)
      simp only [Outline.graft, Array.take_eq_extract, Array.getElem_map, Array.getElem_extract,
        Nat.zero_add]
      rw [Array.getElem_append_left (by simpa using inside), Array.getElem_modify]
      split
      · simp only [taken, node_kept]
      · simp only [node_kept]

end Outline

end JavaOutline
