import JavaOutline.Outline.Walk
import JavaOutline.Proofs.Outline.Rollback
import Mathlib.Logic.Relation
import Mathlib.Tactic.SplitIfs

/-!
# The links of an outline

An outline says twice how its nodes hang together: a node names its parent and its position there,
and the parent lists its children. In every outline that can be made the two agree, and children
have greater names than their parents and than the children before them. Adding one node keeps the
links in agreement. Everything that is grafted can be added node by node, and a rejected block
leaves nothing behind, so they agree throughout. What the relatives of a node are to each other
follows from the links alone. As long as there are at most `narrowMax` nodes, the next one has a
32-bit word for a name.
-/

namespace JavaOutline

namespace Outline

/-- Whether the links between the nodes of an outline agree. -/
structure IsLinked (outline : Outline) : Prop where
  /-- There is a root. -/
  root : 0 < outline.size
  /-- Only the root has no parent. -/
  parent_eq_none_iff : ∀ id < outline.size, outline.parent? id = none ↔ id = 0
  /-- A node other than the root is listed below its parent at its index, and nowhere else. -/
  listed_iff : ∀ id node, outline.get? id = some node → ∀ parent position,
    (outline.children parent)[position]? = some id ↔
      node.parent = some parent ∧ node.index = position
  /-- What is listed below a node is a node, and has a greater name. -/
  child_bounds : ∀ parent, ∀ child ∈ outline.children parent, parent < child ∧ child < outline.size
  /-- Children are listed in the order of their names. -/
  increasing : ∀ parent, (outline.children parent).Pairwise (· < ·)

section Nodes

variable {outline : Outline} {id parent : Nat}

theorem exists_get?_of_lt (inside : id < outline.size) : ∃ node, outline.get? id = some node :=
  ⟨outline.nodes[id], Array.getElem?_eq_getElem inside⟩

theorem lt_size_of_get? {node : Node} (found : outline.get? id = some node) : id < outline.size :=
  (Array.getElem?_eq_some_iff.mp found).1

theorem get?_eq_none_of_le (outside : outline.size ≤ id) : outline.get? id = none :=
  Array.getElem?_eq_none outside

theorem children_eq_nil_of_le (outside : outline.size ≤ id) : outline.children id = [] := by
  rw [children, get?_eq_none_of_le outside]
  rfl

theorem parent?_eq_of_get? {node : Node} (found : outline.get? id = some node) :
    outline.parent? id = node.parent := by
  rw [parent?, found]
  rfl

end Nodes

/-! ## Adding one node -/

section Child

variable {outline : Outline} {parent : Nat} (inside : parent < outline.size) (entity : Entity)

include inside

omit inside in
/-- The node that is added names its parent and the position behind the children there. -/
theorem get?_graft_child_new :
    (outline.graft parent [.mk entity []]).get? outline.size =
      some ⟨entity, some parent, (outline.children parent).length, #[]⟩ := by
  have found := outline.get?_graft_new parent 0 [.mk entity []]
  rwa [Nat.add_zero] at found

/-- Old nodes keep their entities, parents and indices. -/
theorem exists_get?_graft_child {id : Nat} {node : Node} (found : outline.get? id = some node) :
    ∃ children, (outline.graft parent [.mk entity []]).get? id = some { node with children } := by
  by_cases same : id = parent
  · subst same
    exact ⟨_, get?_graft_parent _ found⟩
  · exact ⟨node.children, (get?_graft_of_ne _ (lt_size_of_get? found) same).trans found⟩

/-- Only the parent is given a child, behind those that it has. -/
theorem children_graft_child (id : Nat) :
    (outline.graft parent [.mk entity []]).children id =
      if id = parent then outline.children id ++ [outline.size] else outline.children id := by
  by_cases same : id = parent
  · subst same
    rw [if_pos rfl, children_graft _ inside]
    rfl
  · rw [if_neg same]
    rcases Nat.lt_trichotomy id outline.size with old | new | outside
    · rw [children, get?_graft_of_ne _ old same, children]
    · subst new
      rw [children, get?_graft_child_new, children_eq_nil_of_le (Nat.le_refl _)]
      rfl
    · rw [children_eq_nil_of_le (Nat.le_of_lt outside), children_eq_nil_of_le]
      rw [size_graft]
      exact outside

/-- The new node stands at one place only, and old nodes where they stood. -/
theorem listed_graft_child_iff (above position id : Nat) :
    ((outline.graft parent [.mk entity []]).children above)[position]? = some id ↔
      (outline.children above)[position]? = some id ∨
        above = parent ∧ position = (outline.children parent).length ∧ id = outline.size := by
  rw [children_graft_child inside]
  split_ifs with same
  · subst same
    rcases Nat.lt_trichotomy position (outline.children above).length with old | last | outside
    · rw [List.getElem?_append_left old]
      constructor
      · exact .inl
      · rintro (listed | ⟨-, rfl, -⟩)
        · exact listed
        · exact (Nat.lt_irrefl _ old).elim
    · subst last
      rw [List.getElem?_concat_length, List.getElem?_eq_none (Nat.le_refl _)]
      simp [eq_comm]
    · have behind : (outline.children above ++ [outline.size]).length ≤ position := by
        simpa using Nat.succ_le_of_lt outside
      rw [List.getElem?_eq_none behind, List.getElem?_eq_none (Nat.le_of_lt outside)]
      simp only [reduceCtorEq, true_and, false_or, false_iff, not_and]
      exact fun last => absurd last (Nat.ne_of_gt outside)
  · simp [same]

theorem IsLinked.graft_child (linked : outline.IsLinked) :
    (outline.graft parent [.mk entity []]).IsLinked := by
  have size_eq : (outline.graft parent [.mk entity []]).size = outline.size + 1 := by
    rw [size_graft]
    rfl
  have child_lt (above child : Nat) (member : child ∈ outline.children above) :
      child < outline.size := (linked.child_bounds above child member).2
  constructor
  case root => omega
  case parent_eq_none_iff =>
    intro id lt_size
    rw [size_eq] at lt_size
    rcases Nat.lt_succ_iff_lt_or_eq.mp lt_size with old | rfl
    · obtain ⟨node, found⟩ := exists_get?_of_lt old
      obtain ⟨children, found'⟩ := exists_get?_graft_child inside entity found
      rw [parent?_eq_of_get? found', ← linked.parent_eq_none_iff id old, parent?_eq_of_get? found]
    · rw [parent?_eq_of_get? (get?_graft_child_new entity)]
      simp only [reduceCtorEq, false_iff]
      exact Nat.ne_of_gt linked.root
  case listed_iff =>
    intro id node found above position
    rw [listed_graft_child_iff inside entity]
    have lt_size := lt_size_of_get? found
    rw [size_eq] at lt_size
    rcases Nat.lt_succ_iff_lt_or_eq.mp lt_size with old | rfl
    · obtain ⟨before, was_found⟩ := exists_get?_of_lt old
      obtain ⟨children, found'⟩ := exists_get?_graft_child inside entity was_found
      rw [found'] at found
      cases found
      rw [linked.listed_iff id before was_found above position]
      constructor
      · rintro (listed | ⟨-, -, rfl⟩)
        · exact listed
        · exact (Nat.lt_irrefl _ old).elim
      · exact .inl
    · rw [get?_graft_child_new] at found
      cases found
      constructor
      · rintro (listed | ⟨rfl, rfl, -⟩)
        · exact (Nat.lt_irrefl _ (child_lt above _ (List.mem_of_getElem? listed))).elim
        · exact ⟨rfl, rfl⟩
      · rintro ⟨same, rfl⟩
        exact .inr ⟨(Option.some.inj same).symm, rfl, rfl⟩
  case child_bounds =>
    intro above child member
    rw [size_eq]
    rw [children_graft_child inside] at member
    split_ifs at member with same
    · subst same
      rcases List.mem_append.mp member with old | new
      · have := linked.child_bounds above child old
        omega
      · rw [List.mem_singleton.mp new]
        omega
    · have := linked.child_bounds above child member
      omega
  case increasing =>
    intro above
    rw [children_graft_child inside]
    split_ifs
    · rw [List.pairwise_append]
      refine ⟨linked.increasing above, List.pairwise_singleton _ _, ?_⟩
      intro child member last is_last
      rw [List.mem_singleton.mp is_last]
      exact child_lt above child member
    · exact linked.increasing above

end Child

/-! ## All that is reachable -/

theorem isLinked_ofRoot (root : Entity) : (ofRoot root).IsLinked := by
  have children_eq (id : Nat) : (ofRoot root).children id = [] := by
    cases id <;> rfl
  constructor
  case root => exact Nat.one_pos
  case parent_eq_none_iff =>
    intro id lt_size
    obtain rfl := Nat.lt_one_iff.mp lt_size
    exact ⟨fun _ => rfl, fun _ => rfl⟩
  case listed_iff =>
    intro id node found parent position
    obtain rfl := Nat.lt_one_iff.mp (lt_size_of_get? found)
    have found_root : (ofRoot root).get? 0 = some ⟨root, none, 0, #[]⟩ := rfl
    rw [found_root] at found
    cases found
    simp [children_eq]
  case child_bounds => simp [children_eq]
  case increasing => simp [children_eq]

mutual

/-- A branch is grafted by adding its topmost node, and then what is below it. -/
theorem IsLinked.graft_branch {outline : Outline} (linked : outline.IsLinked) {parent : Nat}
    (inside : parent < outline.size) (branch : Branch) :
    (outline.graft parent [branch]).IsLinked := by
  cases branch with
  | mk entity children =>
      rw [← List.nil_append children, ← graft_below]
      apply IsLinked.graft (linked.graft_child inside entity)
      rw [size_graft]
      exact Nat.lt_succ_self _

theorem IsLinked.graft {outline : Outline} (linked : outline.IsLinked) {parent : Nat}
    (inside : parent < outline.size) (branches : List Branch) :
    (outline.graft parent branches).IsLinked := by
  cases branches with
  | nil => rwa [graft_nil]
  | cons branch branches =>
      rw [← List.singleton_append, ← graft_graft inside]
      apply IsLinked.graft (linked.graft_branch inside branch)
      rw [size_graft]
      exact Nat.lt_of_lt_of_le inside (Nat.le_add_right _ _)

end

theorem Reachable.isLinked {outline : Outline} (reachable : outline.Reachable) :
    outline.IsLinked := by
  induction reachable with
  | root entity => exact isLinked_ofRoot entity
  | @node outline grown parent id entity _ created linked =>
      by_cases inside : parent < outline.size
      · rw [createChild_eq_graft inside] at created
        cases created
        exact linked.graft_child inside entity
      · rw [createChild_eq_error (Nat.le_of_not_lt inside)] at created
        cases created
  | @block outline context parent block events reachable linked =>
      by_cases inside : parent < outline.size
      · obtain ⟨later, ran⟩ :=
          outlineBlock_eq_graft context reachable.isClosed inside block events
        rw [ran]
        cases context.forest block.statements with
        | ok branches => exact linked.graft inside branches
        | error rejection => exact linked
      · rwa [outline_outlineBlock_of_le context (Nat.le_of_not_lt inside)]

/-! ## Relatives -/

/-- Whether a node is the first child of another. -/
def FirstBelow (outline : Outline) (id child : Nat) : Prop :=
  outline.firstChild? id = some child

/-- What the relatives of the nodes of an outline are to each other. -/
structure Navigates (outline : Outline) : Prop where
  /-- A node is followed by the one that it precedes. -/
  next_iff_previous : ∀ left right,
    outline.next? left = some right ↔ outline.previous? right = some left
  /-- The parent of a child of a node is the node. -/
  parent_of_child : ∀ id, ∀ child ∈ outline.children id, outline.parent? child = some id
  /-- The first child is the one that no other precedes. -/
  first_iff : ∀ id, ∀ child ∈ outline.children id,
    outline.firstChild? id = some child ↔ outline.previous? child = none
  /-- The last child is the one that no other follows. -/
  last_iff : ∀ id, ∀ child ∈ outline.children id,
    outline.lastChild? id = some child ↔ outline.next? child = none
  /-- Going to first children leads from a node to its first leaf, which is a node without
  children. -/
  first_leaf : ∀ id < outline.size,
    Relation.ReflTransGen outline.FirstBelow id (outline.firstLeaf id) ∧
      outline.firstLeaf id < outline.size ∧ outline.isLeaf (outline.firstLeaf id)

namespace IsLinked

variable {outline : Outline} (linked : outline.IsLinked)

include linked

/-- A node that is listed below another names that one and its position there. -/
theorem exists_get?_of_listed {id parent position : Nat}
    (listed : (outline.children parent)[position]? = some id) :
    ∃ node, outline.get? id = some node ∧ node.parent = some parent ∧ node.index = position := by
  have bounds := linked.child_bounds parent id (List.mem_of_getElem? listed)
  obtain ⟨node, found⟩ := exists_get?_of_lt bounds.2
  exact ⟨node, found, (linked.listed_iff id node found parent position).mp listed⟩

theorem parent?_eq_of_mem {id child : Nat} (member : child ∈ outline.children id) :
    outline.parent? child = some id := by
  obtain ⟨position, listed⟩ := List.mem_iff_getElem?.mp member
  obtain ⟨node, found, parent_eq, -⟩ := linked.exists_get?_of_listed listed
  rw [parent?_eq_of_get? found, parent_eq]

/-- What follows a node is listed behind it, and what precedes it in front of it. -/
theorem next?_eq_of_listed {id parent position : Nat}
    (listed : (outline.children parent)[position]? = some id) :
    outline.next? id = (outline.children parent)[position + 1]? := by
  obtain ⟨node, found, parent_eq, rfl⟩ := linked.exists_get?_of_listed listed
  simp [next?, found, parent_eq]

theorem previous?_eq_of_listed {id parent position : Nat}
    (listed : (outline.children parent)[position]? = some id) :
    outline.previous? id =
      if position = 0 then none else (outline.children parent)[position - 1]? := by
  obtain ⟨node, found, parent_eq, rfl⟩ := linked.exists_get?_of_listed listed
  simp [previous?, found, parent_eq]

/-- A node with a parent is listed. -/
theorem exists_listed_of_parent {id parent : Nat} {node : Node}
    (found : outline.get? id = some node) (parent_eq : node.parent = some parent) :
    (outline.children parent)[node.index]? = some id :=
  (linked.listed_iff id node found parent node.index).mpr ⟨parent_eq, rfl⟩

theorem next?_eq_some_iff {left right : Nat} :
    outline.next? left = some right ↔
      ∃ parent position, (outline.children parent)[position]? = some left ∧
        (outline.children parent)[position + 1]? = some right := by
  constructor
  · intro follows
    obtain ⟨node, found, later⟩ := Option.bind_eq_some_iff.mp follows
    obtain ⟨parent, parent_eq, listed⟩ := Option.bind_eq_some_iff.mp later
    exact ⟨parent, node.index, linked.exists_listed_of_parent found parent_eq, listed⟩
  · rintro ⟨parent, position, listed, follows⟩
    rw [linked.next?_eq_of_listed listed, follows]

theorem previous?_eq_some_iff {left right : Nat} :
    outline.previous? right = some left ↔
      ∃ parent position, (outline.children parent)[position]? = some left ∧
        (outline.children parent)[position + 1]? = some right := by
  constructor
  · intro precedes
    obtain ⟨node, found, later⟩ := Option.bind_eq_some_iff.mp precedes
    obtain ⟨parent, parent_eq, listed⟩ := Option.bind_eq_some_iff.mp later
    split_ifs at listed with first
    refine ⟨parent, node.index - 1, listed, ?_⟩
    rw [Nat.sub_add_cancel (Nat.pos_of_ne_zero first)]
    exact linked.exists_listed_of_parent found parent_eq
  · rintro ⟨parent, position, precedes, listed⟩
    rw [linked.previous?_eq_of_listed listed, if_neg (Nat.succ_ne_zero _), Nat.add_sub_cancel,
      precedes]

/-- Going to first children at most `n` times ends in a leaf if there are at most `n` names above
the one where it begins. -/
theorem firstLeafUpTo_spec (n id : Nat) (inside : id < outline.size)
    (enough : outline.size ≤ id + n) :
    Relation.ReflTransGen outline.FirstBelow id (outline.firstLeafUpTo n id) ∧
      outline.firstLeafUpTo n id < outline.size ∧
      outline.isLeaf (outline.firstLeafUpTo n id) := by
  induction n generalizing id with
  | zero => omega
  | succ n induction =>
      rw [firstLeafUpTo]
      cases below : outline.firstChild? id with
      | none =>
          refine ⟨.refl, inside, ?_⟩
          rw [isLeaf, List.head?_eq_none_iff.mp below]
          rfl
      | some child =>
          have bounds := linked.child_bounds id child (List.mem_of_head? below)
          obtain ⟨leads, later⟩ := induction child bounds.2 (by omega)
          exact ⟨.head below leads, later⟩

theorem navigates : outline.Navigates := by
  constructor
  case next_iff_previous =>
    intro left right
    rw [linked.next?_eq_some_iff, linked.previous?_eq_some_iff]
  case parent_of_child => exact fun id child member => linked.parent?_eq_of_mem member
  case first_iff =>
    intro id child member
    obtain ⟨position, listed⟩ := List.mem_iff_getElem?.mp member
    rw [linked.previous?_eq_of_listed listed, firstChild?, List.head?_eq_getElem?]
    split_ifs with first
    · subst first
      exact ⟨fun _ => rfl, fun _ => listed⟩
    · have inside := (List.getElem?_eq_some_iff.mp listed).1
      simp only [List.getElem?_eq_none_iff]
      constructor
      · intro is_first
        -- A child stands at one position only.
        obtain ⟨node, found, -, index_eq⟩ := linked.exists_get?_of_listed listed
        have at_zero := (linked.listed_iff child node found id 0).mp is_first
        omega
      · omega
  case last_iff =>
    intro id child member
    obtain ⟨position, listed⟩ := List.mem_iff_getElem?.mp member
    have inside := (List.getElem?_eq_some_iff.mp listed).1
    rw [linked.next?_eq_of_listed listed, lastChild?, List.getLast?_eq_getElem?,
      List.getElem?_eq_none_iff]
    constructor
    · intro is_last
      obtain ⟨node, found, -, index_eq⟩ := linked.exists_get?_of_listed listed
      have at_end := (linked.listed_iff child node found id _).mp is_last
      omega
    · intro no_more
      rw [show (outline.children id).length - 1 = position by omega, listed]
  case first_leaf =>
    intro id inside
    exact linked.firstLeafUpTo_spec outline.size id inside (Nat.le_add_left _ _)

end IsLinked

/-- **The links of an outline agree.** So they do in every outline that was made by adding nodes and
outlining blocks, rejected ones among them; and what the relatives of a node are to each other is
what it is in a tree. -/
theorem Reachable.linked_and_navigates {outline : Outline} (reachable : outline.Reachable) :
    outline.IsLinked ∧ outline.Navigates :=
  ⟨reachable.isLinked, reachable.isLinked.navigates⟩

/-- The outline with two blocks outlined below its second node, of which the first is rejected. -/
def retriedOutline : Outline :=
  let context : OutlineContext := ⟨.ofString "{ while (x) break; + }", false⟩
  let rejected := (outlineBlock context 1 unparsedBlock).run.run ⟨seededOutline, #[]⟩
  ((outlineBlock branchingContext 1 branchingBlock).run.run rejected.2).2.outline

theorem retriedOutline_linked :
    retriedOutline.Reachable ∧ retriedOutline.IsLinked ∧ retriedOutline.Navigates := by
  have reachable : retriedOutline.Reachable :=
    .block branchingContext 1 branchingBlock _
      (.block ⟨.ofString "{ while (x) break; + }", false⟩ 1 unparsedBlock #[]
        seededOutline_reachable)
  exact ⟨reachable, reachable.linked_and_navigates⟩

end Outline

end JavaOutline
