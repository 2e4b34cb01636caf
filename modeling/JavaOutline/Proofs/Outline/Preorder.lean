import JavaOutline.Proofs.Outline.Export
import JavaOutline.Proofs.Outline.Links

/-!
# Walks in pre-order

A walk keeps the nodes that it has still to visit on a stack. Where the links of an outline agree,
the walk from a node ends with an empty stack and has then visited the node and what is below its
children, child by child: the pre-order of the node. Its bound on the number of visits is never
met, since no node is visited twice. The nodes of the outline of a method were added in this order.
The outlines meant are those of at most `narrowMax + 1` nodes, whose names are 32-bit words.
-/

namespace JavaOutline

namespace Outline

/-- A walk without bound: the node on top of the stack is visited, and its children take its place
there, until the stack is empty. -/
inductive Visits (outline : Outline) : (stack visited : List Nat) → Prop
  | done : outline.Visits [] []
  | next {id : Nat} {stack visited : List Nat} :
      outline.Visits (outline.children id ++ stack) visited →
      outline.Visits (id :: stack) (id :: visited)

/-- The pre-order of some nodes: each of them with the pre-order of its children behind it. -/
inductive Preorder (outline : Outline) : (ids order : List Nat) → Prop
  | nil : outline.Preorder [] []
  | cons {id : Nat} {ids below later : List Nat} :
      outline.Preorder (outline.children id) below → outline.Preorder ids later →
      outline.Preorder (id :: ids) (id :: (below ++ later))

/-- Whether the second of two nodes is a child of the first. -/
def ParentOf (outline : Outline) (parent child : Nat) : Prop :=
  outline.parent? child = some parent

/-- Whether the parents of a node, and their parents, lead to another. -/
def Above (outline : Outline) : (above id : Nat) → Prop :=
  Relation.ReflTransGen outline.ParentOf

namespace Preorder

variable {outline : Outline} {ids order : List Nat}

/-- A bounded walk visits the nodes on top of the stack in pre-order. -/
theorem visit_append (preorder : outline.Preorder ids order) (stack : List Nat) {n : Nat}
    (enough : order.length ≤ n) :
    outline.visit n (ids ++ stack) = order ++ outline.visit (n - order.length) stack := by
  induction preorder generalizing stack n with
  | nil => rfl
  | @cons id ids below later _ _ here further =>
      rw [List.length_cons, List.length_append] at enough
      obtain ⟨n, rfl⟩ : ∃ k, n = k + 1 := ⟨n - 1, by omega⟩
      rw [List.cons_append, visit, here (ids ++ stack) (by omega), further stack (by omega),
        List.cons_append, List.append_assoc, List.length_cons, List.length_append, Nat.sub_sub,
        Nat.add_sub_add_right]

theorem visits_append (preorder : outline.Preorder ids order) {stack visited : List Nat}
    (visits : outline.Visits stack visited) : outline.Visits (ids ++ stack) (order ++ visited) := by
  induction preorder generalizing stack visited with
  | nil => exact visits
  | cons _ _ here further =>
      rw [List.cons_append, List.cons_append, List.append_assoc]
      exact .next (here (further visits))

/-- The pre-order of a node without siblings is the node and the pre-order of its children. -/
theorem exists_of_singleton {id : Nat} (preorder : outline.Preorder [id] order) :
    ∃ below, outline.Preorder (outline.children id) below ∧ order = id :: below := by
  cases preorder with
  | @cons _ _ below later inner outer =>
      cases outer
      exact ⟨below, inner, by rw [List.append_nil]⟩

end Preorder

namespace IsLinked

variable {outline : Outline} (linked : outline.IsLinked)

include linked

theorem mem_children_iff {parent child : Nat} :
    child ∈ outline.children parent ↔ outline.ParentOf parent child := by
  constructor
  · exact fun member => linked.parent?_eq_of_mem member
  · intro parentOf
    obtain ⟨node, found, parent_eq⟩ := Option.bind_eq_some_iff.mp parentOf
    exact List.mem_of_getElem? (linked.exists_listed_of_parent found parent_eq)

/-- Every list of nodes has a pre-order, since children have greater names than their parents. -/
theorem exists_preorder (ids : List Nat) (inside : ∀ id ∈ ids, id < outline.size) :
    ∃ order, outline.Preorder ids order := by
  have below (n : Nat) : ∀ id < outline.size, outline.size ≤ id + n →
      ∃ order, outline.Preorder (outline.children id) order := by
    induction n with
    | zero => omega
    | succ n induction =>
        intro id _ enough
        have bounds := linked.child_bounds id
        generalize outline.children id = children at bounds
        induction children with
        | nil => exact ⟨[], .nil⟩
        | cons child children further =>
            have child_bounds := bounds child List.mem_cons_self
            obtain ⟨below, here⟩ := induction child child_bounds.2 (by omega)
            obtain ⟨later, there⟩ := further fun child member =>
              bounds child (List.mem_cons_of_mem _ member)
            exact ⟨_, .cons here there⟩
  induction ids with
  | nil => exact ⟨[], .nil⟩
  | cons id ids further =>
      obtain ⟨first, here⟩ :=
        below outline.size id (inside id List.mem_cons_self) (Nat.le_add_left _ _)
      obtain ⟨later, there⟩ := further fun id member => inside id (List.mem_cons_of_mem _ member)
      exact ⟨_, .cons here there⟩

/-- A pre-order holds the nodes whose parents lead to one of those that it begins with. -/
theorem mem_preorder_iff {ids order : List Nat} (preorder : outline.Preorder ids order)
    {id : Nat} : id ∈ order ↔ ∃ above ∈ ids, outline.Above above id := by
  induction preorder with
  | nil => simp
  | @cons first ids below later _ _ here further =>
      rw [List.mem_cons, List.mem_append, here, further, List.exists_mem_cons_iff, ← or_assoc]
      refine or_congr_left ?_
      rw [Above, Relation.ReflTransGen.cases_head_iff]
      refine or_congr eq_comm (exists_congr fun child => and_congr_left fun _ => ?_)
      exact linked.mem_children_iff

theorem lt_of_parentOf {parent child : Nat} (parentOf : outline.ParentOf parent child) :
    parent < child :=
  (linked.child_bounds parent child (linked.mem_children_iff.mpr parentOf)).1

theorem le_of_above {above id : Nat} (leads : outline.Above above id) : above ≤ id := by
  induction leads with
  | refl => exact Nat.le_refl _
  | tail _ parentOf induction =>
      exact Nat.le_trans induction (Nat.le_of_lt (linked.lt_of_parentOf parentOf))

theorem lt_size_of_above {above id : Nat} (leads : outline.Above above id)
    (inside : above < outline.size) : id < outline.size := by
  rcases Relation.ReflTransGen.cases_tail leads with rfl | ⟨parent, -, parentOf⟩
  · exact inside
  · exact (linked.child_bounds parent id (linked.mem_children_iff.mpr parentOf)).2

omit linked in
/-- The parents of a node stand in one line. -/
theorem above_total {left right id : Nat} (leads : outline.Above left id)
    (leads' : outline.Above right id) : outline.Above left right ∨ outline.Above right left := by
  induction leads with
  | refl => exact .inr leads'
  | @tail parent id leads parentOf induction =>
      rcases Relation.ReflTransGen.cases_tail leads' with rfl | ⟨parent', leads', parentOf'⟩
      · exact .inl (leads.tail parentOf)
      · obtain rfl : parent = parent' := Option.some.inj (parentOf.symm.trans parentOf')
        exact induction leads'

/-- No node is below two children of one parent. -/
theorem eq_of_above_of_parentOf {parent left right id : Nat}
    (parentOf : outline.ParentOf parent left) (parentOf' : outline.ParentOf parent right)
    (leads : outline.Above left id) (leads' : outline.Above right id) : left = right := by
  have apart {left right : Nat} (parentOf : outline.ParentOf parent left)
      (parentOf' : outline.ParentOf parent right) (leads : outline.Above left right) :
      left = right := by
    rcases Relation.ReflTransGen.cases_tail leads with same | ⟨above, leads, parentOf''⟩
    · exact same.symm
    · obtain rfl : parent = above := Option.some.inj (parentOf'.symm.trans parentOf'')
      have lower := linked.lt_of_parentOf parentOf
      have higher := linked.le_of_above leads
      omega
  rcases above_total leads leads' with higher | lower
  · exact apart parentOf parentOf' higher
  · exact (apart parentOf' parentOf lower).symm

/-- In a pre-order of children of one parent no node comes twice. -/
theorem nodup_preorder {ids order : List Nat} (preorder : outline.Preorder ids order)
    {parent : Nat} (children : ∀ id ∈ ids, outline.ParentOf parent id) (nodup : ids.Nodup) :
    order.Nodup := by
  induction preorder generalizing parent with
  | nil => exact List.nodup_nil
  | @cons first ids below later inner outer here further =>
      obtain ⟨first_not_mem, nodup⟩ := List.nodup_cons.mp nodup
      have first_child := children first List.mem_cons_self
      have later_child (id : Nat) (member : id ∈ ids) := children id (List.mem_cons_of_mem _ member)
      have below_nodup := here (fun id member => linked.mem_children_iff.mp member)
        ((linked.increasing first).imp fun less => Nat.ne_of_lt less)
      have first_above {id : Nat} (member : id ∈ below) :
          first < id ∧ outline.Above first id := by
        obtain ⟨child, child_mem, leads⟩ := (linked.mem_preorder_iff inner).mp member
        have parentOf := linked.mem_children_iff.mp child_mem
        exact ⟨Nat.lt_of_lt_of_le (linked.lt_of_parentOf parentOf) (linked.le_of_above leads),
          Relation.ReflTransGen.head parentOf leads⟩
      -- What the later nodes lead to is not below the first of them.
      have not_later {id : Nat} (leads : outline.Above first id) : id ∉ later := by
        intro member
        obtain ⟨other, other_mem, leads'⟩ := (linked.mem_preorder_iff outer).mp member
        have same := linked.eq_of_above_of_parentOf first_child (later_child other other_mem)
          leads leads'
        exact first_not_mem (same ▸ other_mem)
      refine List.nodup_cons.mpr ⟨?_, List.nodup_append.mpr
        ⟨below_nodup, further later_child nodup, ?_⟩⟩
      · intro member
        rcases List.mem_append.mp member with inner | outer
        · exact Nat.lt_irrefl _ (first_above inner).1
        · exact not_later .refl outer
      · rintro id member _ member' rfl
        exact not_later (first_above member).2 member'

/-- The pre-order of one node is the node, and then nodes with greater names, each once. -/
theorem nodup_preorder_singleton {id : Nat} {order : List Nat}
    (preorder : outline.Preorder [id] order) : order.Nodup := by
  obtain ⟨below, inner, rfl⟩ := preorder.exists_of_singleton
  refine List.nodup_cons.mpr ⟨fun member => ?_, linked.nodup_preorder inner
    (fun child member => linked.mem_children_iff.mp member)
    ((linked.increasing id).imp fun less => Nat.ne_of_lt less)⟩
  obtain ⟨child, child_mem, leads⟩ := (linked.mem_preorder_iff inner).mp member
  have lower := linked.lt_of_parentOf (linked.mem_children_iff.mp child_mem)
  have higher := linked.le_of_above leads
  omega

/-- The bound on the visits of a walk is not met: it visits the pre-order of the node where it
begins. -/
theorem eq_descendants {id : Nat} (inside : id < outline.size) {order : List Nat}
    (preorder : outline.Preorder [id] order) : order = outline.descendants id := by
  have subset : order ⊆ List.range outline.size := by
    intro node member
    obtain ⟨above, above_mem, leads⟩ := (linked.mem_preorder_iff preorder).mp member
    obtain rfl := List.mem_singleton.mp above_mem
    exact List.mem_range.mpr (linked.lt_size_of_above leads inside)
  have enough : order.length ≤ outline.size := by
    have fits := ((linked.nodup_preorder_singleton preorder).subperm subset).length_le
    rwa [List.length_range] at fits
  have walked := preorder.visit_append [] enough
  have stopped (n : Nat) : outline.visit n [] = [] := by cases n <;> rfl
  rw [stopped, List.append_nil, List.append_nil] at walked
  exact walked.symm

theorem preorder_descendants {id : Nat} (inside : id < outline.size) :
    outline.Preorder [id] (outline.descendants id) := by
  obtain ⟨order, preorder⟩ := linked.exists_preorder [id] fun _ member =>
    List.mem_singleton.mp member ▸ inside
  exact linked.eq_descendants inside preorder ▸ preorder

/-- Everything is below the root. -/
theorem above_root (id : Nat) (inside : id < outline.size) : outline.Above 0 id := by
  induction id using Nat.strong_induction_on with
  | _ id induction =>
      cases found : outline.parent? id with
      | none =>
          rw [(linked.parent_eq_none_iff id inside).mp found]
          exact .refl
      | some parent =>
          have less := linked.lt_of_parentOf found
          exact (induction parent less (Nat.lt_trans less inside)).tail found

end IsLinked

/-- The first leaf of a pre-order is the one that first children lead to. -/
theorem Preorder.head?_leaves {outline : Outline} {id leaf : Nat} {order : List Nat}
    (preorder : outline.Preorder [id] order)
    (leads : Relation.ReflTransGen outline.FirstBelow id leaf) (childless : outline.isLeaf leaf) :
    (order.filter outline.isLeaf).head? = some leaf := by
  induction leads using Relation.ReflTransGen.head_induction_on generalizing order with
  | refl =>
      obtain ⟨below, -, rfl⟩ := preorder.exists_of_singleton
      rw [List.filter_cons_of_pos childless, List.head?_cons]
  | @head id child firstBelow _ induction =>
      obtain ⟨below, inner, rfl⟩ := preorder.exists_of_singleton
      obtain ⟨children, children_eq⟩ := List.head?_eq_some_iff.mp firstBelow
      have inner_node : ¬outline.isLeaf id := by simp [isLeaf, children_eq]
      rw [children_eq] at inner
      cases inner with
      | @cons _ _ below later here _ =>
          have first : outline.Preorder [child] (child :: (below ++ [])) := .cons here .nil
          rw [List.append_nil] at first
          rw [List.filter_cons_of_neg inner_node, ← List.cons_append, List.filter_append,
            List.head?_append, induction first, Option.some_or]

/-! ## The nodes of a branch -/

section Grafted

open Branch

mutual

/-- Where the nodes of a branch stand in an outline, their names in order are its pre-order. -/
theorem preorder_of_nodes {outline : Outline} {id parent index : Nat} {branch : Branch}
    (stands : outline.Stands id (Branch.nodes id parent index branch)) :
    outline.Preorder [id] (List.range' id branch.count) := by
  cases branch with
  | mk entity children =>
      rw [Branch.nodes] at stands
      obtain ⟨top, below⟩ := stands.of_cons
      have children_eq : outline.children id = names (id + 1) children := by
        rw [Outline.children, top]
        rfl
      have inner := preorder_names_of_nodes below
      rw [← children_eq] at inner
      have whole := Preorder.cons inner .nil
      rwa [List.append_nil, ← List.range'_succ] at whole

theorem preorder_names_of_nodes {outline : Outline} {first parent index : Nat}
    {branches : List Branch}
    (stands : outline.Stands first (nodesOf first parent index branches)) :
    outline.Preorder (names first branches) (List.range' first (countOf branches)) := by
  cases branches with
  | nil => exact .nil
  | cons branch branches =>
      rw [nodesOf] at stands
      obtain ⟨here, later⟩ := stands.of_append
      rw [length_nodes] at later
      obtain ⟨below, inner, first_eq⟩ := (preorder_of_nodes here).exists_of_singleton
      rw [names, countOf, ← List.range'_append_1, first_eq, List.cons_append]
      exact .cons inner (preorder_names_of_nodes later)

end

end Grafted

/-! ## What a walk visits -/

/-- What the walk from a node visits. -/
structure Traverses (outline : Outline) (id : Nat) : Prop where
  /-- The walk ends, and without bound it visits the same nodes. -/
  visits : outline.Visits [id] (outline.descendants id)
  /-- It visits the pre-order of the node. -/
  preorder_iff : ∀ order, outline.Preorder [id] order ↔ order = outline.descendants id
  /-- It visits no node twice. -/
  nodup : (outline.descendants id).Nodup
  /-- It visits the node and what the node is above of, and nothing else. -/
  mem_iff : ∀ node, node ∈ outline.descendants id ↔ outline.Above id node
  /-- Its leaves come in the order of the walk. -/
  leaves_sublist : (outline.leaves id).Sublist (outline.descendants id)
  /-- Its leaves are the nodes without children. -/
  mem_leaves_iff : ∀ node, node ∈ outline.leaves id ↔
    outline.Above id node ∧ outline.children node = []
  /-- The first of its leaves is the one that first children lead to. -/
  head?_leaves : (outline.leaves id).head? = some (outline.firstLeaf id)

theorem IsLinked.traverses {outline : Outline} (linked : outline.IsLinked) {id : Nat}
    (inside : id < outline.size) : outline.Traverses id := by
  have preorder := linked.preorder_descendants inside
  have mem_iff (node : Nat) : node ∈ outline.descendants id ↔ outline.Above id node := by
    rw [linked.mem_preorder_iff preorder]
    simp
  constructor
  case visits =>
    have visits := preorder.visits_append .done
    rwa [List.append_nil, List.append_nil] at visits
  case preorder_iff =>
    exact fun order => ⟨linked.eq_descendants inside, fun same => same ▸ preorder⟩
  case nodup => exact linked.nodup_preorder_singleton preorder
  case mem_iff => exact mem_iff
  case leaves_sublist => exact List.filter_sublist
  case mem_leaves_iff =>
    intro node
    rw [leaves, List.mem_filter, mem_iff, isLeaf, List.isEmpty_iff]
  case head?_leaves =>
    obtain ⟨leads, -, childless⟩ := linked.navigates.first_leaf id inside
    exact preorder.head?_leaves leads childless

/-- The walk from the root visits every node once. -/
theorem IsLinked.perm_descendants_root {outline : Outline} (linked : outline.IsLinked) :
    (outline.descendants 0).Perm (List.range outline.size) := by
  have root := linked.traverses linked.root
  rw [List.perm_ext_iff_of_nodup root.nodup List.nodup_range]
  intro node
  rw [root.mem_iff, List.mem_range]
  exact ⟨fun leads => linked.lt_size_of_above leads linked.root, linked.above_root node⟩

/-- What is grafted onto a root is named in pre-order. -/
theorem descendants_graft_ofRoot (root : Entity) (branches : List Branch) :
    ((ofRoot root).graft 0 branches).descendants 0 =
      List.range ((ofRoot root).graft 0 branches).size := by
  have linked := (isLinked_ofRoot root).graft Nat.one_pos branches
  have children_eq : ((ofRoot root).graft 0 branches).children 0 = Branch.names 1 branches :=
    children_graft branches Nat.one_pos
  have below := preorder_names_of_nodes (stands_graft_ofRoot root branches)
  rw [← children_eq] at below
  have whole := Preorder.cons below .nil
  rw [List.append_nil] at whole
  rw [← linked.eq_descendants linked.root whole, size_graft, size_ofRoot, Nat.add_comm,
    List.range_eq_range', List.range'_succ]

end Outline

/-- **Walks are in pre-order.** In every outline that can be made by adding nodes and outlining
blocks, the walk from a node ends, visits the pre-order of the node, each node once, and meets its
leaves in order; the walk from the root visits every node. In the outline of a method it visits
them in the order of their names. -/
theorem walks_in_preorder :
    (∀ outline : Outline, outline.Reachable → (∀ id < outline.size, outline.Traverses id) ∧
      (outline.descendants 0).Perm (List.range outline.size)) ∧
    ∀ (source : Source) (name : String) (verify : Bool) (outline : Outline),
      (outlineMethod source name verify).result = .ok outline →
        outline.descendants 0 = List.range outline.size := by
  constructor
  · intro outline reachable
    have linked := reachable.isLinked
    exact ⟨fun id inside => linked.traverses inside, linked.perm_descendants_root⟩
  · intro source name verify outline outlined
    obtain ⟨method, branches, -, rfl, -⟩ := exists_of_outlineMethod_eq_ok outlined
    exact Outline.descendants_graft_ofRoot method.root branches

theorem retriedOutline_reachable : Outline.retriedOutline.Reachable :=
  .block branchingContext 1 branchingBlock _
    (.block ⟨.ofString "{ while (x) break; + }", false⟩ 1 unparsedBlock #[]
      seededOutline_reachable)

theorem walks_in_preorder_retriedOutline :
    (Outline.retriedOutline.Reachable ∧ 1 < Outline.retriedOutline.size ∧
      Outline.retriedOutline.Traverses 1) ∧
    (outlineMethod labeledSource "f" true).result = .ok labeledOutline ∧
      labeledOutline.descendants 0 = List.range labeledOutline.size := by
  have reachable := retriedOutline_reachable
  have inside : 1 < Outline.retriedOutline.size := by decide +kernel
  have outlined := result_outlineMethod_labeledSource
  exact ⟨⟨reachable, inside, (walks_in_preorder.1 _ reachable).1 1 inside⟩, outlined,
    walks_in_preorder.2 _ _ _ _ outlined⟩

end JavaOutline
