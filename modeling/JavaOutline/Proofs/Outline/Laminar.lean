import JavaOutline.Outline.Method
import JavaOutline.Proofs.Outline.Nesting
import JavaOutline.Proofs.Outline.Refinement
import JavaOutline.Proofs.Reading.Methods

/-!
# Outlines are laminar

The extents of the outline of a method fit the source, an extent lies inside the extent of the
parent, and siblings stand in order. The branches that an outline was grown from are found again
among its nodes, so what holds of the branches of the body holds of the nodes.
-/

namespace JavaOutline

namespace Outline

open Branch

mutual

/-- Whether the nodes from `id` on are those of a branch below `parent`. -/
def Holds (outline : Outline) (id parent : Nat) : Branch → Prop
  | .mk entity children =>
    (∃ index, outline.get? id =
      some ⟨entity, some parent, index, (names (id + 1) children).toArray⟩) ∧
      HoldsAll outline (id + 1) id children

/-- Whether the nodes from `first` on are those of some branches below `parent`. -/
def HoldsAll (outline : Outline) (first parent : Nat) : List Branch → Prop
  | [] => True
  | branch :: branches =>
    Holds outline first parent branch ∧
      HoldsAll outline (first + branch.count) parent branches

end

mutual

theorem holds_of_get? {outline : Outline} {id parent : Nat} (index : Nat) {branch : Branch}
    (placed : ∀ i < branch.count,
      outline.get? (id + i) = (branch.nodes id parent index)[i]?) :
    outline.Holds id parent branch := by
  cases branch with
  | mk entity children =>
      refine ⟨⟨index, ?_⟩, holdsAll_of_get? 0 fun i lt => ?_⟩
      · have found := placed 0 (by simp [count])
        simpa [Branch.nodes] using found
      · have found := placed (i + 1) (by simp only [count]; omega)
        rw [Branch.nodes, List.getElem?_cons_succ] at found
        rw [← found]
        congr 1
        omega

theorem holdsAll_of_get? {outline : Outline} {first parent : Nat} (index : Nat)
    {branches : List Branch}
    (placed : ∀ i < countOf branches,
      outline.get? (first + i) = (nodesOf first parent index branches)[i]?) :
    outline.HoldsAll first parent branches := by
  cases branches with
  | nil => trivial
  | cons branch branches =>
      simp only [countOf, nodesOf] at placed
      refine ⟨holds_of_get? index fun i lt => ?_,
        holdsAll_of_get? (index + 1) fun i lt => ?_⟩
      · rw [placed i (by omega), List.getElem?_append_left]
        rw [length_nodes]
        exact lt
      · have found := placed (branch.count + i) (by omega)
        rw [List.getElem?_append_right (by rw [length_nodes]; omega), length_nodes,
          Nat.add_sub_cancel_left] at found
        rw [← found]
        congr 1
        omega

end

theorem Holds.exists_node {outline : Outline} {id parent : Nat} {branch : Branch}
    (holds : outline.Holds id parent branch) :
    ∃ node, outline.get? id = some node ∧ node.entity = branch.entity := by
  cases branch with
  | mk entity children =>
      obtain ⟨⟨index, found⟩, _⟩ := holds
      exact ⟨_, found, rfl⟩

theorem HoldsAll.exists_node {outline : Outline} {first parent : Nat} {branches : List Branch}
    {branch : Branch} (holds : outline.HoldsAll first parent branches)
    (member : branch ∈ branches) :
    ∃ id ∈ names first branches, ∃ node, outline.get? id = some node ∧
      node.entity = branch.entity := by
  induction branches generalizing first with
  | nil => cases member
  | cons other branches induction =>
      obtain ⟨holds_other, holds_later⟩ := holds
      cases member with
      | head => exact ⟨first, List.mem_cons_self, holds_other.exists_node⟩
      | tail _ member =>
          obtain ⟨id, id_mem, found⟩ := induction holds_later member
          exact ⟨id, List.mem_cons_of_mem first id_mem, found⟩

/-- Branches below a root are found again after it. -/
theorem holdsAll_graft_ofRoot (root : Entity) (branches : List Branch) :
    ((ofRoot root).graft 0 branches).HoldsAll 1 0 branches :=
  holdsAll_of_get? 0 fun i _ => get?_graft_new (ofRoot root) 0 i branches

/-- The root has the names of the branches below it as its children. -/
theorem get?_graft_ofRoot (root : Entity) (branches : List Branch) :
    ((ofRoot root).graft 0 branches).get? 0 =
      some ⟨root, none, 0, (names 1 branches).toArray⟩ := by
  rw [get?_graft_parent branches (show (ofRoot root).get? 0 = some ⟨root, none, 0, #[]⟩ from rfl),
    size_ofRoot, Array.empty_append]

/-- Whether two names are those of nodes of which the one may stand right before the other. -/
def Precedes (outline : Outline) (left right : Nat) : Prop :=
  ∃ first second, outline.get? left = some first ∧ outline.get? right = some second ∧
    first.entity.Precedes second.entity

theorem HoldsAll.isChain_names {outline : Outline} {first parent : Nat} {branches : List Branch}
    (holds : outline.HoldsAll first parent branches)
    (precedes : branches.IsChain fun left right => left.entity.Precedes right.entity) :
    (names first branches).IsChain outline.Precedes := by
  induction branches generalizing first with
  | nil => exact .nil
  | cons branch branches induction =>
      obtain ⟨holds_branch, holds_later⟩ := holds
      have later := induction holds_later precedes.tail
      cases branches with
      | nil => exact .singleton first
      | cons next branches =>
          obtain ⟨left, left_found, left_eq⟩ := holds_branch.exists_node
          obtain ⟨right, right_found, right_eq⟩ := holds_later.1.exists_node
          refine .cons_cons ⟨left, right, left_found, right_found, ?_⟩ later
          rw [left_eq, right_eq]
          exact precedes.rel

/-- Whether the extent of a node fits the source and lies inside that of its parent, and its
children stand in order. -/
structure Nested (source : Source) (outline : Outline) (node : Node) : Prop where
  /-- The extent fits the source. -/
  fits : node.entity.extent.Fits source
  /-- The extent lies inside that of the parent. -/
  within : ∀ parent, node.parent = some parent →
    ∃ above, outline.get? parent = some above ∧ node.entity.extent.Within above.entity.extent
  /-- The children stand in order. -/
  precedes : node.children.toList.IsChain outline.Precedes

mutual

theorem Holds.nested {source : Source} {outline : Outline} {id parent : Nat} {branch : Branch}
    {above : Node} (holds : outline.Holds id parent branch) (laminar : branch.Laminar source)
    (found_above : outline.get? parent = some above)
    (within : branch.entity.extent.Within above.entity.extent) :
    ∀ i < branch.count, ∃ node, outline.get? (id + i) = some node ∧ node.parent.isSome ∧
      outline.Nested source node := by
  cases branch with
  | mk entity children =>
      obtain ⟨⟨index, found⟩, holds_children⟩ := holds
      obtain ⟨fits, inside, precedes, laminar_children⟩ := laminar
      intro i lt
      cases i with
      | zero =>
          refine ⟨_, found, rfl, fits, ?_, holds_children.isChain_names precedes⟩
          rintro _ ⟨⟩
          exact ⟨above, found_above, within⟩
      | succ i =>
          have lt_children : i < countOf children := by
            simp only [count] at lt
            omega
          have nested := holds_children.nested laminar_children found inside i lt_children
          rwa [Nat.add_assoc, Nat.add_comm 1] at nested

theorem HoldsAll.nested {source : Source} {outline : Outline} {first parent : Nat}
    {branches : List Branch} {above : Node} (holds : outline.HoldsAll first parent branches)
    (laminar : AllLaminar source branches) (found_above : outline.get? parent = some above)
    (within : ∀ branch ∈ branches, branch.entity.extent.Within above.entity.extent) :
    ∀ i < countOf branches, ∃ node, outline.get? (first + i) = some node ∧
      node.parent.isSome ∧ outline.Nested source node := by
  cases branches with
  | nil => exact nofun
  | cons branch branches =>
      obtain ⟨holds_branch, holds_later⟩ := holds
      obtain ⟨laminar_branch, laminar_later⟩ := laminar
      intro i lt
      by_cases here : i < branch.count
      · have within_branch := within branch List.mem_cons_self
        exact holds_branch.nested laminar_branch found_above within_branch i here
      · have lt_later : i - branch.count < countOf branches := by
          simp only [countOf] at lt
          omega
        have nested := holds_later.nested laminar_later found_above
          (fun other member => within other (List.mem_cons_of_mem branch member)) _ lt_later
        rwa [Nat.add_assoc, Nat.add_sub_cancel' (Nat.le_of_not_lt here)] at nested

end

/-- Whether every node of an outline is nested, and every node but the root has a parent. -/
def Laminar (source : Source) (outline : Outline) : Prop :=
  ∀ id node, outline.get? id = some node →
    (id ≠ 0 → node.parent.isSome) ∧ outline.Nested source node

/-- Branches that fit the extent of a root make a laminar outline below it. -/
theorem laminar_graft {source : Source} {root : Entity} {branches : List Branch}
    (fits : root.extent.Fits source)
    (fit : Fit source root.extent.first (root.extent.last + 1) branches) :
    ((ofRoot root).graft 0 branches).Laminar source := by
  have root_found := get?_graft_ofRoot root branches
  have holds := holdsAll_graft_ofRoot root branches
  intro id node found
  cases id with
  | zero =>
      rw [root_found] at found
      cases found
      exact ⟨fun positive => (positive rfl).elim, fits, nofun, holds.isChain_names fit.precedes⟩
  | succ i =>
      have lt_size : i + 1 < ((ofRoot root).graft 0 branches).size :=
        (Array.getElem?_eq_some_iff.mp found).1
      rw [size_graft, size_ofRoot] at lt_size
      have within : ∀ branch ∈ branches, branch.entity.extent.Within root.extent :=
        fun branch member =>
          ⟨fit.lower_le branch member, Nat.le_of_lt_succ (fit.lt_upper branch member)⟩
      obtain ⟨other, other_found, has_parent, nested⟩ :=
        holds.nested fit.laminar root_found within i (by omega)
      rw [Nat.add_comm, found] at other_found
      cases other_found
      exact ⟨fun _ => has_parent, nested⟩

end Outline

/-- A method is outlined by grafting the forest of its body, if it has one, onto its root. -/
theorem exists_of_outlineMethod_eq_ok {source : Source} {name : String} {verify : Bool}
    {outline : Outline} (outlined : (outlineMethod source name verify).result = .ok outline) :
    ∃ method branches, (CompilationUnit.read source).findMethod? name = some method ∧
      outline = (Outline.ofRoot method.root).graft 0 branches ∧
      match method.body with
      | some body => OutlineContext.forest ⟨source, verify⟩ body.statements = .ok branches
      | none => branches = [] := by
  unfold outlineMethod at outlined
  simp only [readUnit] at outlined
  split at outlined
  · cases outlined
  · next method found =>
    refine ⟨method, ?_⟩
    unfold outlineBody at outlined
    cases body_eq : method.body with
    | none =>
        rw [body_eq] at outlined
        cases outlined
        exact ⟨[], found, (Outline.graft_nil _ 0).symm, rfl⟩
    | some body =>
        rw [body_eq] at outlined
        obtain ⟨later, ran⟩ := outlineBlock_eq_graft ⟨source, verify⟩
          (Outline.isClosed_ofRoot method.root) (Nat.zero_lt_one) body _
        simp only at outlined
        cases forest_eq : OutlineContext.forest ⟨source, verify⟩ body.statements with
        | ok branches =>
            rw [forest_eq] at ran
            rw [ran] at outlined
            cases outlined
            exact ⟨branches, found, rfl, forest_eq⟩
        | error rejection =>
            rw [forest_eq] at ran
            rw [ran] at outlined
            cases outlined

/-- The root of the outline of a method has the extent of the tokens of the method. -/
theorem Method.LaidOut.extent_root {source : Source} {method : Method} {before after : Cursor}
    (laidOut : method.LaidOut before after) (order : before.InOrder source) :
    before.here < after.behind ∧ method.root.extent = ⟨before.here, after.behind - 1⟩ := by
  have here_lt := laidOut.reachesOn.here_lt_behind order
  have span_eq : method.span = ⟨before.here, after.behind⟩ := by
    rw [laidOut.spans.2, Cursor.spanFrom, Nat.max_eq_left (Nat.le_of_lt here_lt)]
  refine ⟨here_lt, ?_⟩
  have found : method.span.extent? = some ⟨before.here, after.behind - 1⟩ := by
    rw [span_eq]
    exact Span.extent?_eq_some_iff.mpr ⟨here_lt, rfl⟩
  rw [Method.root, found]
  rfl

/-- **Outlines are laminar.** Every extent of the outline of a method fits the source and lies
inside that of the parent, and siblings stand in order, but for the alternatives of a condition. -/
theorem outlineMethod_laminar {source : Source} {name : String} {verify : Bool} {outline : Outline}
    (outlined : (outlineMethod source name verify).result = .ok outline) :
    outline.Laminar source := by
  obtain ⟨method, branches, found, rfl, grown⟩ := exists_of_outlineMethod_eq_ok outlined
  obtain ⟨before, after, reaches, laidOut⟩ := CompilationUnit.readAfter_of_findMethod? found
  have order := (Cursor.inOrder_start (Token.inOrder_scan source)).reaches reaches
  obtain ⟨here_lt, extent_eq⟩ := laidOut.extent_root order
  have fit : Branch.Fit source before.here after.behind branches := by
    cases body_eq : method.body with
    | none =>
        rw [body_eq] at grown
        rw [grown]
        exact .nil
    | some body =>
        obtain ⟨span, statements⟩ := body
        rw [body_eq] at grown
        have fits := Branch.ForestFits.between order (laidOut.body _ body_eq)
          Block.LaidOut.reaches fun order laidOut => .block order laidOut fun order laidOut =>
            OutlineContext.fits_forest ⟨source, verify⟩ order statements laidOut
        exact fits branches grown
  apply Outline.laminar_graft
  · rw [extent_eq]
    exact Extent.fits_of_lt here_lt order.boundary_here
      (order.reaches laidOut.reachesOn.reaches).boundary
  · rw [extent_eq, Nat.sub_add_cancel (Nat.zero_lt_of_lt here_lt)]
    exact fit

/-- A file with a method of two statements, one of them inside another. -/
def labeledSource : Source := .ofString "class A{void f(){l:break;return;}}"

/-- The outline of its method. -/
def labeledOutline : Outline :=
  ⟨#[⟨⟨"f", .method, ⟨8, 32⟩⟩, none, 0, #[1, 3]⟩,
    ⟨⟨"l", .labeledStatement, ⟨17, 24⟩⟩, some 0, 0, #[2]⟩,
    ⟨⟨"", .breakStatement, ⟨19, 24⟩⟩, some 1, 0, #[]⟩,
    ⟨⟨"", .returnStatement, ⟨25, 31⟩⟩, some 0, 1, #[]⟩]⟩

theorem result_outlineMethod_labeledSource :
    (outlineMethod labeledSource "f" true).result = .ok labeledOutline := by
  decide +kernel

theorem laminar_labeledOutline :
    (outlineMethod labeledSource "f" true).result = .ok labeledOutline ∧
      labeledOutline.Laminar labeledSource :=
  ⟨result_outlineMethod_labeledSource, outlineMethod_laminar result_outlineMethod_labeledSource⟩

end JavaOutline
