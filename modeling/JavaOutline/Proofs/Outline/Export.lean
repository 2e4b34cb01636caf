import JavaOutline.Outline.Method
import JavaOutline.Proofs.Json.Layout
import JavaOutline.Proofs.Outline.Graft
import JavaOutline.Proofs.Outline.Laminar

/-!
# The export of an outline

The export of a branch is a plain JSON value and holds all that the branch does, and what is grafted
onto a root is the branch at the root. The nodes of the outline of a method are named in the order
in which the branch lists them, so its export says everything about it.
-/

namespace JavaOutline

/-! ## Branches as JSON values -/

theorem EntityKind.name_injective {left right : EntityKind} (same : left.name = right.name) :
    left = right := by
  have found := ofName?_name left
  rw [same, ofName?_name] at found
  exact (Option.some.inj found).symm

namespace Json

theorem codePoints_injective {left right : String} (same : codePoints left = codePoints right) :
    left = right := by
  have read (text : String) : (codePoints text).map Char.ofNat = text.toList := by
    simp [codePoints, Function.comp_def]
  rw [← String.toList_inj, ← read left, same, read]

end Json

namespace Branch

mutual

theorem isPlain_json (branch : Branch) : branch.json.IsPlain := by
  cases branch with
  | mk entity children =>
      simp only [json, Json.ofMembers, List.map_cons, List.map_nil, Json.IsPlain,
        Json.MembersPlain, Json.ofString, Json.isText_codePoints, allPlain_jsons, and_self]

theorem allPlain_jsons (branches : List Branch) : Json.AllPlain (jsons branches) := by
  cases branches with
  | nil => trivial
  | cons branch branches => exact ⟨isPlain_json branch, allPlain_jsons branches⟩

end

mutual

/-- Branches with the same export are the same. -/
theorem eq_of_json_eq {left right : Branch} (same : left.json = right.json) : left = right := by
  obtain ⟨⟨value, kind, first, last⟩, children⟩ := left
  obtain ⟨⟨value', kind', first', last'⟩, children'⟩ := right
  simp only [json, Json.ofMembers, Json.ofString, List.map_cons, List.map_nil, Json.object.injEq,
    List.cons.injEq, Prod.mk.injEq, Json.string.injEq, Json.natural.injEq, Json.array.injEq,
    true_and, and_true] at same
  obtain ⟨kind_eq, value_eq, rfl, rfl, children_eq⟩ := same
  obtain rfl := EntityKind.name_injective (Json.codePoints_injective kind_eq)
  obtain rfl := Json.codePoints_injective value_eq
  obtain rfl := eq_of_jsons_eq children_eq
  rfl

theorem eq_of_jsons_eq {left right : List Branch} (same : jsons left = jsons right) :
    left = right := by
  match left, right with
  | [], [] => rfl
  | [], _ :: _ => cases same
  | _ :: _, [] => cases same
  | branch :: branches, branch' :: branches' =>
      obtain ⟨first, others⟩ := List.cons.inj same
      rw [eq_of_json_eq first, eq_of_jsons_eq others]

end

end Branch

/-! ## Reading a branch back -/

namespace Outline

open Branch

theorem eq_nil_of_countOf_eq_zero {branches : List Branch} (none_counted : countOf branches = 0) :
    branches = [] := by
  cases branches with
  | nil => rfl
  | cons branch branches =>
      obtain ⟨entity, children⟩ := branch
      simp only [countOf, count] at none_counted
      omega

mutual

/-- Where the nodes of a branch stand in an outline, that is the branch which is found there. -/
theorem branchUpTo?_of_nodes {outline : Outline} {id parent index : Nat} {branch : Branch}
    (stands : outline.Stands id (Branch.nodes id parent index branch)) {n : Nat}
    (enough : branch.count ≤ n + 1) : outline.branchUpTo? n id = some branch := by
  cases branch with
  | mk entity children =>
      rw [Branch.nodes] at stands
      obtain ⟨top, below⟩ := stands.of_cons
      have fewer : countOf children ≤ n := Nat.le_of_succ_le_succ enough
      cases n with
      | zero =>
          obtain rfl := eq_nil_of_countOf_eq_zero (Nat.le_zero.mp fewer)
          rw [branchUpTo?, top, Option.map_some]
      | succ n =>
          rw [branchUpTo?, top, Option.map_some, filterMap_branchUpTo?_of_nodes below fewer]

theorem filterMap_branchUpTo?_of_nodes {outline : Outline} {first parent index : Nat}
    {branches : List Branch}
    (stands : outline.Stands first (nodesOf first parent index branches)) {n : Nat}
    (enough : countOf branches ≤ n + 1) :
    (names first branches).filterMap (outline.branchUpTo? n) = branches := by
  cases branches with
  | nil => rfl
  | cons branch branches =>
      rw [countOf] at enough
      rw [nodesOf] at stands
      obtain ⟨here, later⟩ := stands.of_append
      rw [length_nodes] at later
      have found := branchUpTo?_of_nodes here (Nat.le_trans (Nat.le_add_right _ _) enough)
      rw [names, List.filterMap_cons_some found,
        filterMap_branchUpTo?_of_nodes later (Nat.le_trans (Nat.le_add_left _ _) enough)]

end

/-- What is grafted onto a root is the branch at the root. -/
theorem branch?_graft_ofRoot (root : Entity) (branches : List Branch) :
    ((ofRoot root).graft 0 branches).branch? 0 = some (.mk root branches) := by
  have above : ((ofRoot root).graft 0 branches).get? 0 =
      some ⟨root, none, 0, (names 1 branches).toArray⟩ := by
    rw [get?_graft_parent branches (show (ofRoot root).get? 0 = some ⟨root, none, 0, #[]⟩ from rfl)]
    simp [size_ofRoot]
  rw [branch?, size_graft, size_ofRoot, Nat.add_comm, branchUpTo?, above, Option.map_some,
    filterMap_branchUpTo?_of_nodes (stands_graft_ofRoot root branches) (Nat.le_succ _)]

end Outline

/-- **The export tells outlines apart.** Two outlines of methods, of whatever files, with the same
pretty export are the same, the names, parents and positions of all nodes included. -/
theorem outlineMethod_eq_of_prettyJson_eq {source source' : Source} {name name' : String}
    {verify verify' : Bool} {left right : Outline}
    (outlined : (outlineMethod source name verify).result = .ok left)
    (outlined' : (outlineMethod source' name' verify').result = .ok right)
    (same : left.prettyJson = right.prettyJson) : left = right := by
  obtain ⟨method, branches, -, rfl, -⟩ := exists_of_outlineMethod_eq_ok outlined
  obtain ⟨method', branches', -, rfl, -⟩ := exists_of_outlineMethod_eq_ok outlined'
  simp only [Outline.prettyJson, Outline.branch?_graft_ofRoot, Option.map_some,
    Option.getD_some] at same
  have json_eq := (Branch.isPlain_json _).eq_of_pretty_eq (Branch.isPlain_json _) same
  obtain ⟨root_eq, branches_eq⟩ := Branch.mk.inj (Branch.eq_of_json_eq json_eq)
  rw [root_eq, branches_eq]

/-- The file of `labeledSource` with another name for its class. -/
def renamedSource : Source := .ofString "class B{void f(){l:break;return;}}"

theorem result_outlineMethod_renamedSource :
    (outlineMethod renamedSource "f" false).result = .ok labeledOutline := by
  decide +kernel

theorem eq_of_prettyJson_renamedSource :
    (outlineMethod labeledSource "f" true).result = .ok labeledOutline ∧
      (outlineMethod renamedSource "f" false).result = .ok labeledOutline ∧
      labeledOutline.prettyJson = labeledOutline.prettyJson ∧ labeledOutline = labeledOutline :=
  ⟨result_outlineMethod_labeledSource, result_outlineMethod_renamedSource, rfl,
    outlineMethod_eq_of_prettyJson_eq result_outlineMethod_labeledSource
      result_outlineMethod_renamedSource rfl⟩

end JavaOutline
