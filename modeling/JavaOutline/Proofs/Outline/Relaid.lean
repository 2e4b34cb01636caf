import JavaOutline.Outline.Method
import JavaOutline.Proofs.Java.Erasure
import JavaOutline.Proofs.Outline.Redundancy
import JavaOutline.Proofs.Outline.RelaidValues

/-!
# Layout does not matter

Two sources that differ in the space between their tokens, but not in whether a `>` touches the
token behind it, are read as the same file at other offsets, and their methods have the same
outlines but for extents and for values that are copied from the source.
-/

namespace JavaOutline

open Relocatable (relocate)

/-! ## Nodes with values that are not copied -/

/-- For each label of a group, whether no part of its value is copied from the source. -/
def SwitchLabel.plains : List SwitchLabel → List Bool
  | [] => []
  | .case _ values :: labels => Expr.allPlain values :: SwitchLabel.plains labels
  | .default _ :: labels => true :: SwitchLabel.plains labels

mutual

/-- For each node of a statement in the order of creation, whether no part of its value is copied
from the source. -/
def Stmt.plains : Stmt → List Bool
  | .locals _ | .localType .. | .expr .. | .constructorCall .. | .returns _ (some _)
  | .throws .. => [false]
  | .jump .. | .returns _ none => [true]
  | .assertion _ condition none => [condition.isPlain]
  | .assertion _ condition (some message) => [condition.isPlain && message.isPlain]
  | .conditional _ condition whenTrue none =>
    condition.isPlain :: condition.isPlain :: whenTrue.plains
  | .conditional _ condition whenTrue (some whenFalse) =>
    condition.isPlain :: (condition.isPlain :: whenTrue.plains ++
      condition.isPlain :: whenFalse.plains)
  | .whileLoop _ condition body | .doLoop _ body condition
  | .forLoop _ _ (some condition) _ body => condition.isPlain :: body.plains
  | .forLoop _ _ none _ body | .labeled _ _ body => true :: body.plains
  | .forEach _ _ collection body => collection.isPlain :: body.plains
  | .switch _ selector groups => selector.isPlain :: SwitchGroup.plains groups
  | .synchronized _ lock (.mk _ statements) => lock.isPlain :: Stmt.allPlains statements
  | .tries _ resources (.mk _ statements) handlers cleanup =>
    resources.isEmpty :: (true :: Stmt.allPlains statements ++
      (Handler.plains handlers ++ Block.cleanupPlains cleanup))
  | .block (.mk _ statements) => Stmt.allPlains statements
  | .empty _ | .unparsed _ => []

/-- For each node of some statements, whether no part of its value is copied. -/
def Stmt.allPlains : List Stmt → List Bool
  | [] => []
  | stmt :: stmts => stmt.plains ++ Stmt.allPlains stmts

/-- For each node of some groups, whether no part of its value is copied. -/
def SwitchGroup.plains : List SwitchGroup → List Bool
  | [] => []
  | .mk _ _ labels statements :: groups =>
    SwitchLabel.plains labels ++ (Stmt.allPlains statements ++ SwitchGroup.plains groups)

/-- For each node of the `catch` clauses of a `try`, whether no part of its value is copied. -/
def Handler.plains : List Handler → List Bool
  | [] => []
  | first :: rest => true :: (first.onePlains ++ Handler.allPlains rest)

/-- For each node of a `catch` clause, whether no part of its value is copied. -/
def Handler.onePlains : Handler → List Bool
  | .mk _ _ _ (.mk _ statements) => true :: Stmt.allPlains statements

/-- For each node of some `catch` clauses, whether no part of its value is copied. -/
def Handler.allPlains : List Handler → List Bool
  | [] => []
  | handler :: handlers => handler.onePlains ++ Handler.allPlains handlers

/-- For each node of a `finally` clause, whether no part of its value is copied. -/
def Block.cleanupPlains : Option Block → List Bool
  | none => []
  | some (.mk _ statements) => true :: Stmt.allPlains statements

end

/-- For each node of the outline of a method, whether no part of its value is copied. -/
def Method.plains (method : Method) : List Bool :=
  true :: (method.body.elim [] fun body => Stmt.allPlains body.statements)

/-! ## Comparing branches -/

/-- Whether two lists of branches have the same shape, kinds and plain values. -/
inductive Branch.AllAlike : List Bool → List Branch → List Branch → Prop
  | nil : AllAlike [] [] []
  | cons {plain : Bool} {inner plains : List Bool} {entity entity' : Entity}
      {below below' rest rest' : List Branch} (kind_eq : entity.kind = entity'.kind)
      (same : SameIf plain entity.value entity'.value) (children : AllAlike inner below below')
      (later : AllAlike plains rest rest') :
      AllAlike (plain :: (inner ++ plains)) (.mk entity below :: rest) (.mk entity' below' :: rest')

theorem Branch.AllAlike.append {plains plains' : List Bool} {left right left' right' : List Branch}
    (alike : AllAlike plains left right) (alike' : AllAlike plains' left' right') :
    AllAlike (plains ++ plains') (left ++ left') (right ++ right') := by
  induction alike with
  | nil => exact alike'
  | cons kind_eq same children _ _ induction =>
      rw [List.cons_append, List.append_assoc]
      exact .cons kind_eq same children induction

namespace OutlineContext

open Branch

/-- Whether two forests have the same shape, kinds and plain values, or are rejected for the same
reason. -/
abbrev AlikeForests (plains : List Bool) :
    Except Rejection (List Branch) → Except Rejection (List Branch) → Prop :=
  Alike Rejection.SameVariant (AllAlike plains)

section Forests

variable {texts texts' : Parallel} {tokens : List Token} {size limit : Nat} {left right : Source}

theorem alike_beside {plains plains' : List Bool}
    {first first' second second' : Except Rejection (List Branch)}
    (alike : AlikeForests plains first first') (alike' : AlikeForests plains' second second') :
    AlikeForests (plains ++ plains') (beside first second) (beside first' second') :=
  .bind alike fun _ _ same => .bind alike' fun _ _ same' => .ok (same.append same')

theorem alike_entity {kind : EntityKind} {value value' : String} {span span' : Span}
    {plain : Bool} (filled : span.start < span.stop ↔ span'.start < span'.stop)
    (same : SameIf plain value value') :
    Alike Rejection.SameVariant
      (fun entity entity' => entity.kind = entity'.kind ∧ SameIf plain entity.value entity'.value)
      ((trusting left).entity kind value span) ((trusting right).entity kind value' span') := by
  rw [entity_eq, entity_eq]
  by_cases nonempty : span.start < span.stop
  · rw [if_pos nonempty, if_pos (filled.mp nonempty)]
    exact .ok ⟨rfl, same⟩
  · rw [if_neg nonempty, if_neg (nonempty ∘ filled.mpr)]
    exact .error trivial

theorem alike_branch {kind : EntityKind} {value value' : String} {span span' : Span}
    {plain : Bool} {plains : List Bool} {children children' : Except Rejection (List Branch)}
    (filled : span.start < span.stop ↔ span'.start < span'.stop)
    (same : SameIf plain value value') (alike : AlikeForests plains children children') :
    AlikeForests (plain :: plains) ((trusting left).branch kind value span children)
      ((trusting right).branch kind value' span' children') := by
  refine .bind (alike_entity filled same) fun entity entity' ⟨kind_eq, same⟩ => ?_
  refine .bind alike fun below below' children => ?_
  have alone : AllAlike (plain :: (plains ++ [])) [.mk entity below] [.mk entity' below'] :=
    .cons kind_eq same children .nil
  rw [List.append_nil] at alone
  exact .ok alone

/-- What was read is empty in both layouts or in neither. -/
theorem filled_iff (both : texts.LayBoth texts' tokens size left right) {node : Construct}
    (stands : node.StandsAmong tokens) :
    texts.move node.span.start < texts.move node.span.stop ↔
      texts'.move node.span.start < texts'.move node.span.stop :=
  (both.left.start_lt_stop_iff stands).trans (both.right.start_lt_stop_iff stands).symm

theorem alike_leaf {kind : EntityKind} {value value' : String} {span span' : Span} {plain : Bool}
    (filled : span.start < span.stop ↔ span'.start < span'.stop)
    (same : SameIf plain value value') :
    AlikeForests [plain] ((trusting left).leaf kind value span)
      ((trusting right).leaf kind value' span') :=
  alike_branch filled same (.ok .nil)

theorem alike_verbatimLeaf (both : texts.LayBoth texts' tokens size left right)
    {node : Construct} (stands : node.StandsAmong tokens) (kind : EntityKind) :
    AlikeForests [false] ((trusting left).verbatimLeaf kind (relocate texts.move node.span))
      ((trusting right).verbatimLeaf kind (relocate texts'.move node.span)) :=
  .bind (alike_slice both stands) fun _ _ same => alike_leaf (filled_iff both stands) same

theorem alike_labelForest (both : texts.LayBoth texts' tokens size left right)
    (labels : List SwitchLabel)
    (stands : ∀ label ∈ labels, (Construct.label label).StandsAmong tokens) :
    AlikeForests (SwitchLabel.plains (relocate texts.move labels))
      ((trusting left).labelForest (relocate texts.move labels))
      ((trusting right).labelForest (relocate texts'.move labels)) := by
  induction labels with
  | nil => exact .ok .nil
  | cons label labels induction =>
      have later := induction fun other member => stands other (.tail label member)
      have stands_label := stands label List.mem_cons_self
      have filled := filled_iff both stands_label
      cases label with
      | case span values =>
          have rendered := alike_renderValues both values fun value member =>
            stands_label.part (List.mem_map_of_mem member)
          rw [Expr.relocateAll_eq, Expr.relocateAll_eq] at rendered
          exact .bind rendered fun _ _ same => alike_beside (alike_leaf filled same) later
      | default span => exact alike_beside (alike_leaf filled fun _ => rfl) later

theorem texts_relocate (f : Nat → Nat) (types : List TypeRef) :
    (relocate f types).map (·.text) = types.map (·.text) :=
  List.map_map

/-- The span over some `catch` clauses is not empty in any layout. -/
theorem start_lt_stop_handlersSpan (lays : texts.Lays tokens size left) {first : Handler}
    (rest : List Handler) (stands : (Construct.handler first).StandsAmong tokens)
    (filled : first.Filled limit) :
    (Builder.handlersSpan (first.relocate texts.move)
        (Handler.relocateAll texts.move rest)).start <
      (Builder.handlersSpan (first.relocate texts.move)
        (Handler.relocateAll texts.move rest)).stop := by
  obtain ⟨span, types, name, body⟩ := first
  have nonempty := (lays.start_lt_stop_iff stands).mpr filled.1
  exact lt_of_le_of_lt (min_le_left _ _) (lt_of_lt_of_le nonempty (le_max_left _ _))

mutual

theorem alike_stmtForest (both : texts.LayBoth texts' tokens size left right) (stmt : Stmt)
    (stands : (Construct.stmt stmt).StandsAmong tokens) (filled : stmt.Filled limit) :
    AlikeForests (stmt.relocate texts.move).plains
      ((trusting left).stmtForest (stmt.relocate texts.move))
      ((trusting right).stmtForest (stmt.relocate texts'.move)) := by
  have nonempty := filled_iff both stands
  cases stmt with
  | locals declaration => exact alike_verbatimLeaf both stands _
  | localType span kind name => exact alike_verbatimLeaf both stands _
  | expr span expr =>
      refine .bind (alike_expressionKind expr) fun kind kind' same => ?_
      subst same
      exact alike_verbatimLeaf both stands kind
  | constructorCall span target outer arguments => exact alike_verbatimLeaf both stands _
  | assertion span condition message =>
      have rendered := alike_renderValue both condition (stands.part List.mem_cons_self)
      cases message with
      | none => exact .bind rendered fun _ _ same => alike_leaf nonempty same
      | some message =>
          have noted := alike_renderValue both message
            (stands.part (.tail _ List.mem_cons_self))
          exact .bind rendered fun _ _ first => .bind noted fun _ _ second =>
            alike_leaf nonempty fun plain => by cases first.and second plain; rfl
  | jump span kind label =>
      refine alike_leaf nonempty fun _ => ?_
      cases label <;> rfl
  | returns span value =>
      cases value with
      | none => exact alike_leaf nonempty fun _ => rfl
      | some value =>
          exact .bind (alike_tailText both stands List.mem_cons_self filled) fun _ _ same =>
            alike_leaf nonempty same
  | throws span value =>
      exact .bind (alike_tailText both stands List.mem_cons_self filled) fun _ _ same =>
        alike_leaf nonempty same
  | conditional span condition whenTrue whenFalse =>
      have rendered := alike_renderValue both condition (stands.part List.mem_cons_self)
      have stands_true := stands.part (.tail _ List.mem_cons_self)
      cases whenFalse with
      | none =>
          have branch := alike_stmtForest both whenTrue stands_true filled.2
          exact .bind rendered fun _ _ same =>
            alike_branch nonempty same (alike_branch nonempty same branch)
      | some whenFalse =>
          have stands_false := stands.part (.tail _ (.tail _ List.mem_cons_self))
          have branch := alike_stmtForest both whenTrue stands_true filled.1.2
          have other := alike_stmtForest both whenFalse stands_false filled.2.2
          exact .bind rendered fun _ _ same => alike_branch nonempty same
            (alike_beside (alike_branch nonempty same branch) (alike_branch nonempty same other))
  | whileLoop span condition body =>
      have inner := alike_stmtForest both body (stands.part (.tail _ List.mem_cons_self)) filled.2
      exact .bind (alike_renderValue both condition (stands.part List.mem_cons_self))
        fun _ _ same => alike_branch nonempty same inner
  | doLoop span body condition =>
      have inner := alike_stmtForest both body (stands.part List.mem_cons_self) filled.2
      exact .bind
        (alike_renderValue both condition (stands.part (.tail _ List.mem_cons_self)))
        fun _ _ same => alike_branch nonempty same inner
  | forLoop span init condition update body =>
      have inner := alike_stmtForest both body
        (stands.part (List.mem_append_right _ List.mem_cons_self)) filled.2
      cases condition with
      | none => exact alike_branch nonempty (fun _ => rfl) inner
      | some condition =>
          have stands_condition := stands.part (List.mem_append_left _
            (List.mem_append_left _ (List.mem_append_right _ List.mem_cons_self)))
          exact .bind (alike_renderValue both condition stands_condition)
            fun _ _ same => alike_branch nonempty same inner
  | forEach span element collection body =>
      have inner := alike_stmtForest both body
        (stands.part (.tail _ (.tail _ List.mem_cons_self))) filled.2
      exact .bind
        (alike_renderValue both collection (stands.part (.tail _ List.mem_cons_self)))
        fun _ _ same =>
          alike_branch nonempty (fun plain => by cases same plain; rfl) inner
  | switch span selector groups =>
      have inner := alike_groupForest both groups
        (fun group member => stands.part (.tail _ (List.mem_map_of_mem member))) filled
      exact .bind (alike_renderValue both selector (stands.part List.mem_cons_self))
        fun _ _ same => alike_branch nonempty same inner
  | synchronized span lock body =>
      have stands_body := stands.part (.tail _ List.mem_cons_self)
      obtain ⟨bodySpan, statements⟩ := body
      have inner := alike_forest both statements
        (fun stmt member => stands_body.part (List.mem_map_of_mem member)) filled
      exact .bind (alike_renderValue both lock (stands.part List.mem_cons_self))
        fun _ _ same => alike_branch nonempty same inner
  | tries span resources body handlers cleanup =>
      obtain ⟨⟨_, filled_body⟩, filled_handlers, filled_cleanup⟩ := filled
      have cut := alike_slices both resources fun resource member => stands.part
        (List.mem_append_left _ (List.mem_append_left _ (List.mem_map_of_mem member)))
      have stands_body : (Construct.block body).StandsAmong tokens := stands.part
        (List.mem_append_left _ (List.mem_append_right _ List.mem_cons_self))
      have clauses := alike_clauseForest both handlers
        (fun handler member => stands.part (List.mem_append_left _
          (List.mem_append_right _ (.tail _ (List.mem_map_of_mem member))))) filled_handlers
      have nonempty_body := filled_iff both stands_body
      obtain ⟨bodySpan, statements⟩ := body
      have inner := alike_forest both statements
        (fun stmt member => stands_body.part (List.mem_map_of_mem member)) filled_body
      have final : AlikeForests (Block.cleanupPlains (Block.relocateOption texts.move cleanup))
          ((trusting left).cleanupForest (Block.relocateOption texts.move cleanup))
          ((trusting right).cleanupForest (Block.relocateOption texts'.move cleanup)) := by
        cases cleanup with
        | none => exact .ok .nil
        | some cleanup =>
            have stands_cleanup : (Construct.block cleanup).StandsAmong tokens := stands.part
              (List.mem_append_right _ List.mem_cons_self)
            have nonempty_cleanup := filled_iff both stands_cleanup
            obtain ⟨cleanupSpan, statements⟩ := cleanup
            exact alike_branch nonempty_cleanup (fun _ => rfl) (alike_forest both statements
              (fun stmt member => stands_cleanup.part (List.mem_map_of_mem member))
              filled_cleanup.2)
      exact .bind cut fun _ _ same => alike_branch nonempty
        (fun plain => by cases same plain; rfl)
        (alike_beside (alike_branch nonempty_body (fun _ => rfl) inner)
          (alike_beside clauses final))
  | labeled span label body =>
      exact alike_branch nonempty (fun _ => rfl)
        (alike_stmtForest both body (stands.part (.tail _ List.mem_cons_self)) filled.2)
  | block inner =>
      have stands_inner := stands.part List.mem_cons_self
      obtain ⟨span, statements⟩ := inner
      exact alike_forest both statements
        (fun stmt member => stands_inner.part (List.mem_map_of_mem member)) filled
  | empty span => exact .ok .nil
  | unparsed span => exact .error rfl

theorem alike_forest (both : texts.LayBoth texts' tokens size left right) (stmts : List Stmt)
    (stands : ∀ stmt ∈ stmts, (Construct.stmt stmt).StandsAmong tokens)
    (filled : Stmt.AllFilled limit stmts) :
    AlikeForests (Stmt.allPlains (Stmt.relocateAll texts.move stmts))
      ((trusting left).forest (Stmt.relocateAll texts.move stmts))
      ((trusting right).forest (Stmt.relocateAll texts'.move stmts)) := by
  cases stmts with
  | nil => exact .ok .nil
  | cons stmt stmts =>
      exact alike_beside (alike_stmtForest both stmt (stands stmt List.mem_cons_self) filled.1.2)
        (alike_forest both stmts (fun other member => stands other (.tail stmt member)) filled.2)

theorem alike_groupForest (both : texts.LayBoth texts' tokens size left right)
    (groups : List SwitchGroup)
    (stands : ∀ group ∈ groups, (Construct.group group).StandsAmong tokens)
    (filled : SwitchGroup.AllFilled limit groups) :
    AlikeForests (SwitchGroup.plains (SwitchGroup.relocateAll texts.move groups))
      ((trusting left).groupForest (SwitchGroup.relocateAll texts.move groups))
      ((trusting right).groupForest (SwitchGroup.relocateAll texts'.move groups)) := by
  cases groups with
  | nil => exact .ok .nil
  | cons group groups =>
      have stands_group := stands group List.mem_cons_self
      obtain ⟨span, arrow, labels, statements⟩ := group
      exact alike_beside
        (alike_labelForest both labels fun label member =>
          stands_group.part (List.mem_append_left _ (List.mem_map_of_mem member)))
        (alike_beside
          (alike_forest both statements (fun stmt member =>
            stands_group.part (List.mem_append_right _ (List.mem_map_of_mem member))) filled.1.2)
          (alike_groupForest both groups (fun other member => stands other (.tail _ member))
            filled.2))

theorem alike_clauseForest (both : texts.LayBoth texts' tokens size left right)
    (handlers : List Handler)
    (stands : ∀ handler ∈ handlers, (Construct.handler handler).StandsAmong tokens)
    (filled : Handler.AllFilled limit handlers) :
    AlikeForests (Handler.plains (Handler.relocateAll texts.move handlers))
      ((trusting left).clauseForest (Handler.relocateAll texts.move handlers))
      ((trusting right).clauseForest (Handler.relocateAll texts'.move handlers)) := by
  cases handlers with
  | nil => exact .ok .nil
  | cons first rest =>
      have stands_first := stands first List.mem_cons_self
      have nonempty := start_lt_stop_handlersSpan both.left rest stands_first filled.1
      have nonempty' := start_lt_stop_handlersSpan both.right rest stands_first filled.1
      exact alike_branch (iff_of_true nonempty nonempty') (fun _ => rfl)
        (alike_beside (alike_handlerForest both first stands_first filled.1)
          (alike_handlersForest both rest (fun other member => stands other (.tail first member))
            filled.2))

theorem alike_handlerForest (both : texts.LayBoth texts' tokens size left right)
    (handler : Handler) (stands : (Construct.handler handler).StandsAmong tokens)
    (filled : handler.Filled limit) :
    AlikeForests (handler.relocate texts.move).onePlains
      ((trusting left).handlerForest (handler.relocate texts.move))
      ((trusting right).handlerForest (handler.relocate texts'.move)) := by
  have nonempty := filled_iff both stands
  obtain ⟨span, types, name, body⟩ := handler
  have stands_body : (Construct.block body).StandsAmong tokens :=
    stands.part (List.mem_append_right _ List.mem_cons_self)
  obtain ⟨bodySpan, statements⟩ := body
  refine alike_branch nonempty (fun _ => ?_) (alike_forest both statements
    (fun stmt member => stands_body.part (List.mem_map_of_mem member)) filled.2)
  rw [texts_relocate, texts_relocate]

theorem alike_handlersForest (both : texts.LayBoth texts' tokens size left right)
    (handlers : List Handler)
    (stands : ∀ handler ∈ handlers, (Construct.handler handler).StandsAmong tokens)
    (filled : Handler.AllFilled limit handlers) :
    AlikeForests (Handler.allPlains (Handler.relocateAll texts.move handlers))
      ((trusting left).handlersForest (Handler.relocateAll texts.move handlers))
      ((trusting right).handlersForest (Handler.relocateAll texts'.move handlers)) := by
  cases handlers with
  | nil => exact .ok .nil
  | cons handler handlers =>
      exact alike_beside
        (alike_handlerForest both handler (stands handler List.mem_cons_self) filled.1)
        (alike_handlersForest both handlers
          (fun other member => stands other (.tail handler member)) filled.2)

end

end Forests

end OutlineContext

/-! ## Comparing outlines -/

/-- Whether two nodes stand at the same place, are of the same kind, and have the same value if it
is plain. -/
structure Node.Alike (plain : Bool) (left right : Node) : Prop where
  kind_eq : left.entity.kind = right.entity.kind
  parent_eq : left.parent = right.parent
  index_eq : left.index = right.index
  children_eq : left.children = right.children
  same : SameIf plain left.entity.value right.entity.value

/-- Whether two lists of nodes are alike node by node. -/
def Node.AllAlike : List Bool → List Node → List Node → Prop
  | [], [], [] => True
  | plain :: plains, left :: lefts, right :: rights =>
    left.Alike plain right ∧ Node.AllAlike plains lefts rights
  | _, _, _ => False

/-- Whether two outlines are alike node by node. -/
def Outline.Alike (plains : List Bool) (left right : Outline) : Prop :=
  Node.AllAlike plains left.nodes.toList right.nodes.toList

theorem Node.AllAlike.append {plains plains' : List Bool} {left right left' right' : List Node}
    (alike : AllAlike plains left right) (alike' : AllAlike plains' left' right') :
    AllAlike (plains ++ plains') (left ++ left') (right ++ right') := by
  fun_induction AllAlike plains left right with
  | case1 => exact alike'
  | case2 plain plains node nodes other others induction =>
      exact ⟨alike.1, induction alike.2⟩
  | case3 => exact alike.elim

namespace Branch.AllAlike

variable {plains : List Bool} {left right : List Branch}

theorem countOf_eq (alike : AllAlike plains left right) : countOf left = countOf right := by
  induction alike with
  | nil => rfl
  | cons _ _ _ _ children later => simp only [countOf, count, children, later]

theorem names_eq (alike : AllAlike plains left right) (first : Nat) :
    names first left = names first right := by
  induction alike generalizing first with
  | nil => rfl
  | cons _ _ children _ _ later => simp only [names, count, children.countOf_eq, later]

/-- Alike branches have alike nodes. -/
theorem nodesOf (alike : AllAlike plains left right) (first parent index : Nat) :
    Node.AllAlike plains (nodesOf first parent index left)
      (nodesOf first parent index right) := by
  induction alike generalizing first parent index with
  | nil => trivial
  | cons kind_eq same children _ below later =>
      simp only [Branch.nodesOf, nodes, count, children.countOf_eq, children.names_eq]
      exact ⟨⟨kind_eq, rfl, rfl, rfl, same⟩, (below ..).append (later ..)⟩

/-- Alike branches make alike outlines. -/
theorem graft (alike : AllAlike plains left right) {root root' : Entity}
    (kind_eq : root.kind = root'.kind) (value_eq : root.value = root'.value) :
    Outline.Alike (true :: plains) ((Outline.ofRoot root).graft 0 left)
      ((Outline.ofRoot root').graft 0 right) := by
  have nodes_eq (root : Entity) (branches : List Branch) :
      ((Outline.ofRoot root).graft 0 branches).nodes.toList =
        ⟨root, none, 0, (names 1 branches).toArray⟩ :: Branch.nodesOf 1 0 0 branches := by
    simp [Outline.graft, Outline.ofRoot, Outline.size, Outline.children, Outline.get?]
  rw [Outline.Alike, nodes_eq, nodes_eq, alike.names_eq]
  exact ⟨⟨kind_eq, rfl, rfl, rfl, fun _ => value_eq⟩, alike.nodesOf 1 0 0⟩

end Branch.AllAlike

/-! ## Methods -/

mutual

theorem Member.findMethod?_relocate (f : Nat → Nat) (name : String) (member : Member) :
    (member.relocate f).findMethod? name =
      (member.findMethod? name).map (Relocatable.relocate f) := by
  cases member with
  | field | initializer => rfl
  | method found =>
      have name_eq : (Relocatable.relocate f found).name.text = found.name.text := rfl
      rw [Member.relocate, Member.findMethod?, Member.findMethod?, name_eq]
      split <;> rfl
  | type header members => exact Member.findMethodIn?_relocate f name members

theorem Member.findMethodIn?_relocate (f : Nat → Nat) (name : String) (members : List Member) :
    Member.findMethodIn? name (Member.relocateAll f members) =
      (Member.findMethodIn? name members).map (Relocatable.relocate f) := by
  cases members with
  | nil => rfl
  | cons member members =>
      rw [Member.relocateAll, Member.findMethodIn?, Member.findMethodIn?, Option.map_or,
        Member.findMethod?_relocate f name member, Member.findMethodIn?_relocate f name members]

end

theorem CompilationUnit.findMethod?_relocate (f : Nat → Nat) (name : String)
    (unit : CompilationUnit) :
    (relocate f unit).findMethod? name = (unit.findMethod? name).map (relocate f) := by
  obtain ⟨span, package, types⟩ := unit
  change (types.map (relocate f)).findSome? _ = (types.findSome? _).map _
  rw [List.findSome?_map, List.map_findSome?]
  refine congrArg (types.findSome? ·) (funext fun decl => ?_)
  have in_members := Member.findMethodIn?_relocate f name decl.members
  rwa [Member.relocateAll_eq] at in_members

/-- Whether two refusals have the same reason. -/
def Refusal.SameVariant : Refusal → Refusal → Prop
  | .methodNotFound name, .methodNotFound name' => name = name'
  | .stopped (.rejected rejection), .stopped (.rejected rejection') =>
    rejection.SameVariant rejection'
  | .stopped (.fault fault), .stopped (.fault fault') => fault = fault'
  | _, _ => False

theorem alike_outline {plains : List Bool} {forest forest' : Except Rejection (List Branch)}
    {root root' : Entity} (alike : OutlineContext.AlikeForests plains forest forest')
    (kind_eq : root.kind = root'.kind) (value_eq : root.value = root'.value) :
    Alike Refusal.SameVariant (Outline.Alike (true :: plains)) (Outline.ofForest root forest)
      (Outline.ofForest root' forest') := by
  cases alike with
  | ok alike => exact .ok (alike.graft kind_eq value_eq)
  | error same => exact .error same

theorem alike_outlineMethod {texts texts' : Parallel} {tokens : List Token} {size : Nat}
    {left right : Source} (both : texts.LayBoth texts' tokens size left right) {name : String}
    {method : Method} (read : method.ReadAfter (.start tokens))
    (found : (CompilationUnit.read left).findMethod? name = some (relocate texts.move method))
    (found' : (CompilationUnit.read right).findMethod? name = some (relocate texts'.move method))
    (verify : Bool) :
    Alike Refusal.SameVariant (Outline.Alike (relocate texts.move method).plains)
      (outlineMethod left name verify).result (outlineMethod right name verify).result := by
  obtain ⟨span, result, methodName, parameters, body⟩ := method
  cases body with
  | none =>
      rw [result_outlineMethod, result_outlineMethod, found, found']
      exact .ok ⟨⟨rfl, rfl, rfl, rfl, fun _ => rfl⟩, trivial⟩
  | some body =>
      have order := both.left.tame.order
      have filled := read.filled order rfl
      have stands : (Construct.block body).StandsAmong tokens := read.exists_placedAt order rfl
      obtain ⟨bodySpan, statements⟩ := body
      have alike := OutlineContext.alike_forest both statements
        (fun stmt member => stands.part (List.mem_map_of_mem member)) filled
      rw [result_outlineMethod_of_body found rfl, result_outlineMethod_of_body found' rfl]
      exact alike_outline alike rfl rfl

/-- **Layout does not matter.** Two sources with the same tokens, of which each `>` touches the
token behind it in both or in neither, are read as the same file but for offsets. Their methods are
refused for the same reason or have outlines with the same nodes: at the same places, of the same
kinds, and with the same values unless these are copied from the source. -/
theorem outlineMethod_layout_free {left right : Source}
    (same : Token.SameButGaps (Token.scan 0 left.chars) (Token.scan 0 right.chars)) :
    (CompilationUnit.read left).erased = (CompilationUnit.read right).erased ∧
      ∀ name verify, Alike Refusal.SameVariant
        (Outline.Alike (((CompilationUnit.read left).findMethod? name).elim [] Method.plains))
        (outlineMethod left name verify).result (outlineMethod right name verify).result := by
  obtain ⟨tokens, size, texts, texts', lays, lays'⟩ := Parallel.exists_lays same
  refine ⟨?_, fun name verify => ?_⟩
  · rw [lays.read_eq, lays'.read_eq, CompilationUnit.erased_relocate,
      CompilationUnit.erased_relocate]
  · have found_eq := CompilationUnit.findMethod?_relocate texts.move name
      (Parser.compilationUnit size (.start tokens)).1
    have found_eq' := CompilationUnit.findMethod?_relocate texts'.move name
      (Parser.compilationUnit size (.start tokens)).1
    rw [← lays.read_eq] at found_eq
    rw [← lays'.read_eq] at found_eq'
    cases found : (Parser.compilationUnit size (.start tokens)).1.findMethod? name with
    | none =>
        rw [result_outlineMethod, result_outlineMethod, found_eq, found_eq', found]
        exact .error rfl
    | some method =>
        rw [found] at found_eq found_eq'
        rw [found_eq]
        exact alike_outlineMethod ⟨lays, lays'⟩ (Parser.readAfter_of_findMethod? found) found_eq
          found_eq' verify

/-- A method with a shift, written without a gap. -/
def denseSource : Source := .ofString "class A{void f(){if(a>>b)g();}}"

/-- The same method with gaps, of which none is behind a `>`. -/
def airySource : Source :=
  .ofString "class A \x7b\n  void f() \x7b\n    if (a >>b) // shift\n      g( );\n  \x7d\n\x7d\n"

theorem sameButGaps_denseSource :
    Token.SameButGaps (Token.scan 0 denseSource.chars) (Token.scan 0 airySource.chars) := by
  decide +kernel

theorem plains_denseSource :
    ((CompilationUnit.read denseSource).findMethod? "f").elim [] Method.plains =
      [true, true, true, false] := by
  decide +kernel

theorem layout_free_denseSource :
    Token.SameButGaps (Token.scan 0 denseSource.chars) (Token.scan 0 airySource.chars) ∧
      (CompilationUnit.read denseSource).erased = (CompilationUnit.read airySource).erased ∧
      Alike Refusal.SameVariant (Outline.Alike [true, true, true, false])
        (outlineMethod denseSource "f" true).result
        (outlineMethod airySource "f" true).result := by
  obtain ⟨same, alike⟩ := outlineMethod_layout_free sameButGaps_denseSource
  have alike := alike "f" true
  rw [plains_denseSource] at alike
  exact ⟨sameButGaps_denseSource, same, alike⟩

end JavaOutline
