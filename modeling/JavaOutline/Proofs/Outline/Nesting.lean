import JavaOutline.Proofs.Outline.Forest
import JavaOutline.Proofs.Reading.Layout
import Mathlib.Data.List.Chain

/-!
# The branches of statements that were laid out

Statements that are laid out among tokens in order have branches that nest as their extents do: an
extent lies inside the extent above it and behind the one beside it. The two alternatives of a
condition are the exception; both have the extent of the whole `if`.
-/

namespace JavaOutline

/-- Whether an extent is in order, inside a source, and cuts no character of it. -/
structure Extent.Fits (source : Source) (extent : Extent) : Prop where
  /-- The extent is in order. -/
  first_le_last : extent.first ≤ extent.last
  /-- It is inside the source. -/
  last_lt_size : extent.last < source.size
  /-- It begins between two characters. -/
  boundary_first : source.IsBoundary extent.first
  /-- It ends between two characters. -/
  boundary_stop : source.IsBoundary (extent.last + 1)

theorem Extent.fits_of_lt {source : Source} {lower upper : Nat} (lower_lt : lower < upper)
    (boundary_lower : source.IsBoundary lower) (boundary_upper : source.IsBoundary upper) :
    Extent.Fits source ⟨lower, upper - 1⟩ := by
  have stop_eq : upper - 1 + 1 = upper := by omega
  have upper_le := boundary_upper.le_size
  exact
    { first_le_last := by simp only; omega
      last_lt_size := by simp only; omega
      boundary_first := boundary_lower
      boundary_stop := by rw [stop_eq]; exact boundary_upper }

/-- Whether an extent lies inside another. -/
def Extent.Within (inner outer : Extent) : Prop :=
  outer.first ≤ inner.first ∧ inner.last ≤ outer.last

/-- Whether an entity may stand right before another: it ends before the other begins, unless the
two are the alternatives of a condition. -/
def Entity.Precedes (left right : Entity) : Prop :=
  left.extent.last < right.extent.first ∨
    left.kind = .thenStatement ∧ right.kind = .elseStatement

namespace Branch

/-- The topmost entity of a branch. -/
def entity : Branch → Entity
  | .mk entity _ => entity

mutual

/-- Whether the extents of a branch fit the source and are nested and ordered as its entities. -/
def Laminar (source : Source) : Branch → Prop
  | .mk entity children =>
    entity.extent.Fits source ∧ (∀ child ∈ children, child.entity.extent.Within entity.extent) ∧
      children.IsChain (fun left right => left.entity.Precedes right.entity) ∧
      AllLaminar source children

/-- Whether some branches are laminar, each for itself. -/
def AllLaminar (source : Source) : List Branch → Prop
  | [] => True
  | branch :: branches => branch.Laminar source ∧ AllLaminar source branches

end

theorem allLaminar_append {source : Source} {left right : List Branch}
    (laminar_left : AllLaminar source left) (laminar_right : AllLaminar source right) :
    AllLaminar source (left ++ right) := by
  induction left with
  | nil => exact laminar_right
  | cons branch branches induction =>
      obtain ⟨first, later⟩ := laminar_left
      exact ⟨first, induction later⟩

/-- Whether laminar branches lie one after the other between two offsets. -/
structure Fit (source : Source) (lower upper : Nat) (branches : List Branch) : Prop where
  /-- None begins before the lower offset. -/
  lower_le : ∀ branch ∈ branches, lower ≤ branch.entity.extent.first
  /-- None reaches the upper offset. -/
  lt_upper : ∀ branch ∈ branches, branch.entity.extent.last < upper
  /-- They stand in order. -/
  precedes : branches.IsChain fun left right => left.entity.Precedes right.entity
  /-- Each of them is laminar. -/
  laminar : AllLaminar source branches

namespace Fit

variable {source : Source} {lower middle upper : Nat}

theorem nil : Fit source lower upper [] :=
  ⟨nofun, nofun, .nil, trivial⟩

theorem mono {lower' upper' : Nat} {branches : List Branch} (fit : Fit source lower upper branches)
    (lower_le : lower' ≤ lower) (le_upper : upper ≤ upper') :
    Fit source lower' upper' branches where
  lower_le branch member := Nat.le_trans lower_le (fit.lower_le branch member)
  lt_upper branch member := Nat.lt_of_lt_of_le (fit.lt_upper branch member) le_upper
  precedes := fit.precedes
  laminar := fit.laminar

/-- Branches may stand side by side if the last of the one and the first of the other may. -/
theorem join {left right : List Branch} (fit_left : Fit source lower upper left)
    (fit_right : Fit source lower upper right)
    (meet : ∀ last ∈ left, ∀ first ∈ right, last.entity.Precedes first.entity) :
    Fit source lower upper (left ++ right) where
  lower_le branch member := by
    rcases List.mem_append.mp member with member | member
    · exact fit_left.lower_le branch member
    · exact fit_right.lower_le branch member
  lt_upper branch member := by
    rcases List.mem_append.mp member with member | member
    · exact fit_left.lt_upper branch member
    · exact fit_right.lt_upper branch member
  precedes := by
    refine fit_left.precedes.append fit_right.precedes fun last last_mem first first_mem => ?_
    exact meet last (List.mem_of_getLast? last_mem) first (List.mem_of_head? first_mem)
  laminar := allLaminar_append fit_left.laminar fit_right.laminar

theorem append {middle' : Nat} {left right : List Branch} (fit_left : Fit source lower middle left)
    (fit_right : Fit source middle' upper right) (le_middle : middle ≤ middle')
    (lower_le : lower ≤ middle') (le_upper : middle ≤ upper) :
    Fit source lower upper (left ++ right) := by
  refine (fit_left.mono (Nat.le_refl _) le_upper).join (fit_right.mono lower_le (Nat.le_refl _)) ?_
  intro last last_mem first first_mem
  have lt_middle := fit_left.lt_upper last last_mem
  have middle_le := fit_right.lower_le first first_mem
  left
  omega

/-- A branch fits where its own extent does, if the branches below it fit there. -/
theorem branch {kind : EntityKind} {value : String} {children : List Branch}
    (lower_lt : lower < upper) (boundary_lower : source.IsBoundary lower)
    (boundary_upper : source.IsBoundary upper) (fit : Fit source lower upper children) :
    Fit source lower upper [.mk ⟨value, kind, ⟨lower, upper - 1⟩⟩ children] where
  lower_le _ member := by
    rw [List.mem_singleton.mp member]
    exact Nat.le_refl _
  lt_upper _ member := by
    rw [List.mem_singleton.mp member]
    simp only [entity]
    omega
  precedes := .singleton _
  laminar := by
    have fits := Extent.fits_of_lt lower_lt boundary_lower boundary_upper
    refine ⟨⟨fits, fun child member => ⟨fit.lower_le child member, ?_⟩, fit.precedes,
      fit.laminar⟩, trivial⟩
    have lt_upper := fit.lt_upper child member
    simp only
    omega

end Fit

/-- Whether a forest fits between two offsets, unless it is a rejection. -/
def ForestFits (source : Source) (lower upper : Nat) (forest : Except Rejection (List Branch)) :
    Prop :=
  OutlineContext.Yields (Fit source lower upper) forest

namespace ForestFits

variable {source : Source} {lower upper : Nat} {before middle after : Cursor}
  {forest left right : Except Rejection (List Branch)}

theorem rejected (rejection : Rejection) : ForestFits source lower upper (.error rejection) :=
  OutlineContext.Yields.rejected rejection

theorem nothing : ForestFits source lower upper (.ok []) := by
  rintro branches ⟨⟩
  exact .nil

theorem bind {α : Type} {value : Except Rejection α} {rest : α → Except Rejection (List Branch)}
    (fits : ∀ found, ForestFits source lower upper (rest found)) :
    ForestFits source lower upper (value >>= rest) :=
  OutlineContext.Yields.bind fits

theorem mono {lower' upper' : Nat} (fits : ForestFits source lower upper forest)
    (lower_le : lower' ≤ lower) (le_upper : upper ≤ upper') :
    ForestFits source lower' upper' forest :=
  fun branches found => (fits branches found).mono lower_le le_upper

/-- Forests of what was read one after the other fit side by side. -/
theorem beside (order : before.InOrder source) (reaches : before.Reaches middle)
    (later : middle.Reaches after) (fits_left : ForestFits source before.here middle.behind left)
    (fits_right : ForestFits source middle.here after.behind right) :
    ForestFits source before.here after.behind (OutlineContext.beside left right) := by
  intro branches found
  obtain ⟨first, second, first_eq, second_eq, rfl⟩ :=
    OutlineContext.exists_of_beside_eq_ok found
  have order_middle := order.reaches reaches
  exact (fits_left first first_eq).append (fits_right second second_eq)
    order_middle.behind_le_here (order.here_le reaches) (order_middle.behind_le later)

/-- The forest of what was read in between fits. -/
theorem between {stands : Cursor → Cursor → Prop} (order : before.InOrder source)
    (stood : before.Between stands after)
    (reaches_of : ∀ {first last : Cursor}, stands first last → first.Reaches last)
    (fits : ∀ {first last : Cursor}, first.InOrder source → stands first last →
      ForestFits source first.here last.behind forest) :
    ForestFits source before.here after.behind forest := by
  obtain ⟨first, last, reaches, stood, later⟩ := stood
  have order_first := order.reaches reaches
  have order_last := order_first.reaches (reaches_of stood)
  exact (fits order_first stood).mono (order.here_le reaches) (order_last.behind_le later)

/-- The forest of the statements of a block fits where the block stands. -/
theorem block {span : Span} {statements : List Stmt} (order : before.InOrder source)
    (laidOut : (Block.mk span statements).LaidOut before after)
    (fits : ∀ {first last : Cursor}, first.InOrder source →
      Stmt.AllLaidOut statements first last → ForestFits source first.here last.behind forest) :
    ForestFits source before.here after.behind forest :=
  between order laidOut.between Stmt.AllLaidOut.reaches fits

/-- A branch fits where its span stands, if the branches below it do. -/
theorem branch {context : OutlineContext} {kind : EntityKind} {value : String} {span : Span}
    (order : before.InOrder source) (spans : before.Spans span after)
    (fits : ForestFits source before.here after.behind forest) :
    ForestFits source before.here after.behind (context.branch kind value span forest) := by
  intro branches found
  obtain ⟨start_lt, children, children_eq, rfl⟩ := OutlineContext.eq_of_branch_eq_ok found
  obtain ⟨start_eq, stop_eq⟩ := spans.bounds start_lt
  rw [start_eq, stop_eq] at start_lt ⊢
  exact (fits children children_eq).branch start_lt order.boundary_here
    (order.reaches spans.reaches).boundary

theorem leaf {context : OutlineContext} {kind : EntityKind} {value : String} {span : Span}
    (order : before.InOrder source) (spans : before.Spans span after) :
    ForestFits source before.here after.behind (context.leaf kind value span) :=
  branch order spans nothing

theorem verbatimLeaf {context : OutlineContext} {kind : EntityKind} {span : Span}
    (order : before.InOrder source) (spans : before.Spans span after) :
    ForestFits source before.here after.behind (context.verbatimLeaf kind span) :=
  bind fun _ => leaf order spans

/-- The two alternatives of a condition fit although they do not stand one after the other. -/
theorem alternatives {context : OutlineContext} {value : String} {span : Span}
    (order : before.InOrder source) (spans : before.Spans span after)
    (fits_left : ForestFits source before.here after.behind left)
    (fits_right : ForestFits source before.here after.behind right) :
    ForestFits source before.here after.behind
      (OutlineContext.beside (context.branch .thenStatement value span left)
        (context.branch .elseStatement value span right)) := by
  intro branches found
  obtain ⟨first, second, first_eq, second_eq, rfl⟩ :=
    OutlineContext.exists_of_beside_eq_ok found
  have fit_first := branch order spans fits_left first first_eq
  have fit_second := branch order spans fits_right second second_eq
  obtain ⟨_, _, _, rfl⟩ := OutlineContext.eq_of_branch_eq_ok first_eq
  obtain ⟨_, _, _, rfl⟩ := OutlineContext.eq_of_branch_eq_ok second_eq
  refine fit_first.join fit_second fun last last_mem first first_mem => ?_
  rw [List.mem_singleton.mp last_mem, List.mem_singleton.mp first_mem]
  exact .inr ⟨rfl, rfl⟩

end ForestFits

end Branch

namespace OutlineContext

open Branch

variable {source : Source} {before after : Cursor}

theorem fits_labelForest (context : OutlineContext) (order : before.InOrder source)
    (labels : List SwitchLabel) (laidOut : SwitchLabel.AllLaidOut labels before after) :
    ForestFits source before.here after.behind (context.labelForest labels) := by
  induction labels generalizing before with
  | nil => exact .nothing
  | cons label labels induction =>
      obtain ⟨middle, spans, later⟩ := laidOut
      have fits_later := induction (order.reaches spans.reaches) later
      cases label with
      | case span values =>
          exact .bind fun _ =>
            .beside order spans.reaches later.reaches (.leaf order spans) fits_later
      | default span =>
          exact .beside order spans.reaches later.reaches (.leaf order spans) fits_later

/-- The last of some `catch` clauses that are not empty ends where reading them ended. -/
theorem getLast_handlersSpan {first : Handler} {rest : List Handler} (order : before.InOrder source)
    (laidOut : Handler.AllLaidOut (first :: rest) before after)
    (nonempty : ∀ handler ∈ first :: rest, handler.span.start < handler.span.stop) :
    first.span.start = before.here ∧ first.span.stop ≤ after.behind ∧
      before.here ≤ (rest.getLast?.getD first).span.start ∧
      (rest.getLast?.getD first).span.stop = after.behind := by
  induction rest generalizing first before with
  | nil =>
      obtain ⟨middle, only, rfl⟩ := laidOut
      obtain ⟨start_eq, stop_eq⟩ := only.spans.bounds (nonempty first List.mem_cons_self)
      simp only [List.getLast?_nil, Option.getD_none]
      omega
  | cons second rest induction =>
      obtain ⟨middle, head, later⟩ := laidOut
      obtain ⟨start_eq, stop_eq⟩ := head.spans.bounds (nonempty first List.mem_cons_self)
      have order_middle := order.reaches head.reaches
      obtain ⟨_, _, le_start, last_eq⟩ := induction order_middle later
        fun handler member => nonempty handler (List.mem_cons_of_mem first member)
      have here_le := order.here_le head.reaches
      have behind_le := order_middle.behind_le later.reaches
      simp only [List.getLast?_cons, Option.getD_some]
      omega

/-- The span over some `catch` clauses runs from the first to the last of them. -/
theorem spans_handlersSpan {first : Handler} {rest : List Handler} (order : before.InOrder source)
    (laidOut : Handler.AllLaidOut (first :: rest) before after)
    (nonempty : ∀ handler ∈ first :: rest, handler.span.start < handler.span.stop) :
    before.Spans (Builder.handlersSpan first rest) after := by
  obtain ⟨start_eq, stop_le, le_start, stop_eq⟩ := getLast_handlersSpan order laidOut nonempty
  have first_nonempty := nonempty first List.mem_cons_self
  refine ⟨laidOut.reaches, ?_⟩
  simp only [Builder.handlersSpan, Span.cover, Cursor.spanFrom, Span.mk.injEq]
  omega

theorem start_lt_stop_of_handlersForest {context : OutlineContext} {handlers : List Handler}
    {branches : List Branch} (found : context.handlersForest handlers = .ok branches) :
    ∀ handler ∈ handlers, handler.span.start < handler.span.stop := by
  induction handlers generalizing branches with
  | nil => exact nofun
  | cons handler handlers induction =>
      obtain ⟨first, second, first_eq, second_eq, _⟩ := exists_of_beside_eq_ok found
      obtain ⟨span, types, name, body⟩ := handler
      obtain ⟨bodySpan, statements⟩ := body
      obtain ⟨start_lt, _⟩ := eq_of_branch_eq_ok first_eq
      intro other member
      cases member with
      | head => exact start_lt
      | tail _ member => exact induction second_eq other member

mutual

theorem fits_stmtForest (context : OutlineContext) {before after : Cursor}
    (order : before.InOrder source) (stmt : Stmt) (laidOut : stmt.LaidOut before after) :
    ForestFits source before.here after.behind (context.stmtForest stmt) := by
  cases stmt with
  | locals declaration => exact .verbatimLeaf order laidOut
  | localType span kind name => exact .verbatimLeaf order laidOut
  | expr span expr => exact .bind fun _ => .verbatimLeaf order laidOut
  | constructorCall span target outer arguments => exact .verbatimLeaf order laidOut
  | assertion span condition message =>
      cases message with
      | none => exact .bind fun _ => .leaf order laidOut
      | some message => exact .bind fun _ => .bind fun _ => .leaf order laidOut
  | jump span kind label => exact .leaf order laidOut
  | returns span value =>
      cases value with
      | none => exact .leaf order laidOut
      | some value => exact .bind fun _ => .leaf order laidOut
  | throws span value => exact .bind fun _ => .leaf order laidOut
  | conditional span condition whenTrue whenFalse =>
      cases whenFalse with
      | none =>
          obtain ⟨spans, inner⟩ := laidOut
          exact .bind fun _ => .branch order spans (.branch order spans
            (.between order inner Stmt.LaidOut.reaches
              fun order laidOut => fits_stmtForest context order whenTrue laidOut))
      | some whenFalse =>
          obtain ⟨spans, inner, other⟩ := laidOut
          exact .bind fun _ => .branch order spans (.alternatives order spans
            (.between order inner Stmt.LaidOut.reaches
              fun order laidOut => fits_stmtForest context order whenTrue laidOut)
            (.between order other Stmt.LaidOut.reaches
              fun order laidOut => fits_stmtForest context order whenFalse laidOut))
  | whileLoop span condition body =>
      obtain ⟨spans, inner⟩ := laidOut
      exact .bind fun _ => .branch order spans (.between order inner Stmt.LaidOut.reaches
        fun order laidOut => fits_stmtForest context order body laidOut)
  | doLoop span body condition =>
      obtain ⟨spans, inner⟩ := laidOut
      exact .bind fun _ => .branch order spans (.between order inner Stmt.LaidOut.reaches
        fun order laidOut => fits_stmtForest context order body laidOut)
  | forLoop span init condition update body =>
      obtain ⟨spans, inner⟩ := laidOut
      have fits_body := ForestFits.between order inner Stmt.LaidOut.reaches
        fun order laidOut => fits_stmtForest context order body laidOut
      cases condition with
      | none => exact .branch order spans fits_body
      | some condition => exact .bind fun _ => .branch order spans fits_body
  | forEach span element collection body =>
      obtain ⟨spans, inner⟩ := laidOut
      exact .bind fun _ => .branch order spans (.between order inner Stmt.LaidOut.reaches
        fun order laidOut => fits_stmtForest context order body laidOut)
  | switch span selector groups =>
      obtain ⟨spans, inner⟩ := laidOut
      exact .bind fun _ => .branch order spans (.between order inner SwitchGroup.AllLaidOut.reaches
        fun order laidOut => fits_groupForest context order groups laidOut)
  | synchronized span lock body =>
      obtain ⟨spans, inner⟩ := laidOut
      obtain ⟨bodySpan, statements⟩ := body
      exact .bind fun _ => .branch order spans (.between order inner Block.LaidOut.reaches
        fun order laidOut => .block order laidOut
          fun order laidOut => fits_forest context order statements laidOut)
  | tries span resources body handlers cleanup =>
      obtain ⟨bodySpan, statements⟩ := body
      obtain ⟨spans, middle, last, inner, clauses, final⟩ := laidOut
      have reaches := inner.reaches Block.LaidOut.reaches
      have order_middle := order.reaches reaches
      have order_last := order_middle.reaches clauses.reaches
      have fits_body : ForestFits source before.here middle.behind
          (context.branch .tryBody "" bodySpan (context.forest statements)) :=
        .between order inner Block.LaidOut.reaches
          fun order laidOut => .branch order laidOut.1 (.block order laidOut
            fun order laidOut => fits_forest context order statements laidOut)
      exact .bind fun _ => .branch order spans
        (.beside order reaches (clauses.reaches.trans final.reaches) fits_body
          (.beside order_middle clauses.reaches final.reaches
            (fits_clauseForest context order_middle handlers clauses)
            (fits_cleanupForest context order_last cleanup final)))
  | labeled span label body =>
      obtain ⟨spans, inner⟩ := laidOut
      exact .branch order spans (.between order inner Stmt.LaidOut.reaches
        fun order laidOut => fits_stmtForest context order body laidOut)
  | block inner =>
      obtain ⟨span, statements⟩ := inner
      exact .block order laidOut
        fun order laidOut => fits_forest context order statements laidOut
  | empty span => exact .nothing
  | unparsed span => exact .rejected _

theorem fits_forest (context : OutlineContext) {before after : Cursor}
    (order : before.InOrder source) (stmts : List Stmt)
    (laidOut : Stmt.AllLaidOut stmts before after) :
    ForestFits source before.here after.behind (context.forest stmts) := by
  cases stmts with
  | nil => exact .nothing
  | cons stmt stmts =>
      obtain ⟨middle, first, later⟩ := laidOut
      exact .beside order first.reaches later.reaches (fits_stmtForest context order stmt first)
        (fits_forest context (order.reaches first.reaches) stmts later)

theorem fits_groupForest (context : OutlineContext) {before after : Cursor}
    (order : before.InOrder source) (groups : List SwitchGroup)
    (laidOut : SwitchGroup.AllLaidOut groups before after) :
    ForestFits source before.here after.behind (context.groupForest groups) := by
  cases groups with
  | nil => exact .nothing
  | cons group groups =>
      obtain ⟨span, arrow, labels, statements⟩ := group
      obtain ⟨last, ⟨middle, labelled, inner⟩, later⟩ := laidOut
      have order_middle := order.reaches labelled.reaches
      have order_last := order_middle.reaches inner.reaches
      exact .beside order labelled.reaches (inner.reaches.trans later.reaches)
        (fits_labelForest context order labels labelled)
        (.beside order_middle inner.reaches later.reaches
          (fits_forest context order_middle statements inner)
          (fits_groupForest context order_last groups later))

theorem fits_clauseForest (context : OutlineContext) {before after : Cursor}
    (order : before.InOrder source) (handlers : List Handler)
    (laidOut : Handler.AllLaidOut handlers before after) :
    ForestFits source before.here after.behind (context.clauseForest handlers) := by
  cases handlers with
  | nil => exact .nothing
  | cons first rest =>
      intro branches found
      obtain ⟨_, children, children_eq, _⟩ := eq_of_branch_eq_ok found
      have nonempty : ∀ handler ∈ first :: rest, handler.span.start < handler.span.stop :=
        start_lt_stop_of_handlersForest children_eq
      have spans := spans_handlersSpan order laidOut nonempty
      obtain ⟨middle, head, later⟩ := laidOut
      exact ForestFits.branch order spans
        (.beside order head.reaches later.reaches (fits_handlerForest context order first head)
          (fits_handlersForest context (order.reaches head.reaches) rest later))
        branches found

theorem fits_handlerForest (context : OutlineContext) {before after : Cursor}
    (order : before.InOrder source) (handler : Handler) (laidOut : handler.LaidOut before after) :
    ForestFits source before.here after.behind (context.handlerForest handler) := by
  obtain ⟨span, types, name, body⟩ := handler
  obtain ⟨bodySpan, statements⟩ := body
  obtain ⟨spans, inner⟩ := laidOut
  exact .branch order spans (.between order inner Block.LaidOut.reaches
    fun order laidOut => .block order laidOut
      fun order laidOut => fits_forest context order statements laidOut)

theorem fits_handlersForest (context : OutlineContext) {before after : Cursor}
    (order : before.InOrder source) (handlers : List Handler)
    (laidOut : Handler.AllLaidOut handlers before after) :
    ForestFits source before.here after.behind (context.handlersForest handlers) := by
  cases handlers with
  | nil => exact .nothing
  | cons handler handlers =>
      obtain ⟨middle, first, later⟩ := laidOut
      exact .beside order first.reaches later.reaches
        (fits_handlerForest context order handler first)
        (fits_handlersForest context (order.reaches first.reaches) handlers later)

theorem fits_cleanupForest (context : OutlineContext) {before after : Cursor}
    (order : before.InOrder source) (cleanup : Option Block)
    (laidOut : Block.CleanupLaidOut cleanup before after) :
    ForestFits source before.here after.behind (context.cleanupForest cleanup) := by
  cases cleanup with
  | none => exact .nothing
  | some body =>
      obtain ⟨span, statements⟩ := body
      exact .between order laidOut Block.LaidOut.reaches
        fun order laidOut => .branch order laidOut.1 (.block order laidOut
          fun order laidOut => fits_forest context order statements laidOut)

end

end OutlineContext

end JavaOutline
