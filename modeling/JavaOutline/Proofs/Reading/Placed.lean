import Mathlib
import JavaOutline.Proofs.Reading.Construct

/-!
# Everything that is read is placed

On tokens in order, whatever a rule of the grammar reads is placed between the place where reading
began and the place where it ended.
-/

set_option mvcgen.warning false

open Std.Do

namespace JavaOutline

namespace Cursor

/-- Whether the tokens still to be read stand in the order of some source. -/
def IsOrdered (cursor : Cursor) : Prop :=
  ∃ source, cursor.InOrder source

@[grind →]
theorem IsOrdered.reaches {before after : Cursor} (order : before.IsOrdered)
    (reaches : before.Reaches after) : after.IsOrdered := by
  obtain ⟨source, order⟩ := order
  exact ⟨source, order.reaches reaches⟩

theorem IsOrdered.spanFrom_here {cursor : Cursor} (order : cursor.IsOrdered) :
    cursor.spanFrom cursor.here = .point cursor.here := by
  obtain ⟨source, order⟩ := order
  rw [spanFrom, Nat.max_eq_right order.behind_le_here, Span.point]

/-- The span of a token runs from the place before it to the place after it. -/
@[grind →]
theorem IsOrdered.token_span {cursor : Cursor} {token : Token} {rest : List Token}
    (order : cursor.IsOrdered) (head : cursor.rest = token :: rest) :
    token.span = cursor.tail.spanFrom token.span.start := by
  obtain ⟨source, order⟩ := order
  have start_lt := order.here_lt_behind_tail (by rw [head]; nofun)
  rw [here, head] at start_lt
  have stop_eq : cursor.tail.behind = token.span.stop := by
    rw [tail, head]
  rw [spanFrom, Nat.max_eq_left (Nat.le_of_lt start_lt), stop_eq]

@[grind →]
theorem isAt_of_head {cursor : Cursor} {token : Token} {rest : List Token}
    (head : cursor.rest = token :: rest) : cursor.isAt token.kind := by
  simp [isAt, head]

@[grind →]
theorem isAtWord_of_head {cursor : Cursor} {token : Token} {rest : List Token}
    (head : cursor.rest = token :: rest) (kind : token.kind = .word) :
    cursor.isAtWord token.text := by
  simp [isAtWord, Token.isWord, head, kind]

@[grind →]
theorem here_eq_start {cursor : Cursor} {token : Token} {rest : List Token}
    (head : cursor.rest = token :: rest) : cursor.here = token.span.start := by
  rw [here, head]

@[grind →]
theorem ReachesOn.of_reaches {before middle after : Cursor} (reaches : before.Reaches middle)
    (reachesOn : middle.ReachesOn after) : before.ReachesOn after := by
  obtain ⟨cursor, first, more, later⟩ := reachesOn
  exact ⟨cursor, reaches.trans first, more, later⟩

theorem Reaches.length_le {before after : Cursor} (reaches : before.Reaches after) :
    after.rest.length ≤ before.rest.length := by
  induction reaches with
  | refl => exact Nat.le_refl _
  | @tail cursor _ induction =>
      have tail_le : cursor.tail.rest.length ≤ cursor.rest.length := by
        obtain ⟨rest, behind⟩ := cursor
        cases rest with
        | nil => exact Nat.le_refl _
        | cons token rest => exact Nat.le_succ _
      exact Nat.le_trans tail_le induction

section ReachesOn

variable {cursor : Cursor}

@[grind →]
theorem reachesOn_tail {token : Token} {rest : List Token} (head : cursor.rest = token :: rest) :
    cursor.ReachesOn cursor.tail :=
  ⟨cursor, .refl, by rw [head]; nofun, .refl⟩

/-- Where a test is passed that fails at the end of the tokens, there is a token to be read. -/
theorem reachesOn_tail_of_passed (test : Cursor → Prop) (fails : ∀ behind, ¬test ⟨[], behind⟩)
    (found : test cursor) : cursor.ReachesOn cursor.tail := by
  obtain ⟨rest, behind⟩ := cursor
  cases rest with
  | nil => exact absurd found (fails behind)
  | cons token rest => exact reachesOn_tail rfl

theorem reachesOn_tail_of_any {p : Token → Bool} (found : cursor.rest.head?.any p) :
    cursor.ReachesOn cursor.tail :=
  reachesOn_tail_of_passed (·.rest.head?.any p) (fun _ => nofun) found

@[grind →]
theorem reachesOn_tail_of_isAt {kind : TokenKind} (found : cursor.isAt kind) :
    cursor.ReachesOn cursor.tail :=
  reachesOn_tail_of_any found

@[grind →]
theorem reachesOn_tail_of_isAtWord {word : String} (found : cursor.isAtWord word) :
    cursor.ReachesOn cursor.tail :=
  reachesOn_tail_of_any found

@[grind →]
theorem reachesOn_tail_of_kindAhead? {kind : TokenKind} (found : cursor.kindAhead? 0 = some kind) :
    cursor.ReachesOn cursor.tail :=
  reachesOn_tail_of_passed (·.kindAhead? 0 = some kind) (fun _ => nofun) found

@[grind →]
theorem reachesOn_tail_of_unaryOp? {op : UnaryOp} (found : cursor.unaryOp? = some op) :
    cursor.ReachesOn cursor.tail :=
  reachesOn_tail_of_passed (·.unaryOp? = some op) (fun _ => nofun) found

@[grind →]
theorem reachesOn_tail_of_isAtLambda (found : cursor.isAtLambda) :
    cursor.ReachesOn cursor.tail :=
  reachesOn_tail_of_passed (·.isAtLambda) (fun _ => nofun) found

end ReachesOn

@[grind .]
theorem IsOrdered.spanFrom_nonempty {before after : Cursor} (order : before.IsOrdered)
    (reachesOn : before.ReachesOn after) :
    (after.spanFrom before.here).start < (after.spanFrom before.here).stop := by
  obtain ⟨source, order⟩ := order
  have here_lt := reachesOn.here_lt_behind order
  exact Nat.lt_of_lt_of_le here_lt (Nat.le_max_left _ _)

end Cursor

open Construct

attribute [grind =] Option.toList_some Option.toList_none Option.elim_some Option.elim_none
  Construct.parts Construct.span Construct.isSolid Expr.parts Expr.span

section Places

variable {before middle after : Cursor}

/-- What consists of one token is placed around it. -/
@[grind .]
theorem Construct.AllPlaced.token {node : Construct} {token : Token} {rest : List Token}
    (order : before.IsOrdered) (head : before.rest = token :: rest) (parts_eq : node.parts = [])
    (span_eq : node.span = token.span) : AllPlaced [node] before before.tail := by
  refine .enclose (parts_eq ▸ .nil (.tail .refl)) (fun _ => Cursor.reachesOn_tail head) ?_
  rw [span_eq, Cursor.here_eq_start head]
  exact order.token_span head

/-- What is not there is placed at the next token. -/
theorem Construct.AllPlaced.point {node : Construct} (order : before.IsOrdered)
    (parts_eq : node.parts = []) (solid : ¬node.isSolid)
    (span_eq : node.span = .point before.here) : AllPlaced [node] before before := by
  refine .enclose (parts_eq ▸ .nil .refl) (fun found => (solid found).elim) ?_
  rw [span_eq, order.spanFrom_here]

@[grind .]
theorem Construct.AllPlaced.typeRef {text : String} (earlier : before.Reaches middle)
    (reaches : middle.Reaches after) :
    AllPlaced [.typeRef ⟨text, after.spanFrom middle.here⟩] before after := by
  refine .widen ?_ earlier .refl
  exact .enclose (.nil reaches) nofun rfl

/-- The span over two types that were read one after the other runs from the first to the last. -/
theorem Construct.AllPlaced.cover {left right : TypeRef} {text : String} (order : before.IsOrdered)
    (first : AllPlaced [.typeRef left] before middle)
    (second : AllPlaced [.typeRef right] middle after)
    (nonempty : right.span.start < right.span.stop) :
    AllPlaced [.typeRef ⟨text, left.span.cover right.span⟩] before after := by
  obtain ⟨source, order⟩ := order
  cases first with
  | @cons _ _ _ first _ _ toFirst placed toMiddle =>
  cases second with
  | @cons _ _ _ second _ _ toSecond placed' toAfter =>
  have firstToSecond := placed.reaches.trans (toMiddle.reaches.trans toSecond)
  cases placed with
  | @mk _ _ last _ spans _ _ later =>
  cases placed' with
  | @mk _ _ last' _ spans' _ _ later' =>
  have lastToLast' := later.trans (toMiddle.reaches.trans (toSecond.trans spans'.reaches))
  have here_le := (order.reaches toFirst).here_le firstToSecond
  have behind_le := (order.reaches (toFirst.trans spans.reaches)).behind_le lastToLast'
  have right_eq := spans'.bounds nonempty
  have left_eq : left.span = last.spanFrom first.here := spans.2
  have span_eq : left.span.cover right.span = last'.spanFrom first.here := by
    simp only [Construct.span] at right_eq
    simp only [Span.cover, left_eq, right_eq, Cursor.spanFrom, Span.mk.injEq]
    omega
  refine .widen ?_ toFirst (later'.trans toAfter.reaches)
  exact .enclose (.nil (firstToSecond.trans spans'.reaches)) (by simp [isSolid]) span_eq

/-- The dots of a variable number of arguments belong to the type before them. -/
theorem Construct.AllPlaced.dotted {type : TypeRef} {text : String} {dots : Token}
    {rest : List Token} (order : before.IsOrdered)
    (placed : AllPlaced [.typeRef type] before middle) (head : middle.rest = dots :: rest) :
    AllPlaced [.typeRef ⟨text, ⟨type.span.start, dots.span.stop⟩⟩] before middle.tail := by
  obtain ⟨source, order⟩ := order
  cases placed with
  | @cons _ _ _ first _ _ toFirst placed toMiddle =>
  have toTail : first.ReachesOn middle.tail :=
    .of_reaches (placed.reaches.trans toMiddle.reaches) (Cursor.reachesOn_tail head)
  have here_lt := toTail.here_lt_behind (order.reaches toFirst)
  have start_eq : type.span.start = first.here := placed.start_eq
  have stop_eq : middle.tail.behind = dots.span.stop := by
    rw [Cursor.tail, head]
  refine .widen ?_ toFirst .refl
  refine .enclose (.nil toTail.reaches) (by simp [isSolid]) ?_
  rw [Cursor.spanFrom, Nat.max_eq_left (Nat.le_of_lt here_lt), stop_eq, ← start_eq]
  rfl

@[grind .]
theorem Construct.AllPlaced.parameter {type : TypeRef} {name : Token} {rest : List Token}
    (placed : AllPlaced [.typeRef type] before middle) (order : middle.IsOrdered)
    (head : middle.rest = name :: rest) (reaches : middle.tail.Reaches after) :
    AllPlaced [.parameter ⟨after.spanFrom type.span.start, type, ⟨name.text, name.span⟩⟩]
      before after :=
  placed.enclose_left nofun rfl ((AllPlaced.token order head rfl rfl).widen .refl reaches) rfl

@[grind .]
theorem Construct.AllPlaced.variadic {type : TypeRef} {text : String} {dots name : Token}
    {more rest : List Token} (order : before.IsOrdered)
    (placed : AllPlaced [.typeRef type] before middle) (head : middle.rest = dots :: more)
    (next : middle.tail.rest = name :: rest) (reaches : middle.tail.tail.Reaches after) :
    AllPlaced [.parameter ⟨after.spanFrom type.span.start,
      ⟨text, ⟨type.span.start, dots.span.stop⟩⟩, ⟨name.text, name.span⟩⟩] before after :=
  .parameter (.dotted order placed head) (order.reaches placed.reaches.tail) next reaches

@[grind .]
theorem Construct.AllPlaced.excerpt {kind : ExcerptKind}
    (reachesOn : before.ReachesOn after) :
    AllPlaced [.expr (.excerpt (after.spanFrom before.here) kind)] before after :=
  .enclose (.nil reachesOn.reaches) (fun _ => reachesOn) rfl

@[grind .]
theorem Construct.AllPlaced.excerptSpan (reaches : before.Reaches middle)
    (later : middle.Reaches after) :
    AllPlaced [.excerpt (middle.spanFrom before.here)] before after := by
  refine .widen ?_ .refl later
  exact .enclose (.nil reaches) nofun rfl

@[grind .]
theorem Construct.AllPlaced.name {text : String} (reachesOn : before.ReachesOn after) :
    AllPlaced [.expr (.name (after.spanFrom before.here) text)] before after :=
  .enclose (.nil reachesOn.reaches) (fun _ => reachesOn) rfl

@[grind .]
theorem Construct.AllPlaced.call {token : Token} {rest : List Token} {arguments : List Expr}
    (order : before.IsOrdered) (head : before.rest = token :: rest)
    (parts : AllPlaced (arguments.map .expr) before.tail after) :
    AllPlaced [.expr (.call (after.spanFrom before.here) ⟨token.text, token.span⟩ arguments)]
      before after :=
  .enclose ((AllPlaced.token order head rfl rfl).append parts)
    (fun _ => (Cursor.reachesOn_tail head).trans parts.reaches) rfl

@[grind .]
theorem Construct.AllPlaced.creation {type : TypeRef} {arguments : List Expr} {body : Option Span}
    (reachesOn : before.ReachesOn after)
    (parts : AllPlaced (.typeRef type :: arguments.map .expr ++ body.toList.map .excerpt)
      before after) :
    AllPlaced [.expr (.creation (after.spanFrom before.here) type arguments body)] before after :=
  .enclose parts (fun _ => reachesOn) rfl

@[grind .]
theorem Construct.AllPlaced.unary {op : UnaryOp} {operand : Expr}
    (reachesOn : before.ReachesOn after) (parts : AllPlaced [.expr operand] before after) :
    AllPlaced [.expr (.unary (after.spanFrom before.here) op operand)] before after :=
  .enclose parts (fun _ => reachesOn) rfl

@[grind .]
theorem Construct.AllPlaced.parenthesized {inner : Expr}
    (reachesOn : before.ReachesOn after) (parts : AllPlaced [.expr inner] before after) :
    AllPlaced [.expr (.parenthesized (after.spanFrom before.here) inner)] before after :=
  .enclose parts (fun _ => reachesOn) rfl

@[grind .]
theorem Construct.AllPlaced.cast {type : TypeRef} {operand : Expr}
    (reachesOn : before.ReachesOn after)
    (parts : AllPlaced [.typeRef type, .expr operand] before after) :
    AllPlaced [.expr (.cast (after.spanFrom before.here) type operand)] before after :=
  .enclose parts (fun _ => reachesOn) rfl

@[grind .]
theorem Construct.AllPlaced.conditional {condition whenTrue whenFalse : Expr}
    (placed : AllPlaced [.expr condition] before middle)
    (solid : (Construct.expr condition).isSolid)
    (later : AllPlaced [.expr whenTrue, .expr whenFalse] middle after) :
    AllPlaced [.expr (.conditional (after.spanFrom condition.span.start)
      condition whenTrue whenFalse)] before after :=
  placed.enclose_left (fun _ => solid) rfl later rfl

@[grind .]
theorem Construct.AllPlaced.assignment {op : AssignOp} {target value : Expr}
    (placed : AllPlaced [.expr target] before middle) (solid : (Construct.expr target).isSolid)
    (later : AllPlaced [.expr value] middle after) :
    AllPlaced [.expr (.assignment (after.spanFrom target.span.start) op target value)]
      before after :=
  placed.enclose_left (fun _ => solid) rfl later rfl

end Places

/-- Whether an expression that begins with an operand was read between two places, the operand
having been read before the first. -/
structure Expr.Extends (operand : Expr) (before : Cursor) (result : Expr) (after : Cursor) :
    Prop where
  reaches : before.Reaches after
  placed : ∀ {origin : Cursor}, AllPlaced [.expr operand] origin before →
    (Construct.expr operand).isSolid → AllPlaced [.expr result] origin after
  solid : (Construct.expr operand).isSolid → (Construct.expr result).isSolid

attribute [grind →] Expr.Extends.reaches Expr.Extends.placed Expr.Extends.solid

namespace Expr.Extends

variable {operand result : Expr} {before middle after : Cursor}

@[grind .]
theorem refl (reaches : before.Reaches after) : operand.Extends before operand after :=
  ⟨reaches, fun placed _ => placed.widen .refl reaches, id⟩

theorem widen (extended : operand.Extends middle result after) (reaches : before.Reaches middle) :
    operand.Extends before result after :=
  ⟨reaches.trans extended.reaches,
    fun placed solid => extended.placed (placed.widen .refl reaches) solid, extended.solid⟩

grind_pattern widen => operand.Extends middle result after, operand.Extends before result after

theorem trans {further : Expr} (first : operand.Extends before result middle)
    (second : result.Extends middle further after) : operand.Extends before further after :=
  ⟨first.reaches.trans second.reaches,
    fun placed solid => second.placed (first.placed placed solid) (first.solid solid),
    fun solid => second.solid (first.solid solid)⟩

theorem of_parts {rest : List Construct} (later : AllPlaced rest before after)
    (parts_eq : result.parts = .expr operand :: rest)
    (span_eq : result.span = after.spanFrom operand.span.start)
    (solid : (Construct.expr result).isSolid) : operand.Extends before result after := by
  refine ⟨later.reaches, fun placed present => ?_, fun _ => solid⟩
  refine placed.enclose_left (fun _ => present) ?_ ?_ span_eq
  · rw [Construct.parts, parts_eq, List.head?_cons]
  · rw [Construct.parts, parts_eq, List.tail_cons]
    exact later

@[grind .]
theorem excerpt {kind : ExcerptKind} (reaches : before.Reaches after) (solid : kind ≠ .pattern) :
    operand.Extends before (.excerpt (after.spanFrom operand.span.start) kind) after := by
  have present : (Construct.expr (.excerpt (after.spanFrom operand.span.start) kind)).isSolid := by
    cases kind with
    | pattern => exact (solid rfl).elim
    | _ => rfl
  refine ⟨reaches, fun placed solid => ?_, fun _ => present⟩
  cases placed with
  | @cons _ _ _ first _ _ earlier placed later =>
    have reachesOn : first.ReachesOn after :=
      (placed.reachesOn solid).trans (later.reaches.trans reaches)
    have start_eq := placed.start_eq
    rw [Construct.span] at start_eq
    rw [start_eq]
    exact (AllPlaced.excerpt reachesOn).widen earlier .refl

@[grind .]
theorem fieldAccess {token : Token} {rest : List Token} (reaches : before.Reaches middle)
    (order : middle.IsOrdered) (head : middle.rest = token :: rest) :
    operand.Extends before
      (.fieldAccess (middle.tail.spanFrom operand.span.start) operand ⟨token.text, token.span⟩)
      middle.tail :=
  of_parts ((AllPlaced.token order head rfl rfl).widen reaches .refl) rfl rfl rfl

@[grind .]
theorem arrayAccess {index : Expr} (later : AllPlaced [.expr index] before after) :
    operand.Extends before (.arrayAccess (after.spanFrom operand.span.start) operand index) after :=
  of_parts later rfl rfl rfl

@[grind .]
theorem memberCall {token : Token} {rest : List Token} {arguments : List Expr}
    (reaches : before.Reaches middle) (order : middle.IsOrdered)
    (head : middle.rest = token :: rest)
    (later : AllPlaced (arguments.map .expr) middle.tail after) :
    operand.Extends before (.memberCall (after.spanFrom operand.span.start) operand
      ⟨token.text, token.span⟩ arguments) after :=
  of_parts ((AllPlaced.token order head rfl rfl).append_of reaches later) rfl rfl rfl

@[grind .]
theorem innerCreation {type : TypeRef} {arguments : List Expr} {body : Option Span}
    (later : AllPlaced (.typeRef type :: arguments.map .expr ++ body.toList.map .excerpt)
      before after) :
    operand.Extends before
      (.innerCreation (after.spanFrom operand.span.start) operand type arguments body) after :=
  of_parts later rfl rfl rfl

@[grind .]
theorem update {op : UpdateOp} (reaches : before.Reaches after) :
    operand.Extends before (.update (after.spanFrom operand.span.start) op operand) after :=
  of_parts (.nil reaches) rfl rfl rfl

@[grind .]
theorem binary {op : BinaryOp} {right : Expr} (later : AllPlaced [.expr right] before after) :
    operand.Extends before (.binary (after.spanFrom operand.span.start) op operand right) after :=
  of_parts later rfl rfl rfl

@[grind .]
theorem instanceOf {type : TypeRef} {binding : Option String}
    (later : AllPlaced [.typeRef type] before after) :
    operand.Extends before
      (.instanceOf (after.spanFrom operand.span.start) operand type binding) after :=
  of_parts later rfl rfl rfl

end Expr.Extends

/-- Whether what was read between two places, if anything was, is an operand that is placed there
and is not missing. -/
def OperandRead? : Option Expr → Cursor → Cursor → Prop
  | none, before, after => before.Reaches after
  | some operand, before, after =>
    AllPlaced [.expr operand] before after ∧ (Construct.expr operand).isSolid

attribute [grind =] OperandRead?

@[grind →]
theorem OperandRead?.read {result : Option Expr} {before after : Cursor}
    (read : OperandRead? result before after) : Read? .expr result before after := by
  cases result with
  | none => exact read
  | some operand => exact read.1

theorem OperandRead?.widen {result : Option Expr} {origin before after : Cursor}
    (read : OperandRead? result before after) (reaches : origin.Reaches before) :
    OperandRead? result origin after := by
  cases result with
  | none => exact reaches.trans read
  | some operand => exact ⟨read.1.widen reaches .refl, read.2⟩

namespace Parser

@[spec high]
theorem place_acceptWord_eq (word : String) (before : Cursor) :
    ⦃before.place⦄ acceptWord word ⦃⇓ accepted after => ⌜accepted = before.isAtWord word ∧
      before.Reaches after ∧ (accepted = true → after = before.tail)⌝⦄ := by
  refine triple_iff.mpr ?_
  rintro cursor rfl
  unfold acceptWord
  split
  · next found => exact ⟨found.symm, .tail .refl, fun _ => rfl⟩
  · next missing => exact ⟨(Bool.eq_false_iff.mpr missing).symm, .refl, nofun⟩

@[spec high]
theorem place_skipBalanced (opening closing : TokenKind) (before : Cursor) :
    ⦃before.place⦄ skipBalanced opening closing ⦃⇓ _ after =>
      ⌜before.Reaches after ∧ (before.isAt opening → before.ReachesOn after)⌝⦄ := by
  refine triple_iff.mpr ?_
  rintro cursor rfl
  unfold skipBalanced
  split
  · next found =>
    have reachesOn : cursor.ReachesOn _ := (Cursor.reachesOn_tail_of_isAt found).trans
      (Cursor.reaches_afterBalanced opening closing 1 cursor.tail.behind cursor.tail.rest)
    exact ⟨reachesOn.reaches, fun _ => reachesOn⟩
  · next missing => exact ⟨.refl, fun found => (missing found).elim⟩

@[spec high]
theorem place_skipParens (before : Cursor) :
    ⦃before.place⦄ skipParens ⦃⇓ _ after =>
      ⌜before.Reaches after ∧ (before.isAt .openParen → before.ReachesOn after)⌝⦄ :=
  place_skipBalanced _ _ before

@[spec high]
theorem place_skipBraces (before : Cursor) :
    ⦃before.place⦄ skipBraces ⦃⇓ _ after =>
      ⌜before.Reaches after ∧ (before.isAt .openBrace → before.ReachesOn after)⌝⦄ :=
  place_skipBalanced _ _ before

@[spec high]
theorem placed_typeRef? (before : Cursor) (order : before.IsOrdered) :
    ⦃before.place⦄ typeRef? ⦃⇓ result after => ⌜Read? .typeRef result before after ∧
      ∀ type, result = some type → type.span.start < type.span.stop⌝⦄ := by
  mvcgen [typeRef?, -onward_typeRef?] <;> grind -ring -linarith

@[spec high]
theorem placed_typeRef (before : Cursor) (order : before.IsOrdered) :
    ⦃before.place⦄ typeRef ⦃⇓ type after => ⌜AllPlaced [.typeRef type] before after⌝⦄ := by
  mvcgen [typeRef, -onward_typeRef]
  case vc3 here _ _ _ nothing =>
    subst here
    have reaches := nothing.1
    refine .widen ?_ reaches .refl
    exact .point (order.reaches reaches) rfl (by simp [isSolid]) rfl
  all_goals grind -ring -linarith

@[spec high]
theorem placed_parameter? (before : Cursor) (order : before.IsOrdered) :
    ⦃before.place⦄ parameter? ⦃⇓ result after =>
      ⌜Read? .parameter result before after⌝⦄ := by
  mvcgen [parameter?, -onward_parameter?] <;> grind -ring -linarith

@[spec high]
theorem placed_castType? (type : TypeRef) (before : Cursor) :
    ⦃before.place⦄ castType? type ⦃⇓ result after => ⌜∀ origin : Cursor, origin.IsOrdered →
      AllPlaced [.typeRef type] origin before → Read? .typeRef result origin after⌝⦄ := by
  refine triple_iff.mpr ?_
  rintro cursor rfl origin order placed
  refine triple_iff.mp (iterate_invariant (fun (result : Option TypeRef) cursor =>
    Read? .typeRef result origin cursor)
      (fun result => ?_) _) cursor placed
  mvcgen <;> grind -ring -linarith [AllPlaced.cover]

/-- Constructs that are read one at a time are placed one after the other. -/
theorem placed_many {α : Type} (construct : α → Construct) {step : Parser (Option α)}
    {origin : Cursor} (read : ∀ before : Cursor, origin.Reaches before → ⦃before.place⦄ step
      ⦃⇓ result after => ⌜Read? construct result before after⌝⦄) :
    ⦃origin.place⦄ many step ⦃⇓ values after =>
      ⌜AllPlaced (values.map construct) origin after⌝⦄ := by
  have upTo (n : Nat) (before : Cursor) (reaches : origin.Reaches before) :
      ⦃before.place⦄ manyUpTo step n ⦃⇓ values after =>
        ⌜AllPlaced (values.map construct) before after⌝⦄ := by
    induction n generalizing before with
    | zero =>
        mvcgen [manyUpTo]
        grind -ring -linarith
    | succ n induction => mvcgen [manyUpTo, read, induction] <;> grind -ring -linarith
  exact triple_iff.mpr fun cursor here =>
    triple_iff.mp (upTo (cursor.rest.length + 1) origin .refl) cursor here

@[spec high]
theorem placed_manyExprs {step : Parser (Option Expr)} (origin : Cursor)
    (read : ∀ before : Cursor, origin.Reaches before → ⦃before.place⦄ step
      ⦃⇓ result after => ⌜Read? .expr result before after⌝⦄) :
    ⦃origin.place⦄ many step ⦃⇓ exprs after => ⌜AllPlaced (exprs.map .expr) origin after⌝⦄ :=
  placed_many .expr read

@[spec high]
theorem placed_missing (before : Cursor) (order : before.IsOrdered) :
    ⦃before.place⦄ missing ⦃⇓ expr after =>
      ⌜after = before ∧ AllPlaced [.expr expr] before after⌝⦄ := by
  refine triple_iff.mpr ?_
  rintro cursor rfl
  exact ⟨rfl, .point order rfl nofun rfl⟩

@[spec high]
theorem placed_orMissing {parser : Parser (Option Expr)}
    (placed : ∀ before : Cursor, before.IsOrdered → ⦃before.place⦄ parser ⦃⇓ result after =>
      ⌜Read? .expr result before after⌝⦄)
    (before : Cursor) (order : before.IsOrdered) :
    ⦃before.place⦄ orMissing parser ⦃⇓ expr after => ⌜AllPlaced [.expr expr] before after⌝⦄ := by
  mvcgen [orMissing, placed, -onward_orMissing] <;> grind -ring -linarith

@[spec high]
theorem place_excerptFrom (start : Nat) (kind : ExcerptKind) (before : Cursor) :
    ⦃before.place⦄ excerptFrom start kind ⦃⇓ expr after =>
      ⌜after = before ∧ expr = .excerpt (before.spanFrom start) kind⌝⦄ := by
  mvcgen [excerptFrom, -onward_excerptFrom]
  grind -ring -linarith

@[spec high]
theorem extended_methodReference (receiver : Expr) (before : Cursor) :
    ⦃before.place⦄ methodReference receiver ⦃⇓ expr after =>
      ⌜receiver.Extends before expr after⌝⦄ := by
  mvcgen [methodReference, -onward_methodReference] <;> grind -ring -linarith

@[spec high]
theorem extended_iterate {step : Expr → Parser (Option Expr)}
    (extended : ∀ operand (before : Cursor), before.IsOrdered →
      ⦃before.place⦄ step operand ⦃⇓ result after =>
        ⌜operand.Extends before (result.getD operand) after⌝⦄)
    (operand : Expr) (before : Cursor) (order : before.IsOrdered) :
    ⦃before.place⦄ iterate step operand ⦃⇓ result after =>
      ⌜operand.Extends before result after⌝⦄ := by
  refine triple_iff.mpr ?_
  rintro cursor rfl
  refine triple_iff.mp (iterate_invariant (fun (result : Expr) => operand.Extends cursor result)
    (fun result => ?_) operand) cursor (.refl .refl)
  refine triple_iff.mpr fun before front => ?_
  have order' := order.reaches front.reaches
  exact front.trans (triple_iff.mp (extended result before order') before rfl)

/-- Whether what the rules of the grammar read is placed. -/
structure Rules.Placed (rules : Rules) : Prop where
  expr (before : Cursor) (order : before.IsOrdered) :
    ⦃before.place⦄ rules.expr ⦃⇓ result after =>
      ⌜Read? .expr result before after⌝⦄
  conditional (before : Cursor) (order : before.IsOrdered) :
    ⦃before.place⦄ rules.conditional ⦃⇓ result after => ⌜OperandRead? result before after⌝⦄
  binary (least : Nat) (before : Cursor) (order : before.IsOrdered) :
    ⦃before.place⦄ rules.binary least ⦃⇓ result after => ⌜OperandRead? result before after⌝⦄
  unary (before : Cursor) (order : before.IsOrdered) :
    ⦃before.place⦄ rules.unary ⦃⇓ result after => ⌜OperandRead? result before after⌝⦄
  primary (before : Cursor) (order : before.IsOrdered) :
    ⦃before.place⦄ rules.primary ⦃⇓ result after => ⌜OperandRead? result before after⌝⦄

attribute [spec high] Rules.Placed.expr Rules.Placed.conditional Rules.Placed.binary
  Rules.Placed.unary Rules.Placed.primary

/-- An operand after something that was skipped. -/
theorem Rules.Placed.primary_after {rules : Rules} (placed : rules.Placed) (origin before : Cursor)
    (order : before.IsOrdered) (reaches : origin.Reaches before) :
    ⦃before.place⦄ rules.primary ⦃⇓ result after => ⌜OperandRead? result origin after⌝⦄ :=
  triple_iff.mpr fun cursor here =>
    (triple_iff.mp (placed.primary before order) cursor here).widen reaches

section Rules

variable {rules : Rules} (placed : rules.Placed)

include placed

@[spec high]
theorem placed_lambdaWith (before : Cursor) (order : before.IsOrdered) (found : before.isAtLambda) :
    ⦃before.place⦄ lambdaWith rules ⦃⇓ expr after => ⌜AllPlaced [.expr expr] before after⌝⦄ := by
  mvcgen [lambdaWith, -onward_lambdaWith] <;> grind -ring -linarith

@[spec high]
theorem placed_valueWith (before : Cursor) (order : before.IsOrdered) :
    ⦃before.place⦄ valueWith rules ⦃⇓ expr after => ⌜AllPlaced [.expr expr] before after⌝⦄ := by
  mvcgen [valueWith, -onward_valueWith] <;> grind -ring -linarith

@[spec high]
theorem placed_argumentsWith (before : Cursor) (order : before.IsOrdered) :
    ⦃before.place⦄ argumentsWith rules ⦃⇓ exprs after =>
      ⌜AllPlaced (exprs.map .expr) before after⌝⦄ := by
  mvcgen [argumentsWith, -onward_argumentsWith] <;> grind -ring -linarith

@[spec high]
theorem placed_creationWith (start : Nat) (before : Cursor) (order : before.IsOrdered)
    (found : before.isAtWord "new") (here : start = before.here) :
    ⦃before.place⦄ creationWith rules none start ⦃⇓ expr after =>
      ⌜AllPlaced [.expr expr] before after ∧ (Construct.expr expr).isSolid⌝⦄ := by
  mvcgen [creationWith, -onward_creationWith] <;> grind -ring -linarith

@[spec high]
theorem extended_creationWith (outer : Expr) (start : Nat) (before : Cursor)
    (order : before.IsOrdered) (here : start = outer.span.start) :
    ⦃before.place⦄ creationWith rules (some outer) start ⦃⇓ expr after =>
      ⌜outer.Extends before expr after⌝⦄ := by
  mvcgen [creationWith, -onward_creationWith] <;> grind -ring -linarith

@[spec high]
theorem placed_wordWith {token : Token} {rest : List Token} (before : Cursor)
    (order : before.IsOrdered) (head : before.rest = token :: rest) (kind : token.kind = .word) :
    ⦃before.place⦄ wordWith rules token ⦃⇓ result after => ⌜OperandRead? result before after⌝⦄ := by
  mvcgen [wordWith, -onward_wordWith] <;> grind -ring -linarith

@[spec high]
theorem placed_primaryWith (before : Cursor) (order : before.IsOrdered) :
    ⦃before.place⦄ primaryWith rules ⦃⇓ result after => ⌜OperandRead? result before after⌝⦄ := by
  mvcgen [primaryWith, Rules.Placed.primary_after, -onward_primaryWith, -Rules.Placed.primary,
    -Rules.Onward.primary] <;> grind -ring -linarith

@[spec high]
theorem extended_selectionWith (receiver : Expr) (before : Cursor) (order : before.IsOrdered) :
    ⦃before.place⦄ selectionWith rules receiver ⦃⇓ result after =>
      ⌜receiver.Extends before (result.getD receiver) after⌝⦄ := by
  mvcgen [selectionWith, -onward_selectionWith] <;> grind -ring -linarith

@[spec high]
theorem extended_indexWith (array : Expr) (before : Cursor) (order : before.IsOrdered) :
    ⦃before.place⦄ indexWith rules array ⦃⇓ result after =>
      ⌜array.Extends before result after⌝⦄ := by
  mvcgen [indexWith, -onward_indexWith] <;> grind -ring -linarith

@[spec high]
theorem extended_selectorWith (operand : Expr) (before : Cursor) (order : before.IsOrdered) :
    ⦃before.place⦄ selectorWith rules operand ⦃⇓ result after =>
      ⌜operand.Extends before (result.getD operand) after⌝⦄ := by
  mvcgen [selectorWith, -onward_selectorWith] <;> grind -ring -linarith

@[spec high]
theorem placed_operandWith (before : Cursor) (order : before.IsOrdered) :
    ⦃before.place⦄ operandWith rules ⦃⇓ result after => ⌜OperandRead? result before after⌝⦄ := by
  mvcgen [operandWith, -onward_operandWith] <;> grind -ring -linarith

@[spec high]
theorem placed_castWith (before : Cursor) (order : before.IsOrdered)
    (found : before.isAt .openParen) :
    ⦃before.place⦄ castWith rules ⦃⇓ result after =>
      ⌜(result = none → after = before) ∧ OperandRead? result before after⌝⦄ := by
  mvcgen [castWith, -onward_castWith] <;> grind -ring -linarith

@[spec high]
theorem placed_unaryWith (before : Cursor) (order : before.IsOrdered) :
    ⦃before.place⦄ unaryWith rules ⦃⇓ result after => ⌜OperandRead? result before after⌝⦄ := by
  mvcgen [unaryWith, -onward_unaryWith] <;> grind -ring -linarith

@[spec high]
theorem extended_binaryStepWith (least : Nat) (left : Expr) (before : Cursor)
    (order : before.IsOrdered) :
    ⦃before.place⦄ binaryStepWith rules least left ⦃⇓ result after =>
      ⌜left.Extends before (result.getD left) after⌝⦄ := by
  mvcgen [binaryStepWith, -onward_binaryStepWith] <;> grind -ring -linarith

@[spec high]
theorem placed_binaryWith (least : Nat) (before : Cursor) (order : before.IsOrdered) :
    ⦃before.place⦄ binaryWith rules least
      ⦃⇓ result after => ⌜OperandRead? result before after⌝⦄ := by
  mvcgen [binaryWith, -onward_binaryWith] <;> grind -ring -linarith

@[spec high]
theorem placed_conditionalWith (before : Cursor) (order : before.IsOrdered) :
    ⦃before.place⦄ conditionalWith rules
      ⦃⇓ result after => ⌜OperandRead? result before after⌝⦄ := by
  mvcgen [conditionalWith, -onward_conditionalWith] <;> grind -ring -linarith

@[spec high]
theorem placed_exprWith (before : Cursor) (order : before.IsOrdered) :
    ⦃before.place⦄ exprWith rules ⦃⇓ result after => ⌜Read? .expr result before after⌝⦄ := by
  mvcgen [exprWith, -onward_exprWith] <;> grind -ring -linarith

end Rules

theorem placed_rules (n : Nat) : (rules n).Placed := by
  induction n with
  | zero =>
      refine ⟨?_, ?_, ?_, ?_, ?_⟩
      all_goals intros; exact triple_iff.mpr fun cursor here => here ▸ .refl
  | succ n induction =>
      exact
        { expr := placed_exprWith induction
          conditional := placed_conditionalWith induction
          binary := placed_binaryWith induction
          unary := placed_unaryWith induction
          primary := placed_primaryWith induction }

end Parser

end JavaOutline
