import JavaOutline.Java.Declaration
import JavaOutline.Proofs.Reading.Methods

/-!
# Constructs and their places

A construct is anything in a file that has a span: a type, a member, a statement, an expression and
so on. Its parts are the constructs directly inside it, in the order of the source. A construct is
placed between two places if its span runs from a token to a token between them, and its parts are
placed one after the other inside that span.
-/

namespace JavaOutline

/-- Something in a file that has a span. -/
inductive Construct where
  | type (decl : TypeDecl)
  | member (member : Member)
  | parameter (parameter : Parameter)
  | typeRef (type : TypeRef)
  /-- The name of a declaration, a label, or what follows a dot. -/
  | name (name : Name)
  | block (block : Block)
  | stmt (stmt : Stmt)
  /-- The variables that a `for` header declares. -/
  | variables (declaration : Variables)
  | declarator (declarator : Declarator)
  | handler (handler : Handler)
  | group (group : SwitchGroup)
  | label (label : SwitchLabel)
  | expr (expr : Expr)
  /-- A resource of a `try`, or the body of an anonymous class. -/
  | excerpt (span : Span)

/-- Where a member stands. -/
def Member.span : Member → Span
  | .field found => found.span
  | .method found => found.span
  | .initializer span _ _ => span
  | .type header _ => header.span

/-- The constructs of the first part of a `for` header. -/
def ForInit.parts : ForInit → List Construct
  | .nothing => []
  | .locals declaration => [.variables declaration]
  | .exprs values => values.map .expr

/-- The constructs directly inside a member. -/
def Member.parts : Member → List Construct
  | .field found => [.typeRef found.type]
  | .method found =>
    found.result.toList.map .typeRef ++ .name found.name :: found.parameters.map .parameter
      ++ found.body.toList.map .block
  | .initializer _ _ body => [.block body]
  | .type header members => .name header.name :: members.map .member

/-- The constructs directly inside an expression. -/
def Expr.parts : Expr → List Construct
  | .name .. | .literal .. | .this .. | .super .. | .excerpt .. | .missing .. => []
  | .fieldAccess _ receiver field => [.expr receiver, .name field]
  | .arrayAccess _ array index => [.expr array, .expr index]
  | .call _ method arguments => .name method :: arguments.map .expr
  | .memberCall _ receiver method arguments =>
    .expr receiver :: .name method :: arguments.map .expr
  | .creation _ type arguments body =>
    .typeRef type :: arguments.map .expr ++ body.toList.map .excerpt
  | .innerCreation _ outer type arguments body =>
    .expr outer :: .typeRef type :: arguments.map .expr ++ body.toList.map .excerpt
  | .unary _ _ operand | .update _ _ operand | .parenthesized _ operand => [.expr operand]
  | .binary _ _ left right => [.expr left, .expr right]
  | .instanceOf _ operand type _ => [.expr operand, .typeRef type]
  | .conditional _ condition whenTrue whenFalse =>
    [.expr condition, .expr whenTrue, .expr whenFalse]
  | .assignment _ _ target value => [.expr target, .expr value]
  | .cast _ type operand => [.typeRef type, .expr operand]

/-- The constructs directly inside a declaration of variables. -/
def Variables.parts (declaration : Variables) : List Construct :=
  .typeRef declaration.type :: declaration.declarators.map .declarator

/-- The constructs directly inside a statement. -/
def Stmt.parts : Stmt → List Construct
  | .locals declaration => declaration.parts
  | .localType .. | .empty .. | .unparsed .. => []
  | .expr _ value => [.expr value]
  | .constructorCall _ _ outer arguments => outer.toList.map .expr ++ arguments.map .expr
  | .assertion _ condition message => .expr condition :: message.toList.map .expr
  | .jump _ _ label => label.toList.map .name
  | .returns _ value => value.toList.map .expr
  | .throws _ value => [.expr value]
  | .conditional _ condition whenTrue whenFalse =>
    .expr condition :: .stmt whenTrue :: whenFalse.toList.map .stmt
  | .whileLoop _ condition body => [.expr condition, .stmt body]
  | .doLoop _ body condition => [.stmt body, .expr condition]
  | .forLoop _ init condition update body =>
    init.parts ++ condition.toList.map .expr ++ update.map .expr ++ [.stmt body]
  | .forEach _ element collection body => [.parameter element, .expr collection, .stmt body]
  | .switch _ selector groups => .expr selector :: groups.map .group
  | .synchronized _ lock body => [.expr lock, .block body]
  | .tries _ resources body handlers cleanup =>
    resources.map .excerpt ++ .block body :: handlers.map .handler ++ cleanup.toList.map .block
  | .labeled _ label body => [.name label, .stmt body]
  | .block inner => [.block inner]

namespace Construct

/-- Where a construct stands. -/
def span : Construct → Span
  | .type decl => decl.header.span
  | .member found => found.span
  | .parameter found => found.span
  | .typeRef found => found.span
  | .name found => found.span
  | .block found => found.span
  | .stmt found => found.span
  | .variables found => found.span
  | .declarator found => found.span
  | .handler found => found.span
  | .group found => found.span
  | .label found => found.span
  | .expr found => found.span
  | .excerpt found => found

/-- The constructs directly inside a construct, in the order of the source. -/
def parts : Construct → List Construct
  | .type decl => .name decl.header.name :: decl.members.map .member
  | .member found => found.parts
  | .parameter found => [.typeRef found.type, .name found.name]
  | .typeRef _ | .name _ | .excerpt _ | .label (.default _) => []
  | .block found => found.statements.map .stmt
  | .stmt found => found.parts
  | .variables found => found.parts
  | .declarator found => .name found.name :: found.value.toList.map .expr
  | .handler (.mk _ types _ body) => types.map .typeRef ++ [.block body]
  | .group (.mk _ _ labels statements) => labels.map .label ++ statements.map .stmt
  | .label (.case _ values) => values.map .expr
  | .expr found => found.parts

/-- Whether a construct never stands for something that is not there. -/
def isSolid : Construct → Bool
  | .expr (.missing _) | .expr (.excerpt _ .pattern) => false
  | .expr _ => true
  | _ => false

mutual

/-- Whether a construct was read from a place on and before another place. -/
inductive PlacedAt : Construct → Cursor → Cursor → Prop
  | mk {node : Construct} {first last after : Cursor} (spans : first.Spans node.span last)
      (solid : node.isSolid → first.ReachesOn last) (parts : AllPlaced node.parts first last)
      (later : last.Reaches after) : PlacedAt node first after

/-- Whether some constructs were read between two places, one after the other. -/
inductive AllPlaced : List Construct → Cursor → Cursor → Prop
  | nil {before after : Cursor} (reaches : before.Reaches after) : AllPlaced [] before after
  | cons {node : Construct} {nodes : List Construct} {before first middle after : Cursor}
      (reaches : before.Reaches first) (placed : node.PlacedAt first middle)
      (later : AllPlaced nodes middle after) : AllPlaced (node :: nodes) before after

end

attribute [grind .] AllPlaced.nil

section Placed

variable {node left : Construct} {nodes more : List Construct}
  {before first middle last after : Cursor}

theorem PlacedAt.reaches (placed : node.PlacedAt first after) : first.Reaches after := by
  obtain ⟨spans, _, _, later⟩ := placed
  exact spans.reaches.trans later

theorem PlacedAt.start_eq (placed : node.PlacedAt first after) : node.span.start = first.here := by
  obtain ⟨⟨_, span_eq⟩, _, _, _⟩ := placed
  rw [span_eq, Cursor.spanFrom]

theorem PlacedAt.reachesOn (placed : node.PlacedAt first after) (solid : node.isSolid) :
    first.ReachesOn after := by
  obtain ⟨_, reachesOn, _, later⟩ := placed
  exact (reachesOn solid).trans later

@[grind →]
theorem AllPlaced.reaches (placed : AllPlaced nodes before after) : before.Reaches after := by
  induction nodes generalizing before with
  | nil =>
      cases placed with
      | nil reaches => exact reaches
  | cons node nodes induction =>
      cases placed with
      | cons reaches placed later => exact reaches.trans (placed.reaches.trans (induction later))

theorem AllPlaced.append (front : AllPlaced nodes before middle)
    (back : AllPlaced more middle after) : AllPlaced (nodes ++ more) before after := by
  induction nodes generalizing before with
  | nil =>
      cases front with
      | nil reaches =>
        cases back with
        | nil later => exact .nil (reaches.trans later)
        | cons later placed back => exact .cons (reaches.trans later) placed back
  | cons node nodes induction =>
      cases front with
      | cons reaches placed later => exact .cons reaches placed (induction later)

/-- What was read between two places was read between any two places around them. -/
theorem AllPlaced.widen (placed : AllPlaced nodes first last) (earlier : before.Reaches first)
    (later : last.Reaches after) : AllPlaced nodes before after := by
  have front : AllPlaced [] before first := .nil earlier
  have back : AllPlaced [] last after := .nil later
  simpa using (front.append placed).append back

theorem AllPlaced.widen_map {α : Type} {construct : α → Construct} {values : List α}
    (placed : AllPlaced (values.map construct) first last) (earlier : before.Reaches first)
    (later : last.Reaches after) : AllPlaced (values.map construct) before after :=
  placed.widen earlier later

theorem AllPlaced.append_of (front : AllPlaced nodes first middle) (earlier : before.Reaches first)
    (back : AllPlaced more middle after) : AllPlaced (nodes ++ more) before after :=
  (front.widen earlier .refl).append back

theorem AllPlaced.cons_of (placed : AllPlaced [node] first middle) (earlier : before.Reaches first)
    (later : AllPlaced nodes middle after) : AllPlaced (node :: nodes) before after :=
  placed.append_of earlier later

/-- A construct is placed if its span runs around its parts. -/
theorem AllPlaced.enclose (parts : AllPlaced node.parts before after)
    (solid : node.isSolid → before.ReachesOn after)
    (span_eq : node.span = after.spanFrom before.here) : AllPlaced [node] before after :=
  .cons .refl ⟨⟨parts.reaches, span_eq⟩, solid, parts, .refl⟩ (.nil .refl)

/-- A construct that begins with another one begins where that does. -/
theorem AllPlaced.enclose_left (placed : AllPlaced [left] before middle)
    (solid : node.isSolid → left.isSolid) (head_eq : node.parts.head? = some left)
    (later : AllPlaced node.parts.tail middle after)
    (span_eq : node.span = after.spanFrom left.span.start) : AllPlaced [node] before after := by
  cases placed with
  | @cons _ _ _ first _ _ reaches placed tail =>
    have parts : AllPlaced node.parts first after := by
      rw [← List.cons_head?_tail head_eq]
      exact .cons .refl placed (later.widen tail.reaches .refl)
    have enclosed : AllPlaced [node] first after := by
      refine parts.enclose (fun present => ?_) ?_
      · exact (placed.reachesOn (solid present)).trans (tail.reaches.trans later.reaches)
      · rw [span_eq, placed.start_eq]
    exact enclosed.widen reaches .refl

/-- What a construct consists of is placed where the construct is. -/
theorem AllPlaced.parts_of (placed : AllPlaced [node] before after) :
    AllPlaced node.parts before after := by
  cases placed with
  | cons earlier placed later =>
    cases placed with
    | mk _ _ parts toMiddle => exact parts.widen earlier (toMiddle.trans later.reaches)

theorem AllPlaced.sublist (placed : AllPlaced nodes before after) (sublist : more.Sublist nodes) :
    AllPlaced more before after := by
  induction sublist generalizing before with
  | slnil => exact placed
  | cons node _ induction =>
      cases placed with
      | cons earlier placed later =>
        exact (induction later).widen (earlier.trans placed.reaches) .refl
  | cons_cons node _ induction =>
      cases placed with
      | cons earlier placed later => exact .cons earlier placed (induction later)

end Placed

-- The places around a construct are found from the goal, and those where it was read from what is
-- known.
grind_pattern AllPlaced.widen_map =>
  AllPlaced (values.map construct) before after, AllPlaced (values.map construct) first last
grind_pattern AllPlaced.append_of =>
  AllPlaced (nodes ++ more) before after, AllPlaced nodes first middle
grind_pattern AllPlaced.cons_of =>
  AllPlaced (node :: nodes) before after, AllPlaced [node] first middle

/-- Whether what was read between two places, if anything was, is placed there. -/
def Read? {α : Type} (construct : α → Construct) : Option α → Cursor → Cursor → Prop
  | none, before, after => before.Reaches after
  | some value, before, after => AllPlaced [construct value] before after

attribute [grind =] Read?

@[grind →]
theorem Read?.reaches {α : Type} {construct : α → Construct} {result : Option α}
    {before after : Cursor} (read : Read? construct result before after) :
    before.Reaches after := by
  cases result with
  | none => exact read
  | some value => exact AllPlaced.reaches read

@[grind →]
theorem Read?.toList {α : Type} {construct : α → Construct} {result : Option α}
    {before after : Cursor} (read : Read? construct result before after) :
    AllPlaced (result.toList.map construct) before after := by
  cases result with
  | none => exact .nil read
  | some value => exact read

theorem Read?.widen {α : Type} {construct : α → Construct} {result : Option α}
    {before first last after : Cursor} (read : Read? construct result first last)
    (earlier : before.Reaches first) (later : last.Reaches after) :
    Read? construct result before after := by
  cases result with
  | none => exact earlier.trans (Cursor.Reaches.trans read later)
  | some value => exact AllPlaced.widen read earlier later

grind_pattern Read?.widen =>
  Read? construct result before after, Read? construct result first last

end Construct

end JavaOutline
