import JavaOutline.Outline.Build
import JavaOutline.Proofs.Outline.Verified
import JavaOutline.Proofs.Reading.Standing

/-!
# Values in two layouts

An expression is rendered alike from two sources that differ in the space between their tokens: it
has a rendering in both or in neither, and if no part of it is copied from the source, the
renderings are the same.
-/

namespace JavaOutline

open Relocatable (relocate)

/-! ## Expressions that are not copied -/

mutual

/-- Whether no part of an expression is copied from the source when it is rendered. -/
def Expr.isPlain : Expr → Bool
  | .name .. | .literal .. | .this .. | .super .. | .missing .. => true
  | .excerpt .. => false
  | .fieldAccess _ operand _ | .unary _ _ operand | .update _ _ operand
  | .instanceOf _ operand _ _ | .cast _ _ operand | .parenthesized _ operand => operand.isPlain
  | .arrayAccess _ left right | .binary _ _ left right | .assignment _ _ left right =>
    left.isPlain && right.isPlain
  | .conditional _ condition whenTrue whenFalse =>
    condition.isPlain && (whenTrue.isPlain && whenFalse.isPlain)
  | .call _ _ arguments => Expr.allPlain arguments
  | .memberCall _ receiver _ arguments => receiver.isPlain && Expr.allPlain arguments
  | .creation _ _ arguments none => Expr.allPlain arguments
  | .innerCreation _ outer _ arguments none => outer.isPlain && Expr.allPlain arguments
  | .creation _ _ _ (some _) | .innerCreation _ _ _ _ (some _) => false

/-- Whether no part of some expressions is copied from the source. -/
def Expr.allPlain : List Expr → Bool
  | [] => true
  | expr :: exprs => expr.isPlain && Expr.allPlain exprs

end

/-! ## Comparing two results -/

/-- Whether two values are equal, if they are plain. -/
def SameIf {α : Type} (plain : Bool) (left right : α) : Prop :=
  plain = true → left = right

theorem SameIf.and {α β : Type} {plain plain' : Bool} {left right : α} {left' right' : β}
    (same : SameIf plain left right) (same' : SameIf plain' left' right') :
    SameIf (plain && plain') (left, left') (right, right') := by
  intro holds
  obtain ⟨holds, holds'⟩ := Bool.and_eq_true_iff.mp holds
  rw [same holds, same' holds']

/-- Whether two computations give values that correspond, or fail in ways that do. -/
inductive Alike {ε α : Type} (failed : ε → ε → Prop) (same : α → α → Prop) :
    Except ε α → Except ε α → Prop
  | ok {left right : α} (corresponds : same left right) : Alike failed same (.ok left) (.ok right)
  | error {left right : ε} (corresponds : failed left right) :
      Alike failed same (.error left) (.error right)

theorem Alike.bind {ε α β : Type} {failed : ε → ε → Prop} {same : α → α → Prop}
    {same' : β → β → Prop} {left right : Except ε α} {next next' : α → Except ε β}
    (first : Alike failed same left right)
    (later : ∀ value other, same value other → Alike failed same' (next value) (next' other)) :
    Alike failed same' (left >>= next) (right >>= next') := by
  cases first with
  | ok corresponds => exact later _ _ corresponds
  | error corresponds => exact .error corresponds

/-- Whether two expressions have renderings that are the same if they are plain, or are
unrenderable for the same reason. -/
abbrev AlikeRendered {α : Type} (plain : Bool) :
    Except Unrenderable α → Except Unrenderable α → Prop :=
  Alike (fun left right => left.title = right.title) (SameIf plain)

theorem hasParens_relocate (f : Nat → Nat) (expr : Expr) :
    (expr.relocate f).hasParens = expr.hasParens := by
  cases expr <;> rfl

/-- Whether two rejections have the same reason. -/
def Rejection.SameVariant : Rejection → Rejection → Prop
  | .unsupported title _ _, .unsupported title' _ _ => title = title'
  | .malformedRange .., .malformedRange .. => True
  | .rangeMismatch .., .rangeMismatch .. => True
  | _, _ => False

/-- Whether two sources have the same tokens at offsets of their own. -/
structure Parallel.LayBoth (texts texts' : Parallel) (tokens : List Token) (size : Nat)
    (left right : Source) : Prop where
  left : texts.Lays tokens size left
  right : texts'.Lays tokens size right

/-! ## Rendering -/

section Rendering

variable {texts texts' : Parallel} {tokens : List Token} {size : Nat} {left right : Source}

theorem alike_copy (both : texts.LayBoth texts' tokens size left right) (expr : Expr)
    (stands : (Construct.expr expr).StandsAmong tokens) :
    AlikeRendered false ((expr.relocate texts.move).copy left)
      ((expr.relocate texts'.move).copy right) := by
  obtain ⟨text, sliced : left.slice? (relocate texts.move expr.span) = some text⟩ :=
    both.left.exists_slice? stands
  obtain ⟨text', sliced' : right.slice? (relocate texts'.move expr.span) = some text'⟩ :=
    both.right.exists_slice? stands
  have span_eq : (expr.relocate texts.move).span = relocate texts.move expr.span :=
    span_relocate _ expr
  have span_eq' : (expr.relocate texts'.move).span = relocate texts'.move expr.span :=
    span_relocate _ expr
  rw [Expr.copy, Expr.copy, span_eq, span_eq', sliced, sliced']
  exact .ok nofun

mutual

theorem alike_render (both : texts.LayBoth texts' tokens size left right) (expr : Expr)
    (stands : (Construct.expr expr).StandsAmong tokens) :
    AlikeRendered (expr.relocate texts.move).isPlain ((expr.relocate texts.move).render left)
      ((expr.relocate texts'.move).render right) := by
  cases expr with
  | name | literal | this | super => exact .ok fun _ => rfl
  | excerpt => exact alike_copy both _ stands
  | missing => exact .error rfl
  | fieldAccess span receiver field =>
      exact .bind (alike_render both receiver (stands.part List.mem_cons_self)) fun _ _ same =>
        .ok fun plain => by cases same plain; rfl
  | arrayAccess span array index =>
      exact .bind (alike_render both array (stands.part List.mem_cons_self)) fun _ _ first =>
        .bind (alike_render both index (stands.part (.tail _ List.mem_cons_self))) fun _ _ second =>
          .ok fun plain => by cases first.and second plain; rfl
  | call span method arguments =>
      exact .bind (alike_renderAll both arguments fun expr member =>
        stands.part (.tail _ (List.mem_map_of_mem member))) fun _ _ same =>
          .ok fun plain => by cases same plain; rfl
  | memberCall span receiver method arguments =>
      exact .bind (alike_render both receiver (stands.part List.mem_cons_self)) fun _ _ first =>
        .bind (alike_renderAll both arguments fun expr member =>
          stands.part (.tail _ (.tail _ (List.mem_map_of_mem member)))) fun _ _ later =>
            .ok fun plain => by cases first.and later plain; rfl
  | creation span type arguments body =>
      cases body with
      | some body => exact alike_copy both _ stands
      | none =>
          exact .bind (alike_renderAll both arguments fun expr member =>
            stands.part (List.mem_append_left _ (.tail _ (List.mem_map_of_mem member))))
              fun _ _ same => .ok fun plain => by cases same plain; rfl
  | innerCreation span outer type arguments body =>
      cases body with
      | some body => exact alike_copy both _ stands
      | none =>
          exact .bind (alike_render both outer (stands.part List.mem_cons_self)) fun _ _ first =>
            .bind (alike_renderAll both arguments fun expr member => stands.part
              (List.mem_append_left _ (.tail _ (.tail _ (List.mem_map_of_mem member)))))
                fun _ _ later => .ok fun plain => by cases first.and later plain; rfl
  | unary span op operand =>
      exact .bind (alike_render both operand (stands.part List.mem_cons_self)) fun _ _ same =>
        .ok fun plain => by cases same plain; rfl
  | update span op operand =>
      exact .bind (alike_render both operand (stands.part List.mem_cons_self)) fun _ _ same =>
        .ok fun plain => by cases same plain; rfl
  | binary span op left right =>
      exact .bind (alike_render both left (stands.part List.mem_cons_self)) fun _ _ first =>
        .bind (alike_render both right (stands.part (.tail _ List.mem_cons_self))) fun _ _ second =>
          .ok fun plain => by cases first.and second plain; rfl
  | instanceOf span operand type binding =>
      exact .bind (alike_render both operand (stands.part List.mem_cons_self)) fun _ _ same =>
        .ok fun plain => by cases same plain; rfl
  | conditional span condition whenTrue whenFalse =>
      exact .bind (alike_render both condition (stands.part List.mem_cons_self)) fun _ _ first =>
        .bind (alike_render both whenTrue (stands.part (.tail _ List.mem_cons_self)))
          fun _ _ second =>
            .bind (alike_render both whenFalse (stands.part (.tail _ (.tail _ List.mem_cons_self))))
              fun _ _ third =>
                .ok fun plain => by cases first.and (second.and third) plain; rfl
  | assignment span op target value =>
      exact .bind (alike_render both target (stands.part List.mem_cons_self)) fun _ _ first =>
        .bind (alike_render both value (stands.part (.tail _ List.mem_cons_self))) fun _ _ second =>
          .ok fun plain => by cases first.and second plain; rfl
  | cast span type operand =>
      exact .bind (alike_render both operand (stands.part (.tail _ List.mem_cons_self)))
        fun _ _ same => .ok fun plain => by cases same plain; rfl
  | parenthesized span inner =>
      refine .bind (alike_render both inner (stands.part List.mem_cons_self)) fun _ _ same => .ok ?_
      rw [hasParens_relocate, hasParens_relocate]
      exact fun plain => by cases same plain; rfl

theorem alike_renderAll (both : texts.LayBoth texts' tokens size left right) (exprs : List Expr)
    (stands : ∀ expr ∈ exprs, (Construct.expr expr).StandsAmong tokens) :
    AlikeRendered (Expr.allPlain (Expr.relocateAll texts.move exprs))
      (Expr.renderAll left (Expr.relocateAll texts.move exprs))
      (Expr.renderAll right (Expr.relocateAll texts'.move exprs)) := by
  cases exprs with
  | nil => exact .ok fun _ => rfl
  | cons expr exprs =>
      exact .bind (alike_render both expr (stands expr List.mem_cons_self)) fun _ _ first =>
        .bind (alike_renderAll both exprs fun other member => stands other (.tail expr member))
          fun _ _ later => .ok fun plain => by cases first.and later plain; rfl

end

/-! ## Values of nodes -/

open OutlineContext (trusting)

theorem alike_renderValue (both : texts.LayBoth texts' tokens size left right) (expr : Expr)
    (stands : (Construct.expr expr).StandsAmong tokens) :
    Alike Rejection.SameVariant (SameIf (expr.relocate texts.move).isPlain)
      ((trusting left).render (expr.relocate texts.move))
      ((trusting right).render (expr.relocate texts'.move)) := by
  have rendered := alike_render both expr stands
  unfold OutlineContext.render
  generalize (expr.relocate texts.move).render left = found at rendered
  generalize (expr.relocate texts'.move).render right = found' at rendered
  cases rendered with
  | ok same => exact .ok same
  | error title_eq => exact .error title_eq

theorem alike_renderValues (both : texts.LayBoth texts' tokens size left right)
    (exprs : List Expr) (stands : ∀ expr ∈ exprs, (Construct.expr expr).StandsAmong tokens) :
    Alike Rejection.SameVariant (SameIf (Expr.allPlain (Expr.relocateAll texts.move exprs)))
      ((trusting left).renderAll (Expr.relocateAll texts.move exprs))
      ((trusting right).renderAll (Expr.relocateAll texts'.move exprs)) := by
  have rendered := alike_renderAll both exprs stands
  unfold OutlineContext.renderAll
  generalize Expr.renderAll left (Expr.relocateAll texts.move exprs) = found at rendered
  generalize Expr.renderAll right (Expr.relocateAll texts'.move exprs) = found' at rendered
  cases rendered with
  | ok same => exact .ok fun plain => congrArg (", ".intercalate) (same plain)
  | error title_eq => exact .error title_eq

/-- Whether an expression makes a statement, and of which kind, does not depend on the layout. -/
theorem alike_expressionKind (expr : Expr) :
    Alike Rejection.SameVariant Eq ((trusting left).expressionKind (expr.relocate texts.move))
      ((trusting right).expressionKind (expr.relocate texts'.move)) := by
  cases expr with
  | unary span op operand =>
      cases op with
      | increment | decrement => exact .ok rfl
      | _ => exact .error rfl
  | assignment | update | creation | innerCreation | call | memberCall => exact .ok rfl
  | _ => exact .error rfl

theorem alike_slice (both : texts.LayBoth texts' tokens size left right) {node : Construct}
    (stands : node.StandsAmong tokens) :
    Alike Rejection.SameVariant (SameIf false)
      ((trusting left).slice (relocate texts.move node.span))
      ((trusting right).slice (relocate texts'.move node.span)) := by
  obtain ⟨text, sliced⟩ := both.left.exists_slice? stands
  obtain ⟨text', sliced'⟩ := both.right.exists_slice? stands
  rw [OutlineContext.slice, OutlineContext.slice, sliced, sliced']
  exact .ok nofun

theorem alike_slices (both : texts.LayBoth texts' tokens size left right) (spans : List Span)
    (stands : ∀ span ∈ spans, (Construct.excerpt span).StandsAmong tokens) :
    Alike Rejection.SameVariant (SameIf (relocate texts.move spans).isEmpty)
      ((relocate texts.move spans).mapM (trusting left).slice)
      ((relocate texts'.move spans).mapM (trusting right).slice) := by
  induction spans with
  | nil => exact .ok fun _ => rfl
  | cons span spans induction =>
      have first := alike_slice both (stands span List.mem_cons_self)
      have later := induction fun other member => stands other (.tail span member)
      change Alike _ _ (List.mapM _ (relocate texts.move span :: relocate texts.move spans))
        (List.mapM _ (relocate texts'.move span :: relocate texts'.move spans))
      rw [List.mapM_cons, List.mapM_cons]
      exact .bind first fun _ _ _ => .bind later fun _ _ _ => .ok nofun

/-- The text from a value to the end of its statement is found in both layouts or in neither. -/
theorem alike_tailText (both : texts.LayBoth texts' tokens size left right) {stmt : Stmt}
    {expr : Expr} (stands : (Construct.stmt stmt).StandsAmong tokens)
    (member : .expr expr ∈ stmt.parts) (not_pattern : expr.isPattern = false) :
    Alike Rejection.SameVariant (SameIf false)
      ((trusting left).tailText (expr.relocate texts.move) (relocate texts.move stmt.span))
      ((trusting right).tailText (expr.relocate texts'.move) (relocate texts'.move stmt.span)) := by
  have cut (solid : (Construct.expr expr).isSolid = true) :
      Alike Rejection.SameVariant (SameIf false)
        ((trusting left).slice ⟨texts.move expr.span.start, texts.move stmt.span.stop⟩)
        ((trusting right).slice ⟨texts'.move expr.span.start, texts'.move stmt.span.stop⟩) := by
    obtain ⟨text, sliced⟩ := both.left.exists_slice?_tail stands member solid
    obtain ⟨text', sliced'⟩ := both.right.exists_slice?_tail stands member solid
    simp only [Construct.span] at sliced sliced'
    rw [OutlineContext.slice, OutlineContext.slice, sliced, sliced']
    exact .ok nofun
  cases expr with
  | missing span => exact .error rfl
  | excerpt span kind =>
      cases kind with
      | pattern => cases not_pattern
      | _ => exact cut rfl
  | _ => exact cut rfl

end Rendering

end JavaOutline
