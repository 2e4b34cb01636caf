import Mathlib
import JavaOutline.Proofs.Reading.Termination

/-!
# Rules without a bound

How often the rules of the grammar may call each other can be made to depend on the place where they
are called. If it is more often than there are tokens left, what is read there does not depend on
it. So the rules read with rules below them that are bounded by the place alone, and an induction on
the grammar can stop where fewer tokens are left than at the place where it began.
-/

set_option mvcgen.warning false

open Std.Do

namespace JavaOutline

namespace Parser

/-- The rules, which may call each other as often as the place allows. -/
def variedRules (depth : Cursor → Nat) : Rules where
  expr := fun cursor => (rules (depth cursor)).expr cursor
  conditional := fun cursor => (rules (depth cursor)).conditional cursor
  binary := fun least cursor => (rules (depth cursor)).binary least cursor
  unary := fun cursor => (rules (depth cursor)).unary cursor
  primary := fun cursor => (rules (depth cursor)).primary cursor

/-- The rules, which may call each other as often as there are tokens left, if these are fewer than
`bound`. -/
def shortRules (bound : Nat) : Rules :=
  variedRules fun cursor => if cursor.rest.length < bound then cursor.rest.length + 1 else 0

/-- Whether two grammars read the same at a place. -/
structure Rules.SameAt (left right : Rules) (cursor : Cursor) : Prop where
  expr : left.expr cursor = right.expr cursor
  conditional : left.conditional cursor = right.conditional cursor
  binary (least : Nat) : left.binary least cursor = right.binary least cursor
  unary : left.unary cursor = right.unary cursor
  primary : left.primary cursor = right.primary cursor

variable {cursor : Cursor} {bound n : Nat}

theorem reads_variedRules (depth : Cursor → Nat) : (variedRules depth).Reads where
  onward :=
    { expr := fun origin => triple_iff.mpr fun cursor before =>
        triple_iff.mp ((onward_rules _).expr origin) cursor before
      conditional := fun origin => triple_iff.mpr fun cursor before =>
        triple_iff.mp ((onward_rules _).conditional origin) cursor before
      binary := fun least origin => triple_iff.mpr fun cursor before =>
        triple_iff.mp ((onward_rules _).binary least origin) cursor before
      unary := fun origin => triple_iff.mpr fun cursor before =>
        triple_iff.mp ((onward_rules _).unary origin) cursor before
      primary := fun origin => triple_iff.mpr fun cursor before =>
        triple_iff.mp ((onward_rules _).primary origin) cursor before }
  placed :=
    { expr := fun before order => triple_iff.mpr fun cursor here =>
        triple_iff.mp ((placed_rules _).expr before order) cursor here
      conditional := fun before order => triple_iff.mpr fun cursor here =>
        triple_iff.mp ((placed_rules _).conditional before order) cursor here
      binary := fun least before order => triple_iff.mpr fun cursor here =>
        triple_iff.mp ((placed_rules _).binary least before order) cursor here
      unary := fun before order => triple_iff.mpr fun cursor here =>
        triple_iff.mp ((placed_rules _).unary before order) cursor here
      primary := fun before order => triple_iff.mpr fun cursor here =>
        triple_iff.mp ((placed_rules _).primary before order) cursor here }
  expr := fun before => triple_iff.mpr fun cursor here =>
    triple_iff.mp ((reads_rules _).expr before) cursor here

theorem rulesOver_add (n m : Nat) : rulesOver (rules n) m = rules (n + m) := by
  induction m with
  | zero => rfl
  | succ m induction => exact congrArg Rules.around induction

open Parallel in
/-- What agrees with itself on a text agrees with what reads the same. -/
theorem agree_of_eq {α : Type} [Relocatable α] {p q : Parser α}
    (itself : (cut []).Agree False p p cursor) (same : cursor.IsOrdered → q cursor = p cursor) :
    (cut []).Agree False p q cursor := by
  intro tame
  refine ⟨(itself tame).1, fun other mirrors inside => ?_⟩
  obtain rfl : other = cursor := (mirrors_self cursor).unique mirrors
  rw [same tame.order]
  exact (itself tame).2 other mirrors inside

/-- Where fewer tokens are left than the rules may call each other, they read what the rules read
that call each other as often as the place allows. -/
theorem shortRules_eq (order : cursor.IsOrdered) (short : cursor.rest.length < bound)
    (enough : cursor.rest.length < n) : (shortRules bound).SameAt (rules n) cursor := by
  have same := rulesOver_eq order (rules 0) (Nat.lt_succ_self cursor.rest.length) enough
  rw [rulesOver_rules_zero] at same
  obtain ⟨expr, conditional, binary, unary, primary⟩ := same
  constructor <;> simpa only [shortRules, variedRules, if_pos short]

open Parallel in
theorem rulesAgree_shortRules (n : Nat) : (cut []).RulesAgree (rules n) (shortRules n) n := by
  have itself := rulesAgree_rules (cut []) (Nat.le_refl n) (Nat.le_refl n)
  have same {cursor : Cursor} (short : cursor.rest.length < n) (order : cursor.IsOrdered) :=
    shortRules_eq order short short
  exact
    { reads := reads_rules n
      expr := fun short => agree_of_eq (itself.expr short) fun order => (same short order).expr
      conditional := fun short =>
        agree_of_eq (itself.conditional short) fun order => (same short order).conditional
      binary := fun least _ short =>
        agree_of_eq (itself.binary least short) fun order => (same short order).binary least
      unary := fun short => agree_of_eq (itself.unary short) fun order => (same short order).unary
      primary := fun short =>
        agree_of_eq (itself.primary short) fun order => (same short order).primary }

open Parallel in
/-- The rules read with the rules below them that are bounded by the place alone. -/
theorem shortRules_succ_eq (order : cursor.IsOrdered) (short : cursor.rest.length ≤ n) :
    (shortRules (n + 1)).SameAt (shortRules n).around cursor := by
  have itself := rulesAgree_rules (cut []) (Nat.le_refl n) (Nat.le_refl n)
  have both := rulesAgree_shortRules n
  have short' := Nat.lt_succ_of_le short
  have same := shortRules_eq order short' short'
  exact
    { expr := same.expr.trans
        (eq_of_agree order (agree_exprWith itself short) (agree_exprWith both short)).symm
      conditional := same.conditional.trans (eq_of_agree order
        (agree_conditionalWith itself short) (agree_conditionalWith both short)).symm
      binary := fun least => (same.binary least).trans (eq_of_agree order
        (agree_binaryWith itself least short) (agree_binaryWith both least short)).symm
      unary := same.unary.trans
        (eq_of_agree order (agree_unaryWith itself short) (agree_unaryWith both short)).symm
      primary := same.primary.trans (eq_of_agree order
        (agree_primaryWith itself short) (agree_primaryWith both short)).symm }

/-- Where as many tokens are left as the bound says, or more, nothing is read. -/
theorem shortRules_of_long (long : bound ≤ cursor.rest.length) :
    (shortRules bound).SameAt (rules 0) cursor := by
  constructor <;> simp only [shortRules, variedRules, if_neg (Nat.not_lt.mpr long), implies_true]

end Parser

end JavaOutline
