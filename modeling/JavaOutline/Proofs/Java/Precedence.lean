import Mathlib
import JavaOutline.Proofs.Java.Relocation

/-!
# Operators in order of precedence

Operands joined by binary operators and type tests are written one after the other, and there is
one way to group them in which an operator binds what binds tighter: where the operator that binds
least is applied last and operators that bind alike are grouped from the left. The last of the
operators that bind least is the root of every such grouping, which is why there is only one.
-/

namespace JavaOutline

/-- What stands in a chain of operations: an operand, an operator between two operands, or a type
test behind one, with the name it binds if there is one. -/
inductive ChainItem where
  | operand (operand : Expr)
  | operator (op : BinaryOp)
  | test (type : String) (binding : Option String)

namespace ChainItem

/-- How tight an operator or a type test binds. -/
def precedence? : ChainItem → Option Nat
  | operand _ => none
  | operator op => some op.precedence
  | test .. => some instanceOfPrecedence

/-- Whether all operators and type tests of a chain bind at least as tight as `least`. -/
def AllBind (least : Nat) (items : List ChainItem) : Prop :=
  ∀ item ∈ items, ∀ precedence ∈ item.precedence?, least ≤ precedence

end ChainItem

open ChainItem (AllBind)

namespace Expr

/-- The operands, operators and type tests of an expression in the order in which they are
written. What is no binary operation and no type test is an operand. -/
def chain : Expr → List ChainItem
  | binary _ op left right => left.chain ++ .operator op :: right.chain
  | instanceOf _ operand type binding => operand.chain ++ [.test type.text binding]
  | operand => [.operand operand]

/-- Whether an expression is an operand, or the operation applied last binds at least as tight as
`least`. -/
def BindsAt (least : Nat) : Expr → Prop
  | binary _ op _ _ => least ≤ op.precedence
  | instanceOf .. => least ≤ instanceOfPrecedence
  | _ => True

/-- Whether operations are grouped in order of precedence, and from the left where they bind
alike. -/
def IsGrouped : Expr → Prop
  | binary _ op left right =>
    (left.IsGrouped ∧ left.BindsAt op.precedence) ∧
      right.IsGrouped ∧ right.BindsAt (op.precedence + 1)
  | instanceOf _ operand _ _ => operand.IsGrouped ∧ operand.BindsAt instanceOfPrecedence
  | _ => True

/-- Whether an expression is neither a binary operation nor a type test. -/
def IsAtomic : Expr → Prop
  | binary .. | instanceOf .. => False
  | _ => True

theorem isAtomic_of_ne {expr : Expr}
    (no_binary : ∀ span op left right, expr = .binary span op left right → False)
    (no_test : ∀ span operand type binding, expr = .instanceOf span operand type binding → False) :
    expr.IsAtomic := by
  cases expr with
  | binary => exact no_binary _ _ _ _ rfl
  | instanceOf => exact no_test _ _ _ _ rfl
  | _ => trivial

theorem IsAtomic.chain_eq {expr : Expr} (atomic : expr.IsAtomic) :
    expr.chain = [.operand expr] := by
  cases expr with
  | binary | instanceOf => exact atomic.elim
  | _ => rfl

theorem IsAtomic.bindsAt {expr : Expr} (atomic : expr.IsAtomic) (least : Nat) :
    expr.BindsAt least := by
  cases expr with
  | binary | instanceOf => exact atomic.elim
  | _ => trivial

theorem IsAtomic.isGrouped {expr : Expr} (atomic : expr.IsAtomic) : expr.IsGrouped := by
  cases expr with
  | binary | instanceOf => exact atomic.elim
  | _ => trivial

theorem BindsAt.mono {expr : Expr} {least more : Nat} (binds : expr.BindsAt more)
    (le : least ≤ more) : expr.BindsAt least := by
  cases expr with
  | binary | instanceOf => exact Nat.le_trans le binds
  | _ => trivial

theorem chain_ne_nil (expr : Expr) : expr.chain ≠ [] := by
  cases expr <;> simp [chain]

/-- Every operation in a grouped expression binds at least as tight as the one applied last. -/
theorem IsGrouped.allBind {expr : Expr} (grouped : expr.IsGrouped) {least : Nat}
    (binds : expr.BindsAt least) : AllBind least expr.chain := by
  induction expr using Expr.chain.induct generalizing least with
  | case1 span op left right left_induction right_induction =>
      obtain ⟨⟨left_grouped, left_binds⟩, right_grouped, right_binds⟩ := grouped
      have le : least ≤ op.precedence := binds
      intro item member precedence found
      rcases List.mem_append.mp member with before | later
      · exact left_induction left_grouped (left_binds.mono le) item before precedence found
      · rcases List.mem_cons.mp later with rfl | after
        · obtain rfl := Option.some.inj found
          exact le
        · have right_binds := right_binds.mono (Nat.le_succ_of_le le)
          exact right_induction right_grouped right_binds item after precedence found
  | case2 span operand type binding induction =>
      obtain ⟨grouped, operand_binds⟩ := grouped
      have le : least ≤ instanceOfPrecedence := binds
      intro item member precedence found
      rcases List.mem_append.mp member with before | last
      · exact induction grouped (operand_binds.mono le) item before precedence found
      · obtain rfl := List.mem_singleton.mp last
        obtain rfl := Option.some.inj found
        exact le
  | case3 operand no_binary no_test =>
      have atomic : operand.IsAtomic := isAtomic_of_ne no_binary no_test
      rw [atomic.chain_eq]
      intro item member precedence found
      obtain rfl := List.mem_singleton.mp member
      cases found

/-- Two operations with the same chain cannot be applied last, if one stands in the right operand
of the other. -/
theorem IsGrouped.not_in_right {span span' : Span} {op op' : BinaryOp}
    {left right left' right' : Expr} (grouped : (binary span op left right).IsGrouped)
    (grouped' : (binary span' op' left' right').IsGrouped) {between : List ChainItem}
    (left_eq : left'.chain = left.chain ++ .operator op :: between)
    (right_eq : right.chain = between ++ .operator op' :: right'.chain) : False := by
  obtain ⟨-, right_grouped, right_binds⟩ := grouped
  obtain ⟨⟨left_grouped, left_binds⟩, -⟩ := grouped'
  have in_left : ChainItem.operator op ∈ left'.chain := by simp [left_eq]
  have in_right : ChainItem.operator op' ∈ right.chain := by simp [right_eq]
  have at_least := left_grouped.allBind left_binds _ in_left _ rfl
  have more := right_grouped.allBind right_binds _ in_right _ rfl
  omega

/-- A binary operation and a type test with the same chain cannot both be applied last. -/
theorem IsGrouped.chain_ne {span span' : Span} {op : BinaryOp} {left right operand : Expr}
    {type : TypeRef} {binding : Option String} (grouped : (binary span op left right).IsGrouped)
    (grouped' : (instanceOf span' operand type binding).IsGrouped) :
    (binary span op left right).chain ≠ (instanceOf span' operand type binding).chain := by
  intro same
  obtain ⟨-, right_grouped, right_binds⟩ := grouped
  obtain ⟨operand_grouped, operand_binds⟩ := grouped'
  obtain ⟨front, last, right_eq⟩ := (List.eq_nil_or_concat' right.chain).resolve_left
    right.chain_ne_nil
  have same : (left.chain ++ .operator op :: front) ++ [last] =
      operand.chain ++ [.test type.text binding] := by
    rw [List.append_assoc, List.cons_append, ← right_eq]
    exact same
  obtain ⟨operand_eq, last_eq⟩ := List.append_inj' same rfl
  have in_operand : ChainItem.operator op ∈ operand.chain := by simp [← operand_eq]
  have in_right : ChainItem.test type.text binding ∈ right.chain := by
    rw [right_eq, last_eq]
    simp
  have at_least := operand_grouped.allBind operand_binds _ in_operand _ rfl
  have more := right_grouped.allBind right_binds _ in_right _ rfl
  omega

/-- The operation applied last is found in the chain. -/
theorem IsGrouped.operands_eq {span span' : Span} {op op' : BinaryOp}
    {left right left' right' : Expr} (grouped : (binary span op left right).IsGrouped)
    (grouped' : (binary span' op' left' right').IsGrouped)
    (same : (binary span op left right).chain = (binary span' op' left' right').chain) :
    left.chain = left'.chain ∧ op = op' ∧ right.chain = right'.chain := by
  rcases List.append_eq_append_iff.mp same with ⟨between, left_eq, right_eq⟩ |
    ⟨between, left_eq, right_eq⟩
  · cases between with
    | nil =>
        obtain ⟨op_eq, right_eq⟩ := List.cons.inj right_eq
        exact ⟨by rw [left_eq, List.append_nil], ChainItem.operator.inj op_eq, right_eq⟩
    | cons item between =>
        obtain ⟨rfl, later_eq⟩ := List.cons.inj right_eq
        exact (grouped.not_in_right grouped' left_eq later_eq).elim
  · cases between with
    | nil =>
        obtain ⟨op_eq, right_eq⟩ := List.cons.inj right_eq
        exact ⟨by rw [left_eq, List.append_nil], (ChainItem.operator.inj op_eq).symm, right_eq.symm⟩
    | cons item between =>
        obtain ⟨rfl, later_eq⟩ := List.cons.inj right_eq
        exact (grouped'.not_in_right grouped left_eq later_eq).elim

/-- An operand is no operation. -/
theorem IsAtomic.length_chain {expr : Expr} (atomic : expr.IsAtomic) : expr.chain.length = 1 := by
  rw [atomic.chain_eq, List.length_singleton]

theorem one_lt_length_chain {expr : Expr} (operation : ¬expr.IsAtomic) :
    1 < expr.chain.length := by
  cases expr with
  | binary span op left right =>
      have positive := List.length_pos_iff.mpr left.chain_ne_nil
      simp only [chain, List.length_append, List.length_cons]
      omega
  | instanceOf span operand type binding =>
      have positive := List.length_pos_iff.mpr operand.chain_ne_nil
      simp only [chain, List.length_append, List.length_singleton]
      omega
  | _ => exact absurd trivial operation

/-- Expressions with the same operands, operators and type tests are grouped in one way, up to
where they stand. -/
theorem IsGrouped.relocate_eq {expr other : Expr} (grouped : expr.IsGrouped)
    (grouped' : other.IsGrouped) (same : expr.chain = other.chain) :
    (expr.relocate fun _ => 0) = other.relocate fun _ => 0 := by
  induction expr using Expr.chain.induct generalizing other with
  | case1 span op left right left_induction right_induction =>
      cases other with
      | binary span' op' left' right' =>
          obtain ⟨left_eq, rfl, right_eq⟩ := grouped.operands_eq grouped' same
          have left_same := left_induction grouped.1.1 grouped'.1.1 left_eq
          have right_same := right_induction grouped.2.1 grouped'.2.1 right_eq
          exact congrArg₂ (Expr.binary _ op) left_same right_same
      | instanceOf => exact absurd same (grouped.chain_ne grouped')
      | _ =>
          have longer : 1 < (binary span op left right).chain.length := one_lt_length_chain id
          rw [same] at longer
          exact absurd longer (by simp [chain])
  | case2 span operand type binding induction =>
      cases other with
      | binary => exact absurd same.symm (grouped'.chain_ne grouped)
      | instanceOf span' operand' type' binding' =>
          obtain ⟨operand_eq, test_eq⟩ := List.append_inj' same rfl
          obtain ⟨text_eq, rfl⟩ := ChainItem.test.inj (List.cons.inj test_eq).1
          have operand_same := induction grouped.1 grouped'.1 operand_eq
          have type_same : Relocatable.relocate (fun _ => 0) type =
              Relocatable.relocate (fun _ => 0) type' :=
            congrArg (TypeRef.mk · _) text_eq
          exact congrArg₂ (Expr.instanceOf _ · · binding) operand_same type_same
      | _ =>
          have longer : 1 < (instanceOf span operand type binding).chain.length :=
            one_lt_length_chain id
          rw [same] at longer
          exact absurd longer (by simp [chain])
  | case3 operand no_binary no_test =>
      have atomic : operand.IsAtomic := isAtomic_of_ne no_binary no_test
      by_cases other_atomic : other.IsAtomic
      · rw [atomic.chain_eq, other_atomic.chain_eq] at same
        rw [ChainItem.operand.inj (List.cons.inj same).1]
      · have longer := one_lt_length_chain other_atomic
        rw [← same, atomic.length_chain] at longer
        exact absurd longer (Nat.lt_irrefl 1)

end Expr

end JavaOutline
