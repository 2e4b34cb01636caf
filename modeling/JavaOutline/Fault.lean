/-!
# Faults

A fault is a condition under which an operation has no answer of its own: a sum that leaves its
machine word, or a reference to a node that an outline does not hold. Faults are kept apart from
the rejections of a method body, which are ordinary answers.
-/

namespace JavaOutline

/-- Why an operation has no answer. -/
inductive Fault where
  /-- A sum does not fit the word it is kept in. -/
  | sumOverflow
  /-- The node `id` was asked for, and the outline has no such node. -/
  | notANode (id : Nat)
  /-- Position `index` was named in a sequence of `length` entries. -/
  | indexOutOfBounds (length index : Nat)
  deriving DecidableEq, Repr

/-- The wording of a fault. -/
def Fault.message : Fault → String
  | .sumOverflow => "attempt to add with overflow"
  | .notANode id => s!"NodeId({id}) is not a node of this tree"
  | .indexOutOfBounds length index =>
    s!"index out of bounds: the len is {length} but the index is {index}"

end JavaOutline
