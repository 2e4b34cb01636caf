import JavaOutline.Fault

/-!
# Byte offsets

Offsets count bytes of the UTF-8 form of a text and are 64-bit words. They are kept as natural
numbers; the one operation that can leave the word, addition, checks its result. Lines and columns
are 32-bit words.
-/

namespace JavaOutline

/-- One more than the greatest 64-bit offset: 2 to the power of 64. -/
def offsetBound : Nat := 0x10000000000000000

/-- The greatest 32-bit offset. -/
def narrowMax : Nat := 0xffffffff

/-- The sum of two offsets, which must again be an offset. -/
def addOffsets (a b : Nat) : Except Fault Nat :=
  if a + b < offsetBound then .ok (a + b) else .error .sumOverflow

/-- The sum of two 32-bit offsets, which must again be one. -/
def addNarrow (a b : Nat) : Except Fault Nat :=
  if a + b ≤ narrowMax then .ok (a + b) else .error .sumOverflow

/-- The 32-bit offset closest to `offset`. -/
def narrow (offset : Nat) : Nat :=
  min offset narrowMax

/-- What a 32-bit word keeps of a number: its higher bits are dropped. -/
def wrap (n : Nat) : Nat :=
  n % (narrowMax + 1)

/-- The difference of two 32-bit words, as such a word. -/
def subWrap (a b : Nat) : Nat :=
  wrap (a + (narrowMax + 1) - b)

theorem addOffsets_eq_ok_iff {a b c : Nat} :
    addOffsets a b = .ok c ↔ c = a + b ∧ a + b < offsetBound := by
  unfold addOffsets
  split <;> simp_all [eq_comm]

theorem narrow_le (offset : Nat) : narrow offset ≤ narrowMax :=
  Nat.min_le_right offset narrowMax

theorem wrap_of_le {n : Nat} (le : n ≤ narrowMax) : wrap n = n :=
  Nat.mod_eq_of_lt (Nat.lt_succ_of_le le)

/-- A difference that is not negative is kept as it is. -/
theorem subWrap_of_le {a b : Nat} (le : b ≤ a) (le_max : a ≤ narrowMax) : subWrap a b = a - b := by
  have sum_eq : a + (narrowMax + 1) - b = a - b + (narrowMax + 1) := by omega
  rw [subWrap, wrap, sum_eq, Nat.add_mod_right]
  exact Nat.mod_eq_of_lt (by omega)

end JavaOutline
