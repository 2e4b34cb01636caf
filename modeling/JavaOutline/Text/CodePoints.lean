/-!
# Sets of code points

A set of code points is a list of inclusive ranges in increasing order.
-/

namespace JavaOutline

/-- Membership in a set given by increasing inclusive ranges. -/
def inRanges (codePoint : Nat) : List (Nat × Nat) → Bool
  | [] => false
  | (low, high) :: ranges =>
    if codePoint < low then false else codePoint ≤ high || inRanges codePoint ranges

/-- Whatever is found lies in one of the ranges. -/
theorem exists_range_of_inRanges {codePoint : Nat} {ranges : List (Nat × Nat)}
    (found : inRanges codePoint ranges = true) :
    ∃ range ∈ ranges, range.1 ≤ codePoint ∧ codePoint ≤ range.2 := by
  induction ranges with
  | nil => simp [inRanges] at found
  | cons range ranges induction =>
    obtain ⟨low, high⟩ := range
    by_cases below : codePoint < low
    · simp [inRanges, below] at found
    · by_cases within : codePoint ≤ high
      · exact ⟨(low, high), by simp, by simpa using below, within⟩
      · simp only [inRanges, below, within, if_false, decide_false, Bool.false_or] at found
        obtain ⟨other, member, bounds⟩ := induction found
        exact ⟨other, List.mem_cons_of_mem _ member, bounds⟩

end JavaOutline
