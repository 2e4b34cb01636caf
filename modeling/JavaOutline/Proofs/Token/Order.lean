import JavaOutline.Token.Scan

/-!
# Tokens in order

The tokens of a source are not empty, begin and end between characters, and none begins before the
one in front of it ends.
-/

namespace JavaOutline

namespace Source

/-- Whether an offset lies between two characters of the source, or at one of its ends. -/
def IsBoundary (source : Source) (offset : Nat) : Prop :=
  ∃ before after, source.chars = before ++ after ∧ byteLength before = offset

theorem IsBoundary.le_size {source : Source} {offset : Nat} (boundary : source.IsBoundary offset) :
    offset ≤ source.size := by
  obtain ⟨before, after, chars_eq, rfl⟩ := boundary
  rw [source.size_eq, chars_eq, byteLength_append]
  exact Nat.le_add_right _ _

theorem isBoundary_zero (source : Source) : source.IsBoundary 0 :=
  ⟨[], source.chars, rfl, rfl⟩

end Source

namespace Token

/-- Whether some tokens stand one after the other, from an offset on. -/
def InOrder (source : Source) : (offset : Nat) → List Token → Prop
  | _, [] => True
  | offset, token :: tokens =>
    offset ≤ token.span.start ∧ token.span.start < token.span.stop ∧
      source.IsBoundary token.span.start ∧ source.IsBoundary token.span.stop ∧
      InOrder source token.span.stop tokens

theorem InOrder.mono {source : Source} {lower upper : Nat} {tokens : List Token}
    (order : InOrder source upper tokens) (le : lower ≤ upper) : InOrder source lower tokens := by
  cases tokens with
  | nil => trivial
  | cons token tokens =>
      obtain ⟨start_le, later⟩ := order
      exact ⟨Nat.le_trans le start_le, later⟩

theorem InOrder.of_append {source : Source} {offset : Nat} {tokens more : List Token}
    (order : InOrder source offset (tokens ++ more)) : InOrder source offset tokens := by
  induction tokens generalizing offset with
  | nil => trivial
  | cons token tokens induction =>
      obtain ⟨start_le, start_lt, start_boundary, stop_boundary, later⟩ := order
      exact ⟨start_le, start_lt, start_boundary, stop_boundary, induction later⟩

theorem InOrder.le_start {source : Source} {offset : Nat} {tokens : List Token} {token : Token}
    (order : InOrder source offset tokens) (member : token ∈ tokens) :
    offset ≤ token.span.start := by
  induction tokens generalizing offset with
  | nil => cases member
  | cons first tokens induction =>
      obtain ⟨start_le, start_lt, _, _, later⟩ := order
      cases member with
      | head => exact start_le
      | tail _ member =>
          have := induction later member
          omega

theorem InOrder.start_lt_stop {source : Source} {offset : Nat} {tokens : List Token}
    {token : Token} (order : InOrder source offset tokens) (member : token ∈ tokens) :
    token.span.start < token.span.stop := by
  induction tokens generalizing offset with
  | nil => cases member
  | cons first tokens induction =>
      obtain ⟨_, start_lt, _, _, later⟩ := order
      cases member with
      | head => exact start_lt
      | tail _ member => exact induction later member

theorem InOrder.isBoundary_stop {source : Source} {offset : Nat} {tokens : List Token}
    {token : Token} (order : InOrder source offset tokens) (member : token ∈ tokens) :
    source.IsBoundary token.span.stop := by
  induction tokens generalizing offset with
  | nil => cases member
  | cons first tokens induction =>
      obtain ⟨_, _, _, boundary, later⟩ := order
      cases member with
      | head => exact boundary
      | tail _ member => exact induction later member

/-- One piece of the text is scanned, and then what is left after it. -/
theorem scanFrom_cons (offset : Nat) (c : Char) (cs : List Char) :
    ∃ more later, later = scanFrom 0 (offset + byteLength (c :: cs.take more)) (cs.drop more) ∧
      (scanFrom 0 offset (c :: cs) = later ∨ ∃ kind, scanFrom 0 offset (c :: cs) =
        ⟨kind, String.ofList (c :: cs.take more),
          ⟨offset, offset + byteLength (c :: cs.take more)⟩⟩ :: later) := by
  refine ⟨(pieceAt c cs).1, _, rfl, ?_⟩
  have rest_eq := scanFrom_skip (pieceAt c cs).1 (offset + c.utf8Size) cs
  rw [Nat.add_assoc] at rest_eq
  simp only [scanFrom, byteLength]
  rw [rest_eq]
  cases (pieceAt c cs).2 with
  | none => exact .inl rfl
  | some kind => exact .inr ⟨kind, rfl⟩

/-- What is left of a source is scanned into tokens in order. -/
theorem inOrder_scanFrom {source : Source} (before after : List Char)
    (chars_eq : source.chars = before ++ after) :
    InOrder source (byteLength before) (scanFrom 0 (byteLength before) after) := by
  match after with
  | [] => trivial
  | c :: cs =>
      obtain ⟨more, later, later_eq, scanned⟩ := scanFrom_cons (byteLength before) c cs
      have pieces : source.chars = (before ++ c :: cs.take more) ++ cs.drop more := by
        rw [chars_eq, List.append_assoc, List.cons_append, List.take_append_drop]
      have stop_eq : byteLength (before ++ c :: cs.take more) =
          byteLength before + byteLength (c :: cs.take more) := byteLength_append _ _
      have positive : 0 < byteLength (c :: cs.take more) :=
        Nat.lt_of_lt_of_le c.utf8Size_pos (Nat.le_add_right _ _)
      have later_order := inOrder_scanFrom _ _ pieces
      rw [stop_eq, ← later_eq] at later_order
      rcases scanned with blank | ⟨kind, token⟩
      · rw [blank]
        exact later_order.mono (Nat.le_add_right _ _)
      · rw [token]
        exact ⟨Nat.le_refl _, Nat.lt_add_of_pos_right positive, ⟨before, _, chars_eq, rfl⟩,
          ⟨_, _, pieces, stop_eq⟩, later_order⟩
termination_by after.length
decreasing_by
  simp only [List.length_drop, List.length_cons]
  omega

theorem inOrder_scan (source : Source) : InOrder source 0 (scan 0 source.chars) :=
  inOrder_scanFrom [] source.chars rfl

end Token

end JavaOutline
