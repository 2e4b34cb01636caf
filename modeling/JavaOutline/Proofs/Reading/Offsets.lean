import JavaOutline.Proofs.Reading.ParallelBlocks

/-!
# Reading at an offset

A block that is read at an offset is the block read at the start of its file, with the offset added
to both ends of every span. If the last token would end beyond the offsets, there is no block.
-/

namespace JavaOutline

open Relocatable (relocate)

namespace Token

/-- The tokens of a text that begins further on stand further on. -/
theorem scanFrom_add (offset skip start : Nat) (cs : List Char) :
    scanFrom skip (start + offset) cs = relocate (· + offset) (scanFrom skip start cs) := by
  induction cs generalizing skip start with
  | nil => simp [scanFrom, relocate]
  | cons c cs induction =>
      have moved (skip : Nat) : scanFrom skip (start + offset + c.utf8Size) cs =
          relocate (· + offset) (scanFrom skip (start + c.utf8Size) cs) := by
        rw [Nat.add_right_comm, induction]
      cases skip with
      | succ skip => exact moved skip
      | zero =>
          simp only [scanFrom, moved]
          cases (pieceAt c cs).2 with
          | none => rfl
          | some kind =>
              simp only [relocate, List.map_cons, Nat.add_right_comm]

theorem scan_eq_relocate (offset : Nat) (text : List Char) :
    scan offset text = relocate (· + offset) (scan 0 text) := by
  rw [scan, scan, ← scanFrom_add, Nat.zero_add]

/-- No token ends after the last one. -/
theorem InOrder.stop_le_last {source : Source} {offset : Nat} {tokens : List Token}
    {token last : Token} (order : InOrder source offset tokens) (member : token ∈ tokens)
    (last_eq : tokens.getLast? = some last) : token.span.stop ≤ last.span.stop := by
  induction tokens generalizing offset with
  | nil => cases member
  | cons first tokens induction =>
      obtain ⟨-, -, -, -, later⟩ := order
      cases tokens with
      | nil =>
          obtain rfl := List.mem_singleton.mp member
          obtain rfl := Option.some.inj last_eq
          exact Nat.le_refl _
      | cons second tokens =>
          rw [List.getLast?_cons_cons] at last_eq
          cases member with
          | head =>
              have last_mem := List.mem_of_getLast? last_eq
              exact Nat.le_trans (later.le_start last_mem)
                (Nat.le_of_lt (later.start_lt_stop last_mem))
          | tail _ member => exact induction later member last_eq

/-- A text that begins at an offset can be scanned if its last token ends at an offset. -/
theorem scan?_eq (text : Source) (offset : Nat) {last : Token}
    (last_eq : (scan 0 text.chars).getLast? = some last) :
    scan? offset text.chars = if offset + last.span.stop < offsetBound
      then .ok (relocate (· + offset) (scan 0 text.chars)) else .error .sumOverflow := by
  have all_iff : (scan offset text.chars).all (·.span.stop < offsetBound) ↔
      offset + last.span.stop < offsetBound := by
    rw [scan_eq_relocate, List.all_eq_true]
    constructor
    · intro all
      have last_lt := all _ (List.mem_map_of_mem (List.mem_of_getLast? last_eq))
      rw [Nat.add_comm]
      exact of_decide_eq_true last_lt
    · rintro last_lt _ found
      obtain ⟨token, member, rfl⟩ := List.mem_map.mp found
      have stop_le := (inOrder_scan text).stop_le_last member last_eq
      refine decide_eq_true ?_
      change token.span.stop + offset < offsetBound
      omega
  rw [scan?, scan_eq_relocate] at *
  simp only [all_iff]

end Token

namespace Parallel

/-- A text and the same text further on. -/
def shifted (offset : Nat) : Parallel where
  move := (· + offset)
  monotone _ _ le := Nat.add_le_add_right le offset
  old := []
  new := []

theorem keptBy_add (offset : Nat) {source : Source} {start : Nat} {tokens : List Token}
    (order : Token.InOrder source start tokens) : Token.KeptBy (· + offset) tokens := by
  induction tokens generalizing start with
  | nil => trivial
  | cons token tokens induction =>
      obtain ⟨-, start_lt, -, -, later⟩ := order
      exact ⟨Nat.add_lt_add_right start_lt offset, fun _ _ _ => Nat.add_right_cancel_iff,
        induction later⟩

/-- A block further on is the block read here, moved. -/
theorem block_start_relocate (text : Source) (offset : Nat)
    (nonempty : Token.scan 0 text.chars ≠ []) :
    (Parser.block (.start (relocate (· + offset) (Token.scan 0 text.chars)))).1 =
      relocate (· + offset) (Parser.block (.start (Token.scan 0 text.chars))).1 := by
  have order := Token.inOrder_scan text
  have start_eq : Cursor.start (relocate (· + offset) (Token.scan 0 text.chars)) =
      ⟨relocate (· + offset) (Token.scan 0 text.chars),
        (Cursor.start (Token.scan 0 text.chars)).behind + offset⟩ := by
    cases tokens_eq : Token.scan 0 text.chars with
    | nil => exact absurd tokens_eq nonempty
    | cons token tokens => rfl
  have tame : (shifted offset).Tame (.start (Token.scan 0 text.chars)) :=
    ⟨⟨text, Cursor.inOrder_start order⟩, keptBy_add offset order⟩
  rw [start_eq]
  exact ((agree_block (.inl ⟨rfl, rfl⟩) tame).2 _ (mirrors_relocate ⟨rfl, rfl⟩ _)
    (.inr (.inl ⟨rfl, rfl⟩))).1

end Parallel

/-- A block read at an offset is the block read at the start of its file, with the offset added to
both ends of every span, unless its last token ends beyond the offsets. -/
theorem Block.read_offset (text : Source) (offset : Nat) :
    match (Token.scan 0 text.chars).getLast? with
    | none => Block.read text offset = .ok (.mk ⟨0, 0⟩ [])
    | some last =>
      if offset + last.span.stop < offsetBound then
        ∃ block, Block.read text 0 = .ok block ∧
          Block.read text offset = .ok (Relocatable.relocate (· + offset) block)
      else Block.read text offset = .error .sumOverflow := by
  cases last_eq : (Token.scan 0 text.chars).getLast? with
  | none =>
      have scan_eq := List.getLast?_eq_none_iff.mp last_eq
      have scan?_eq : Token.scan? offset text.chars = .ok [] := by
        rw [Token.scan?, Token.scan_eq_relocate, scan_eq]
        rfl
      rw [Block.read, scan?_eq]
      rfl
  | some last =>
      have nonempty : Token.scan 0 text.chars ≠ [] := fun scan_eq => by simp [scan_eq] at last_eq
      by_cases fits : offset + last.span.stop < offsetBound
      · have fits_here : 0 + last.span.stop < offsetBound := by omega
        simp only [if_pos fits]
        refine ⟨(Parser.block (.start (Token.scan 0 text.chars))).1, ?_, ?_⟩
        · rw [Block.read, Token.scan?_eq text 0 last_eq, if_pos fits_here, ← Token.scan_eq_relocate]
          rfl
        · rw [Block.read, Token.scan?_eq text offset last_eq, if_pos fits]
          exact congrArg Except.ok (Parallel.block_start_relocate text offset nonempty)
      · simp only [if_neg fits]
        rw [Block.read, Token.scan?_eq text offset last_eq, if_neg fits]
        rfl

end JavaOutline
