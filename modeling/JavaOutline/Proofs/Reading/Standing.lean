import JavaOutline.Proofs.Reading.Contents
import JavaOutline.Proofs.Reading.Superposed

/-!
# What was read in every layout of its tokens

What was read from some tokens stands in every source that has these tokens at offsets of its own.
It can be cut out of the source, and is empty there only if it is empty among the tokens.
-/

namespace JavaOutline

open Relocatable (relocate)

namespace Construct

/-- Whether a construct was read somewhere among some tokens. -/
def StandsAmong (tokens : List Token) (node : Construct) : Prop :=
  ∃ first last, (Cursor.start tokens).Reaches first ∧ node.PlacedAt first last

theorem StandsAmong.part {tokens : List Token} {node part : Construct}
    (stands : node.StandsAmong tokens) (member : part ∈ node.parts) : part.StandsAmong tokens := by
  obtain ⟨first, last, reaches, placed⟩ := stands
  cases placed with
  | mk spans solid parts later =>
    obtain ⟨first', last', reaches', placed', _⟩ := parts.exists_placedAt member
    exact ⟨first', last', reaches.trans reaches', placed'⟩

end Construct

namespace Parallel.Lays

open Construct

variable {texts : Parallel} {tokens : List Token} {size : Nat} {source : Source}
  {node part : Construct} {cursor : Cursor}

variable (lays : texts.Lays tokens size source)

include lays

theorem inOrder_relocate (reaches : (Cursor.start tokens).Reaches cursor) :
    (cursor.relocate texts.move).InOrder source := by
  have order := Cursor.inOrder_start (Token.inOrder_scan source)
  rw [← lays.start_relocate] at order
  exact order.reaches (reaches.relocate texts.move)

theorem boundary_here (reaches : (Cursor.start tokens).Reaches cursor) :
    source.IsBoundary (texts.move cursor.here) := by
  have boundary := (lays.inOrder_relocate reaches).boundary_here
  rwa [Cursor.here_relocate] at boundary

theorem boundary_start (stands : node.StandsAmong tokens) :
    source.IsBoundary (texts.move node.span.start) := by
  obtain ⟨first, last, reaches, placed⟩ := stands
  rw [placed.start_eq]
  exact lays.boundary_here reaches

theorem boundary_stop (stands : node.StandsAmong tokens) :
    source.IsBoundary (texts.move node.span.stop) := by
  obtain ⟨first, last, reaches, placed⟩ := stands
  cases placed with
  | @mk _ _ last _ spans solid parts later =>
    have stop_eq : node.span.stop = max last.behind first.here := congrArg Span.stop spans.2
    rw [stop_eq]
    rcases max_choice last.behind first.here with behind_eq | here_eq
    · rw [behind_eq]
      exact (lays.inOrder_relocate (reaches.trans spans.reaches)).boundary
    · rw [here_eq]
      exact lays.boundary_here reaches

/-- What was read can be cut out of the source. -/
theorem exists_slice? (stands : node.StandsAmong tokens) :
    ∃ text, source.slice? (relocate texts.move node.span) = some text := by
  refine Source.exists_slice?_iff.mpr ⟨?_, lays.boundary_start stands, lays.boundary_stop stands⟩
  obtain ⟨first, last, reaches, placed⟩ := stands
  cases placed with
  | mk spans solid parts later =>
    refine texts.monotone ?_
    rw [spans.2]
    exact Nat.le_max_right _ _

/-- What was read is empty in the source if it is empty among the tokens. -/
theorem start_lt_stop_iff (stands : node.StandsAmong tokens) :
    texts.move node.span.start < texts.move node.span.stop ↔ node.span.start < node.span.stop := by
  obtain ⟨first, last, reaches, placed⟩ := stands
  cases placed with
  | mk spans solid parts later =>
    have same := isEmpty_relocate (lays.tame.reaches reaches) spans
    rw [← Nat.not_le, ← Nat.not_le]
    exact not_congr (decide_eq_decide.mp same)

/-- The text from something that is there to the end of what it is a part of can be cut out. -/
theorem exists_slice?_tail (stands : node.StandsAmong tokens) (member : part ∈ node.parts)
    (solid : part.isSolid = true) :
    ∃ text, source.slice? ⟨texts.move part.span.start, texts.move node.span.stop⟩ = some text := by
  refine Source.exists_slice?_iff.mpr
    ⟨texts.monotone ?_, lays.boundary_start (stands.part member), lays.boundary_stop stands⟩
  obtain ⟨first, last, reaches, placed⟩ := stands
  obtain ⟨fake, order⟩ := lays.tame.order.reaches reaches
  cases placed with
  | mk spans _ parts later =>
    obtain ⟨first', last', reaches', placed', _⟩ := parts.exists_placedAt member
    have nonempty : part.span.start < part.span.stop := by
      cases placed' with
      | mk spans' reachesOn _ _ =>
        exact spans'.start_lt_stop (reachesOn solid) ⟨fake, order.reaches reaches'⟩
    have stop_le := (parts.bounds order member nonempty).2
    rw [spans.2]
    exact Nat.le_trans (Nat.le_of_lt nonempty) (Nat.le_trans stop_le (Nat.le_max_left _ _))

end Parallel.Lays

end JavaOutline
