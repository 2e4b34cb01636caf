import JavaOutline.Proofs.Token.Order
import JavaOutline.Reading.Cursor

/-!
# Places in order

A place reaches the places that come after it, token by token. On tokens in order, later places
have later offsets, and a token that was read lies between the place before it and the place
after it.
-/

namespace JavaOutline

namespace Cursor

/-- The places that reading tokens leads to. -/
inductive Reaches (origin : Cursor) : Cursor → Prop
  | refl : Reaches origin origin
  | tail {cursor : Cursor} : Reaches origin cursor → Reaches origin cursor.tail

attribute [grind .] Reaches.refl Reaches.tail

@[grind →]
theorem Reaches.trans {before middle after : Cursor} (first : before.Reaches middle)
    (second : middle.Reaches after) : before.Reaches after := by
  induction second with
  | refl => exact first
  | tail _ induction => exact induction.tail

@[grind .]
theorem reaches_cons {token : Token} {rest : List Token} {behind : Nat} {after : Cursor}
    (reaches : Reaches ⟨rest, token.span.stop⟩ after) : Reaches ⟨token :: rest, behind⟩ after :=
  Reaches.trans (Reaches.tail .refl) reaches

/-- Whether reading a token of a kind, if one is there to be read, leads from one place to
another. -/
def Passes (kind : TokenKind) (before after : Cursor) : Prop :=
  after = before ∨ before.isAt kind ∧ after = before.tail

@[grind →]
theorem Passes.reaches {kind : TokenKind} {before after : Cursor}
    (passes : before.Passes kind after) : before.Reaches after := by
  rcases passes with rfl | ⟨_, rfl⟩
  · exact .refl
  · exact Reaches.tail .refl

/-- Whether a place stands before tokens in order, between two characters of the source. -/
structure InOrder (source : Source) (cursor : Cursor) : Prop where
  /-- The last token read ended between two characters. -/
  boundary : source.IsBoundary cursor.behind
  /-- The tokens still to be read follow in order. -/
  order : Token.InOrder source cursor.behind cursor.rest

theorem inOrder_start {source : Source} {tokens : List Token}
    (order : Token.InOrder source 0 tokens) : (start tokens).InOrder source := by
  cases tokens with
  | nil => exact ⟨source.isBoundary_zero, trivial⟩
  | cons token tokens =>
      obtain ⟨_, start_lt, boundary, later⟩ := order
      exact ⟨boundary, Nat.le_refl _, start_lt, boundary, later⟩

namespace InOrder

variable {source : Source} {before after : Cursor}

theorem behind_le_here (order : before.InOrder source) : before.behind ≤ before.here := by
  obtain ⟨rest, behind⟩ := before
  cases rest with
  | nil => exact Nat.le_refl _
  | cons token rest => exact order.order.1

theorem boundary_here (order : before.InOrder source) : source.IsBoundary before.here := by
  obtain ⟨rest, behind⟩ := before
  cases rest with
  | nil => exact order.boundary
  | cons token rest => exact order.order.2.2.1

theorem tail (order : before.InOrder source) : before.tail.InOrder source := by
  obtain ⟨rest, behind⟩ := before
  cases rest with
  | nil => exact order
  | cons token rest => exact ⟨order.order.2.2.2.1, order.order.2.2.2.2⟩

theorem here_lt_behind_tail (order : before.InOrder source) (more : before.rest ≠ []) :
    before.here < before.tail.behind := by
  obtain ⟨rest, behind⟩ := before
  cases rest with
  | nil => exact (more rfl).elim
  | cons token rest => exact order.order.2.1

theorem behind_le_behind_tail (order : before.InOrder source) :
    before.behind ≤ before.tail.behind := by
  obtain ⟨rest, behind⟩ := before
  cases rest with
  | nil => exact Nat.le_refl _
  | cons token rest =>
      obtain ⟨start_le, start_lt, _⟩ := order.order
      exact Nat.le_trans start_le (Nat.le_of_lt start_lt)

theorem here_le_here_tail (order : before.InOrder source) : before.here ≤ before.tail.here := by
  by_cases more : before.rest = []
  · have tail_eq : before.tail = before := by
      rw [Cursor.tail, more]
    exact Nat.le_of_eq (by rw [tail_eq])
  · have := order.here_lt_behind_tail more
    have := order.tail.behind_le_here
    omega

theorem reaches (order : before.InOrder source) (reaches : before.Reaches after) :
    after.InOrder source := by
  induction reaches with
  | refl => exact order
  | tail _ induction => exact induction.tail

theorem behind_le (order : before.InOrder source) (reaches : before.Reaches after) :
    before.behind ≤ after.behind := by
  induction reaches with
  | refl => exact Nat.le_refl _
  | tail reaches induction =>
      exact Nat.le_trans induction (order.reaches reaches).behind_le_behind_tail

theorem here_le (order : before.InOrder source) (reaches : before.Reaches after) :
    before.here ≤ after.here := by
  induction reaches with
  | refl => exact Nat.le_refl _
  | tail reaches induction =>
      exact Nat.le_trans induction (order.reaches reaches).here_le_here_tail

/-- A token that was to be read was read, between the two places, or is still to be read. -/
theorem mem_rest (order : before.InOrder source) (reaches : before.Reaches after) {token : Token}
    (member : token ∈ before.rest) :
    token ∈ after.rest ∨ before.here ≤ token.span.start ∧ token.span.stop ≤ after.behind := by
  induction reaches with
  | refl => exact .inl member
  | @tail cursor reaches induction =>
      have here_le := order.here_le reaches
      have behind_le := (order.reaches reaches).behind_le_behind_tail
      obtain ⟨rest, behind⟩ := cursor
      cases rest with
      | nil => exact induction
      | cons first rest =>
          rcases induction with later | ⟨start_le, le_behind⟩
          · cases later with
            | head => exact .inr ⟨here_le, Nat.le_refl _⟩
            | tail _ later => exact .inl later
          · exact .inr ⟨start_le, Nat.le_trans le_behind behind_le⟩

end InOrder

end Cursor

end JavaOutline
