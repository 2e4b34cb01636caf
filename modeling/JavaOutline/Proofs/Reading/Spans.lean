import JavaOutline.Proofs.Reading.PlacedDeclarations

/-!
# Spans are sound

Every construct of a file that was read stands on whole characters of the text. Unless its span is
empty, it begins with a token and ends with a token, it lies inside the construct around it, and
the constructs next to it lie before or after it.
-/

namespace JavaOutline

namespace Cursor

theorem Reaches.suffix {before after : Cursor} (reaches : before.Reaches after) :
    after.rest <:+ before.rest := by
  induction reaches with
  | refl => exact List.suffix_refl _
  | @tail cursor _ induction =>
      obtain ⟨rest, behind⟩ := cursor
      cases rest with
      | nil => exact induction
      | cons token rest => exact (List.suffix_cons token rest).trans induction

/-- A place where tokens were read stands at the end of one of them. -/
theorem Reaches.behind_eq {before after : Cursor} (reaches : before.Reaches after) :
    after.behind = before.behind ∨ ∃ token ∈ before.rest, token.span.stop = after.behind := by
  induction reaches with
  | refl => exact .inl rfl
  | @tail cursor reaches induction =>
      obtain ⟨rest, behind⟩ := cursor
      cases rest with
      | nil => exact induction
      | cons token rest => exact .inr ⟨token, reaches.suffix.mem List.mem_cons_self, rfl⟩

theorem Spans.exists_last_token {source : Source} {before after : Cursor} {span : Span}
    (spans : before.Spans span after) (order : before.InOrder source)
    (nonempty : span.start < span.stop) : ∃ token ∈ before.rest, token.span.stop = span.stop := by
  obtain ⟨start_eq, stop_eq⟩ := spans.bounds nonempty
  have behind_le := order.behind_le_here
  rcases spans.reaches.behind_eq with unread | ⟨token, member, last_eq⟩
  · omega
  · exact ⟨token, member, last_eq.trans stop_eq.symm⟩

end Cursor

namespace Construct

/-- Whether the span of a construct, its relation to the tokens of the source and to the parts of
the construct are as they should be. -/
structure SoundIn (source : Source) (node : Construct) : Prop where
  start_le_stop : node.span.start ≤ node.span.stop
  stop_le_size : node.span.stop ≤ source.size
  boundary_start : source.IsBoundary node.span.start
  boundary_stop : source.IsBoundary node.span.stop
  /-- A span that is not empty begins with a token. -/
  first_token : node.span.start < node.span.stop →
    ∃ token ∈ Token.scan 0 source.chars, token.span.start = node.span.start
  /-- A span that is not empty ends with a token. -/
  last_token : node.span.start < node.span.stop →
    ∃ token ∈ Token.scan 0 source.chars, token.span.stop = node.span.stop
  /-- The parts, unless they are empty, lie inside. -/
  parts_inside : ∀ part ∈ node.parts, part.span.start < part.span.stop →
    node.span.start ≤ part.span.start ∧ part.span.stop ≤ node.span.stop
  /-- The parts, unless they are empty, follow one another. -/
  parts_ordered : node.parts.Pairwise fun left right => left.span.start < left.span.stop →
    right.span.start < right.span.stop → left.span.stop ≤ right.span.start

section Placed

variable {source : Source} {node : Construct} {nodes : List Construct} {before after : Cursor}

theorem AllPlaced.exists_placedAt (placed : AllPlaced nodes before after) (member : node ∈ nodes) :
    ∃ first last, before.Reaches first ∧ node.PlacedAt first last ∧ last.Reaches after := by
  induction nodes generalizing before with
  | nil => cases member
  | cons other nodes induction =>
      cases placed with
      | cons reaches placed later =>
        cases member with
        | head => exact ⟨_, _, reaches, placed, later.reaches⟩
        | tail _ member =>
            obtain ⟨first, last, toFirst, found, toAfter⟩ := induction later member
            exact ⟨first, last, reaches.trans (placed.reaches.trans toFirst), found, toAfter⟩

/-- A span that is not empty lies between the places around it. -/
theorem PlacedAt.bounds (placed : node.PlacedAt before after) (order : before.InOrder source)
    (nonempty : node.span.start < node.span.stop) :
    before.here ≤ node.span.start ∧ node.span.stop ≤ after.behind := by
  cases placed with
  | mk spans solid parts later =>
    obtain ⟨start_eq, stop_eq⟩ := spans.bounds nonempty
    rw [start_eq, stop_eq]
    exact ⟨Nat.le_refl _, (order.reaches spans.reaches).behind_le later⟩

theorem AllPlaced.bounds (placed : AllPlaced nodes before after) (order : before.InOrder source)
    (member : node ∈ nodes) (nonempty : node.span.start < node.span.stop) :
    before.here ≤ node.span.start ∧ node.span.stop ≤ after.behind := by
  obtain ⟨first, last, toFirst, found, toAfter⟩ := placed.exists_placedAt member
  have inside := order.reaches toFirst
  obtain ⟨start_ge, stop_le⟩ := found.bounds inside nonempty
  have here_le := order.here_le toFirst
  have behind_le := (inside.reaches found.reaches).behind_le toAfter
  exact ⟨Nat.le_trans here_le start_ge, Nat.le_trans stop_le behind_le⟩

theorem AllPlaced.pairwise (placed : AllPlaced nodes before after) (order : before.InOrder source) :
    nodes.Pairwise fun left right => left.span.start < left.span.stop →
      right.span.start < right.span.stop → left.span.stop ≤ right.span.start := by
  induction nodes generalizing before with
  | nil => exact .nil
  | cons node nodes induction =>
      cases placed with
      | @cons _ _ _ first middle _ reaches placed later =>
        have inside := order.reaches reaches
        have order_middle := inside.reaches placed.reaches
        refine .cons (fun right member nonempty nonempty' => ?_) (induction later order_middle)
        have stop_le := (placed.bounds inside nonempty).2
        have start_ge := (later.bounds order_middle member nonempty').1
        have behind_le := order_middle.behind_le_here
        omega

/-- What is placed among the tokens of a source is sound. -/
theorem PlacedAt.soundIn {first : Cursor} (placed : node.PlacedAt first after)
    (reaches : (Cursor.start (Token.scan 0 source.chars)).Reaches first) :
    node.SoundIn source := by
  have order : first.InOrder source :=
    (Cursor.inOrder_start (Token.inOrder_scan source)).reaches reaches
  cases placed with
  | @mk _ _ last _ spans solid parts later =>
    have order_last := order.reaches spans.reaches
    have span_eq := spans.2
    have boundary_start : source.IsBoundary node.span.start := by
      rw [span_eq]
      exact order.boundary_here
    have boundary_stop : source.IsBoundary node.span.stop := by
      rw [span_eq, Cursor.spanFrom]
      rcases Nat.le_total last.behind first.here with le | le
      · rw [Nat.max_eq_right le]
        exact order.boundary_here
      · rw [Nat.max_eq_left le]
        exact order_last.boundary
    refine
      { start_le_stop := ?_
        stop_le_size := boundary_stop.le_size
        boundary_start
        boundary_stop
        first_token := fun nonempty => ?_
        last_token := fun nonempty => ?_
        parts_inside := fun part member nonempty => ?_
        parts_ordered := parts.pairwise order }
    · rw [span_eq]
      exact Nat.le_max_right _ _
    · obtain ⟨token, member, _⟩ := spans.exists_last_token order nonempty
      obtain ⟨rest, behind⟩ := first
      cases rest with
      | nil => cases member
      | cons head rest =>
          exact ⟨head, reaches.suffix.mem List.mem_cons_self, (spans.bounds nonempty).1.symm⟩
    · obtain ⟨token, member, stop_eq⟩ := spans.exists_last_token order nonempty
      exact ⟨token, reaches.suffix.mem member, stop_eq⟩
    · have inside := parts.bounds order member nonempty
      rw [span_eq]
      exact ⟨inside.1, Nat.le_trans inside.2 (Nat.le_max_left _ _)⟩

end Placed

end Construct

/-- The constructs of a file: its types, and the parts of its constructs. -/
inductive CompilationUnit.Holds (unit : CompilationUnit) : Construct → Prop
  | type {decl : TypeDecl} (member : decl ∈ unit.types) : Holds unit (.type decl)
  | part {node part : Construct} (held : Holds unit node) (member : part ∈ node.parts) :
      Holds unit part

open Construct

theorem CompilationUnit.allPlaced_types (source : Source) :
    (CompilationUnit.read source).span = ⟨0, source.size⟩ ∧
      ∃ after, AllPlaced ((CompilationUnit.read source).types.map .type)
        (.start (Token.scan 0 source.chars)) after := by
  have order : (Cursor.start (Token.scan 0 source.chars)).InOrder source :=
    Cursor.inOrder_start (Token.inOrder_scan source)
  have placed := Parser.triple_iff.mp
    (Parser.placed_compilationUnit source.size _ ⟨source, order⟩) _ rfl
  exact ⟨placed.1, _, placed.2⟩

theorem CompilationUnit.Holds.exists_placedAt {source : Source} {node : Construct}
    (held : (CompilationUnit.read source).Holds node) :
    ∃ first last, (Cursor.start (Token.scan 0 source.chars)).Reaches first ∧
      node.PlacedAt first last := by
  induction held with
  | type member =>
      obtain ⟨_, after, placed⟩ := CompilationUnit.allPlaced_types source
      obtain ⟨first, last, toFirst, found, _⟩ :=
        placed.exists_placedAt (List.mem_map_of_mem member)
      exact ⟨first, last, toFirst, found⟩
  | part _ member induction =>
      obtain ⟨first, last, toFirst, placed⟩ := induction
      cases placed with
      | mk spans solid parts later =>
        obtain ⟨first', last', toFirst', found, _⟩ := parts.exists_placedAt member
        exact ⟨first', last', toFirst.trans toFirst', found⟩

/-- The spans of a file are sound: so is every construct of it, its types stand in the span of the
whole text, and they follow one another. -/
theorem CompilationUnit.read_sound_spans (source : Source) :
    (∀ node, (CompilationUnit.read source).Holds node → node.SoundIn source) ∧
      (CompilationUnit.read source).span = ⟨0, source.size⟩ ∧
      (CompilationUnit.read source).types.Pairwise fun left right =>
        left.header.span.start < left.header.span.stop →
          right.header.span.start < right.header.span.stop →
            left.header.span.stop ≤ right.header.span.start := by
  obtain ⟨span_eq, after, placed⟩ := CompilationUnit.allPlaced_types source
  refine ⟨fun node held => ?_, span_eq, ?_⟩
  · obtain ⟨first, last, reaches, placed⟩ := held.exists_placedAt
    exact placed.soundIn reaches
  · have pairwise := placed.pairwise (Cursor.inOrder_start (Token.inOrder_scan source))
    exact List.pairwise_map.mp pairwise

/-- A file with two fields. -/
def fieldsSource : Source := .ofString "class A\x7bint x;A y;\x7d"

/-- The type of `fieldsSource`. -/
def fieldsType : TypeDecl :=
  ⟨⟨⟨0, 19⟩, .classType, ⟨"A", ⟨6, 7⟩⟩⟩,
    [.field ⟨⟨8, 14⟩, ⟨"int", ⟨8, 11⟩⟩, "x"⟩, .field ⟨⟨14, 18⟩, ⟨"A", ⟨14, 15⟩⟩, "y"⟩]⟩

theorem types_fieldsSource : (CompilationUnit.read fieldsSource).types = [fieldsType] := by
  cbv

theorem soundIn_fieldsType : (Construct.type fieldsType).SoundIn fieldsSource := by
  have member : fieldsType ∈ (CompilationUnit.read fieldsSource).types := by
    rw [types_fieldsSource]
    exact List.mem_singleton_self fieldsType
  exact (CompilationUnit.read_sound_spans fieldsSource).1 _ (.type member)

end JavaOutline
