import JavaOutline.Proofs.Reading.Filled
import JavaOutline.Proofs.Source.Slice

/-!
# What is inside the body of a method

Everything inside a body that was read stands on whole characters of the source, can be cut out of
it, and holds at least one token, unless it stands for something that is not there. Only the block
of a `try` or of a `finally` clause may then be empty, where the tokens of the file end.
-/

namespace JavaOutline

namespace Construct

/-- Whether a construct is another one, or is inside it. -/
inductive Contains (outer : Construct) : Construct → Prop
  | self : Contains outer outer
  | part {node part : Construct} (inside : Contains outer node) (member : part ∈ node.parts) :
      Contains outer part

/-- Whether a construct is sound, and is not empty if it is there. -/
structure Firm (source : Source) (node : Construct) : Prop extends node.SoundIn source where
  start_lt_stop : node.isSolid = true → node.span.start < node.span.stop

variable {source : Source} {outer node : Construct} {before first last : Cursor}

theorem Contains.exists_placedAt (inside : outer.Contains node)
    (placed : outer.PlacedAt first last) :
    ∃ first' last', first.Reaches first' ∧ node.PlacedAt first' last' := by
  induction inside with
  | self => exact ⟨first, last, .refl, placed⟩
  | part _ member induction =>
      obtain ⟨first', last', reaches, placed⟩ := induction
      cases placed with
      | mk spans solid parts later =>
        obtain ⟨_, _, reaches', placed', _⟩ := parts.exists_placedAt member
        exact ⟨_, _, reaches.trans reaches', placed'⟩

theorem PlacedAt.firm (placed : node.PlacedAt first last)
    (reaches : (Cursor.start (Token.scan 0 source.chars)).Reaches first) : node.Firm source := by
  refine ⟨placed.soundIn reaches, fun solid => ?_⟩
  have order := (Cursor.inOrder_start (Token.inOrder_scan source)).reaches reaches
  cases placed with
  | mk spans reachesOn parts later => exact spans.start_lt_stop (reachesOn solid) ⟨source, order⟩

/-- What is sound can be cut out of the source. -/
theorem SoundIn.exists_slice? (sound : node.SoundIn source) :
    ∃ text, source.slice? node.span = some text :=
  Source.exists_slice?_iff.mpr ⟨sound.start_le_stop, sound.boundary_start, sound.boundary_stop⟩

end Construct

/-- Whether a block is missing where the tokens of a source end. -/
def Block.MissingAtEnd (source : Source) (block : Block) : Prop :=
  ∃ last, (Token.scan 0 source.chars).getLast? = some last ∧
    block = .mk (.point last.span.stop) []

/-- What is known of the body of a method of a source. -/
structure Block.StandsIn (source : Source) (last : Token) (body : Block) : Prop where
  /-- What is inside the body is sound. -/
  firm : ∀ node, (Construct.block body).Contains node → node.Firm source
  /-- The tokens of the source have an end. -/
  ended : (Token.scan 0 source.chars).getLast? = some last
  /-- What is inside the body is not empty, unless the tokens end there. -/
  filled : body.Filled last.span.stop

namespace Method.ReadAfter

variable {origin : Cursor} {method : Method} {body : Block}

/-- The body of a method was read at its opening brace. -/
theorem exists_readFrom (read : method.ReadAfter origin) (has_body : method.body = some body) :
    ∃ first last, origin.Reaches first ∧ body.ReadFrom first last := by
  obtain ⟨before, after, reaches, laidOut⟩ := read
  obtain ⟨first, last, reaches', read, _⟩ := laidOut.read body has_body
  exact ⟨first, last, reaches.trans reaches', read⟩

theorem exists_placedAt (read : method.ReadAfter origin) (order : origin.IsOrdered)
    (has_body : method.body = some body) :
    ∃ first last, origin.Reaches first ∧ (Construct.block body).PlacedAt first last := by
  obtain ⟨first, last, reaches, _, read⟩ := read.exists_readFrom has_body
  have placed := Parser.triple_iff.mp (Parser.placed_block first (order.reaches reaches)) first rfl
  rw [read] at placed
  obtain ⟨_, _, reaches', placed, _⟩ := placed.exists_placedAt List.mem_cons_self
  exact ⟨_, _, reaches.trans reaches', placed⟩

theorem filled (read : method.ReadAfter origin) (order : origin.IsOrdered)
    (has_body : method.body = some body) : body.Filled origin.finish := by
  obtain ⟨first, last, reaches, _, read⟩ := read.exists_readFrom has_body
  have filled := Parser.filled_block (order.reaches reaches)
  rwa [read, reaches.finish_eq] at filled

end Method.ReadAfter

namespace CompilationUnit

variable {source : Source} {name : String} {method : Method} {body : Block}

theorem firm_of_contains (found : (CompilationUnit.read source).findMethod? name = some method)
    (has_body : method.body = some body) {node : Construct}
    (inside : (Construct.block body).Contains node) : node.Firm source := by
  have order := Cursor.inOrder_start (Token.inOrder_scan source)
  have read := CompilationUnit.readAfter_of_findMethod? found
  obtain ⟨_, _, reaches, placed⟩ := read.exists_placedAt ⟨source, order⟩ has_body
  obtain ⟨_, _, reaches', placed⟩ := inside.exists_placedAt placed
  exact placed.firm (reaches.trans reaches')

theorem filled_body (found : (CompilationUnit.read source).findMethod? name = some method)
    (has_body : method.body = some body) :
    ∃ last, (Token.scan 0 source.chars).getLast? = some last ∧ body.Filled last.span.stop := by
  have order := Cursor.inOrder_start (Token.inOrder_scan source)
  have read := CompilationUnit.readAfter_of_findMethod? found
  have filled := read.filled ⟨source, order⟩ has_body
  obtain ⟨first, after, reaches, opened, _⟩ := read.exists_readFrom has_body
  cases ended : (Token.scan 0 source.chars).getLast? with
  | none =>
      have rest_eq : first.rest = [] := by
        have suffix := reaches.suffix
        rw [Cursor.start, List.getLast?_eq_none_iff.mp ended] at suffix
        exact List.suffix_nil.mp suffix
      rw [Cursor.isAt, rest_eq] at opened
      cases opened
  | some last =>
      refine ⟨last, rfl, ?_⟩
      simp only [Cursor.finish, Cursor.start, ended] at filled
      exact filled

theorem standsIn_body (found : (CompilationUnit.read source).findMethod? name = some method)
    (has_body : method.body = some body) : ∃ last, body.StandsIn source last := by
  obtain ⟨last, ended, filled⟩ := filled_body found has_body
  exact ⟨last, fun _ inside => firm_of_contains found has_body inside, ended, filled⟩

end CompilationUnit

end JavaOutline
