import JavaOutline.Proofs.Reading.ParallelDeclarations

/-!
# Two layouts of the same tokens

Two sources have the same tokens with other space between them. To read them side by side, both are
compared with a third list of tokens, in which each token stands at the sum of its offsets in the
two sources. There tokens touch only if they touch in both sources, so either source is this list
with its offsets moved. A file is therefore read from either source as it is read from this list.
-/

namespace JavaOutline

open Relocatable (relocate)

namespace Token

/-- Whether a token is followed by the first of some tokens without a gap. -/
def touches (token : Token) (following : List Token) : Bool :=
  following.head?.any (token.span.stop = ·.span.start)

/-- Whether two lists hold the same tokens, with gaps behind the same of their `>`. -/
def SameButGaps : List Token → List Token → Prop
  | [], [] => True
  | left :: lefts, right :: rights =>
    left.kind = right.kind ∧ left.text = right.text ∧
      (left.kind = .greater → left.touches lefts = right.touches rights) ∧
      SameButGaps lefts rights
  | _, _ => False

instance decidableSameButGaps : (left right : List Token) → Decidable (SameButGaps left right)
  | [], [] => isTrue trivial
  | _ :: lefts, _ :: rights =>
    have := decidableSameButGaps lefts rights
    inferInstanceAs (Decidable (_ ∧ _ ∧ (_ → _) ∧ _))
  | [], _ :: _ | _ :: _, [] => isFalse id

/-- The tokens of two lists, each at the sum of its offsets in both. -/
def superposed : List Token → List Token → List Token
  | left :: lefts, right :: rights =>
    ⟨left.kind, left.text,
      ⟨left.span.start + right.span.start, left.span.stop + right.span.stop⟩⟩ ::
      superposed lefts rights
  | _, _ => []

/-- The offsets of the tokens of two lists, side by side. -/
def marks : List Token → List Token → List (Nat × Nat)
  | left :: lefts, right :: rights =>
    (left.span.start, right.span.start) :: (left.span.stop, right.span.stop) ::
      marks lefts rights
  | _, _ => []

theorem SameButGaps.symm {left right : List Token} (same : SameButGaps left right) :
    SameButGaps right left := by
  induction left generalizing right with
  | nil =>
      cases right with
      | nil => trivial
      | cons => exact same.elim
  | cons token tokens induction =>
      cases right with
      | nil => exact same.elim
      | cons other others =>
          obtain ⟨kind_eq, text_eq, touching, later⟩ := same
          refine ⟨kind_eq.symm, text_eq.symm, fun greater => ?_, induction later⟩
          exact (touching (kind_eq.trans greater)).symm

theorem SameButGaps.superposed_comm {left right : List Token} (same : SameButGaps left right) :
    superposed left right = superposed right left := by
  induction left generalizing right with
  | nil =>
      cases right with
      | nil => rfl
      | cons => exact same.elim
  | cons token tokens induction =>
      cases right with
      | nil => exact same.elim
      | cons other others =>
          obtain ⟨kind_eq, text_eq, _, later⟩ := same
          simp only [superposed, kind_eq, text_eq, Nat.add_comm, induction later]

/-- The offsets of tokens in order are in order in both lists. -/
theorem isChain_marks {left right : List Token} {source other : Source} {offset offset' : Nat}
    (order : InOrder source offset left) (order' : InOrder other offset' right)
    (offset_le : offset ≤ source.size) (offset_le' : offset' ≤ other.size) :
    ((offset, offset') :: (marks left right ++ [(source.size, other.size)])).IsChain (· ≤ ·) := by
  fun_induction marks left right generalizing offset offset' with
  | case1 token tokens following others induction =>
      obtain ⟨start_le, start_lt, _, boundary, later⟩ := order
      obtain ⟨start_le', start_lt', _, boundary', later'⟩ := order'
      refine .cons_cons ⟨start_le, start_le'⟩ (.cons_cons ⟨start_lt.le, start_lt'.le⟩ ?_)
      exact induction later later' boundary.le_size boundary'.le_size
  | case2 => exact .cons_cons ⟨offset_le, offset_le'⟩ (.singleton _)

/-- Some points with increasing coordinates lie on the graph of a monotone function. -/
theorem exists_monotone {points : List (Nat × Nat)}
    (increasing : ∀ p ∈ points, ∀ q ∈ points, p.1 ≤ q.1 → p.2 ≤ q.2) :
    ∃ f : Nat → Nat, Monotone f ∧ ∀ p ∈ points, f p.1 = p.2 := by
  refine ⟨fun n => (points.toFinset.filter (·.1 ≤ n)).sup Prod.snd, fun m n le => ?_,
    fun p member => ?_⟩
  · refine Finset.sup_mono (Finset.monotone_filter_right _ fun p _ below => ?_)
    exact Nat.le_trans below le
  · refine Nat.le_antisymm (Finset.sup_le fun q found => ?_) ?_
    · obtain ⟨member', le⟩ := Finset.mem_filter.mp found
      exact increasing q (List.mem_toFinset.mp member') p member le
    · exact Finset.le_sup (f := Prod.snd)
        (Finset.mem_filter.mpr ⟨List.mem_toFinset.mpr member, Nat.le_refl _⟩)

/-- A monotone function leads from the sums of offsets in two lists back to those in the first. -/
theorem exists_monotone_of_marks {points : List (Nat × Nat)} (sorted : points.Pairwise (· ≤ ·)) :
    ∃ f : Nat → Nat, Monotone f ∧ ∀ p ∈ points, f (p.1 + p.2) = p.1 := by
  have increasing : ∀ p ∈ points.map (fun p => (p.1 + p.2, p.1)),
      ∀ q ∈ points.map (fun p => (p.1 + p.2, p.1)), p.1 ≤ q.1 → p.2 ≤ q.2 := by
    intro _ found _ found' le
    obtain ⟨p, member, rfl⟩ := List.mem_map.mp found
    obtain ⟨q, member', rfl⟩ := List.mem_map.mp found'
    have comparable : points.Pairwise fun p q => p ≤ q ∨ q ≤ p := sorted.imp .inl
    have : Std.Symm fun p q : Nat × Nat => p ≤ q ∨ q ≤ p := ⟨fun _ _ => Or.symm⟩
    rcases comparable.forall_of_forall (fun p _ => .inl (le_refl p)) member member' with
      p_le | q_le
    · exact p_le.1
    · have := q_le.2
      simp only at le
      omega
  obtain ⟨f, monotone, through⟩ := exists_monotone increasing
  exact ⟨f, monotone, fun p member => through _ (List.mem_map_of_mem member)⟩

theorem relocate_superposed {left right : List Token} {f : Nat → Nat}
    (same : SameButGaps left right) (back : ∀ p ∈ marks left right, f (p.1 + p.2) = p.1) :
    relocate f (superposed left right) = left := by
  fun_induction superposed left right with
  | case1 token tokens other others induction =>
      simp only [marks, List.forall_mem_cons] at back
      obtain ⟨start_eq, stop_eq, back⟩ := back
      change ⟨token.kind, token.text, ⟨_, _⟩⟩ :: relocate f (superposed tokens others) = _
      rw [induction same.2.2.2 back, start_eq, stop_eq]
  | case2 left right mismatch =>
      cases left with
      | nil => rfl
      | cons token tokens =>
          cases right with
          | nil => exact same.elim
          | cons other others => exact (mismatch _ _ _ _ rfl rfl).elim

/-- Moving the tokens back keeps them apart, as they touch only if they touch in both lists. -/
theorem keptBy_superposed {left right : List Token} {f : Nat → Nat} {source other : Source}
    {offset offset' : Nat} (same : SameButGaps left right) (order : InOrder source offset left)
    (order' : InOrder other offset' right) (back : ∀ p ∈ marks left right, f (p.1 + p.2) = p.1) :
    KeptBy f (superposed left right) := by
  fun_induction superposed left right generalizing offset offset' with
  | case1 token tokens following others induction =>
      simp only [marks, List.forall_mem_cons] at back
      obtain ⟨start_eq, stop_eq, back⟩ := back
      obtain ⟨_, start_lt, _, _, later⟩ := order
      obtain ⟨_, _, _, _, later'⟩ := order'
      obtain ⟨_, _, touching, same⟩ := same
      refine ⟨?_, fun greater next found => ?_, induction same later later' back⟩
      · simpa only [start_eq, stop_eq] using start_lt
      · cases tokens with
        | nil => cases found
        | cons second tokens =>
            cases others with
            | nil => cases found
            | cons second' others =>
                obtain rfl := Option.some.inj found
                have touching := touching greater
                have next_eq := back _ List.mem_cons_self
                have le := later.1
                have le' := later'.1
                simp only [touches, List.head?_cons, Option.any_some, decide_eq_decide] at touching
                simp only at stop_eq next_eq ⊢
                rw [stop_eq, next_eq]
                omega
  | case2 => trivial

end Token

namespace Source

theorem byteLength_replicate_space (n : Nat) : byteLength (List.replicate n ' ') = n := by
  induction n with
  | zero => rfl
  | succ n induction =>
      rw [List.replicate_succ, byteLength, induction, Nat.add_comm]
      rfl

/-- A source of `size` bytes. -/
def ofSize (size : Nat) : Source where
  chars := List.replicate size ' '
  size := size
  size_eq := (byteLength_replicate_space size).symm

theorem isBoundary_ofSize {size offset : Nat} (le : offset ≤ size) :
    (ofSize size).IsBoundary offset := by
  refine ⟨List.replicate offset ' ', List.replicate (size - offset) ' ', ?_,
    byteLength_replicate_space offset⟩
  rw [List.replicate_append_replicate, Nat.add_sub_cancel' le]
  rfl

end Source

namespace Token

/-- Tokens at the sums of their offsets in two sources are in order. -/
theorem inOrder_superposed {left right : List Token} {source other : Source}
    {offset offset' : Nat} (order : InOrder source offset left)
    (order' : InOrder other offset' right) :
    InOrder (.ofSize (source.size + other.size)) (offset + offset') (superposed left right) := by
  fun_induction superposed left right generalizing offset offset' with
  | case1 token tokens following others induction =>
      obtain ⟨start_le, start_lt, boundary_start, boundary_stop, later⟩ := order
      obtain ⟨start_le', start_lt', boundary_start', boundary_stop', later'⟩ := order'
      refine ⟨Nat.add_le_add start_le start_le', Nat.add_lt_add start_lt start_lt',
        Source.isBoundary_ofSize ?_, Source.isBoundary_ofSize ?_, induction later later'⟩
      · exact Nat.add_le_add boundary_start.le_size boundary_start'.le_size
      · exact Nat.add_le_add boundary_stop.le_size boundary_stop'.le_size
  | case2 => trivial

end Token

namespace Cursor

/-- A place with its tokens at other offsets. -/
def relocate (f : Nat → Nat) (cursor : Cursor) : Cursor :=
  ⟨Relocatable.relocate f cursor.rest, f cursor.behind⟩

variable (f : Nat → Nat) {before after : Cursor}

theorem here_relocate (cursor : Cursor) : (cursor.relocate f).here = f cursor.here := by
  obtain ⟨rest, behind⟩ := cursor
  cases rest <;> rfl

theorem tail_relocate (cursor : Cursor) : (cursor.relocate f).tail = cursor.tail.relocate f := by
  obtain ⟨rest, behind⟩ := cursor
  cases rest <;> rfl

theorem Reaches.relocate (reaches : before.Reaches after) :
    (before.relocate f).Reaches (after.relocate f) := by
  induction reaches with
  | refl => exact .refl
  | tail _ induction =>
      rw [← tail_relocate]
      exact induction.tail

end Cursor

namespace Parallel

variable {texts : Parallel} {tokens : List Token} {size : Nat} {source : Source}

/-- Whether a source has certain tokens at other offsets, where `size` is moved to its length. -/
structure Lays (texts : Parallel) (tokens : List Token) (size : Nat) (source : Source) : Prop where
  whole : texts.old = [] ∧ texts.new = []
  tame : texts.Tame (.start tokens)
  tokens_eq : relocate texts.move tokens = Token.scan 0 source.chars
  origin : texts.move 0 = 0
  size_eq : texts.move size = source.size

theorem Lays.start_relocate (lays : texts.Lays tokens size source) :
    (Cursor.start tokens).relocate texts.move = .start (Token.scan 0 source.chars) := by
  have tokens_eq := lays.tokens_eq
  rw [← tokens_eq]
  cases tokens with
  | nil => exact congrArg (Cursor.mk []) lays.origin
  | cons token tokens => rfl

/-- A file is read from a source as it is read from the same tokens at other offsets. -/
theorem Lays.read_eq (lays : texts.Lays tokens size source) :
    CompilationUnit.read source =
      relocate texts.move (Parser.compilationUnit size (.start tokens)).1 := by
  have agree : texts.Agree False _ _ (.start tokens) :=
    agree_compilationUnit lays.whole size lays.origin
  have same := (agree lays.tame).2 _ (mirrors_relocate lays.whole _) (.inr (.inl lays.whole))
  rw [CompilationUnit.read, ← lays.size_eq, ← lays.start_relocate]
  exact same.1

/-- The tokens at the sums of their offsets in two sources are moved back to the first. -/
theorem exists_lays_superposed {left right : Source}
    (same : Token.SameButGaps (Token.scan 0 left.chars) (Token.scan 0 right.chars)) :
    ∃ texts : Parallel, texts.Lays
      (Token.superposed (Token.scan 0 left.chars) (Token.scan 0 right.chars))
      (left.size + right.size) left := by
  have order := Token.inOrder_scan left
  have order' := Token.inOrder_scan right
  have sorted := (Token.isChain_marks order order' (Nat.zero_le _) (Nat.zero_le _)).pairwise
  obtain ⟨f, monotone, back⟩ := Token.exists_monotone_of_marks sorted
  simp only [List.forall_mem_cons, List.forall_mem_append] at back
  obtain ⟨origin, back, size_eq, -⟩ := back
  have ordered := Cursor.inOrder_start (Token.inOrder_superposed order order')
  refine ⟨⟨f, monotone, [], []⟩, ⟨rfl, rfl⟩, ⟨⟨_, ordered⟩, ?_⟩, ?_, origin, size_eq⟩
  · exact Token.keptBy_superposed same order order' back
  · exact Token.relocate_superposed same back

/-- Two sources that differ in their gaps have the same tokens at offsets of their own. -/
theorem exists_lays {left right : Source}
    (same : Token.SameButGaps (Token.scan 0 left.chars) (Token.scan 0 right.chars)) :
    ∃ tokens size, ∃ texts texts' : Parallel,
      texts.Lays tokens size left ∧ texts'.Lays tokens size right := by
  obtain ⟨texts, lays⟩ := exists_lays_superposed same
  obtain ⟨texts', lays'⟩ := exists_lays_superposed same.symm
  rw [← same.superposed_comm, Nat.add_comm] at lays'
  exact ⟨_, _, texts, texts', lays, lays'⟩

end Parallel

end JavaOutline
