import Mathlib
import JavaOutline.Proofs.Reading.Methods
import JavaOutline.Proofs.Reading.Offsets
import JavaOutline.Proofs.Token.Restart

/-!
# Bodies read alone

The body of a method is read alone as it is read in its file: cut out of the file and read as a
block that begins where it stands, it gives the same statements and the same spans. Annotations are
the exception. The arguments of one may run on after the brace that closes the body, and what is
tried out and given up behind them depends on what stands there.
-/

set_option mvcgen.warning false

open Std.Do

namespace JavaOutline

open Relocatable (relocate)

namespace Cursor

variable {origin before after first second : Cursor}

/-- Of two places after a third one comes after the other. -/
theorem Reaches.total (reaches : origin.Reaches first) (reaches' : origin.Reaches second) :
    first.Reaches second ∨ second.Reaches first := by
  induction reaches with
  | refl => exact .inl reaches'
  | tail _ induction =>
      rcases induction with later | earlier
      · rcases later.eq_or_tail with rfl | later
        · exact .inr (.tail .refl)
        · exact .inl later
      · exact .inr earlier.tail

/-- A place with as many tokens left is the same place. -/
theorem Reaches.eq_of_length_le (reaches : before.Reaches after)
    (long : before.rest.length ≤ after.rest.length) : after = before := by
  rcases reaches.eq_or_tail with same | later
  · exact same
  · obtain ⟨rest, behind⟩ := before
    cases rest with
    | nil => exact later.eq_of_nil rfl
    | cons token rest =>
        have shorter := later.length_le
        exact absurd (Nat.le_trans long shorter) (Nat.not_succ_le_self _)

/-- A place is known by the place after it, if tokens are left there. -/
theorem Reaches.eq_of_tail_eq (reaches : origin.Reaches first) (reaches' : origin.Reaches second)
    (more : first.tail.rest ≠ []) (tail_eq : second.tail = first.tail) : first = second := by
  have length_tail (cursor : Cursor) (more : cursor.tail.rest ≠ []) :
      cursor.rest.length = cursor.tail.rest.length + 1 := by
    obtain ⟨rest, behind⟩ := cursor
    cases rest with
    | nil => exact absurd rfl more
    | cons token rest => rfl
  have length_eq : first.rest.length = second.rest.length := by
    rw [length_tail first more, length_tail second (by rwa [tail_eq]), tail_eq]
  rcases reaches.total reaches' with later | earlier
  · exact (later.eq_of_length_le (Nat.le_of_eq length_eq)).symm
  · exact earlier.eq_of_length_le (Nat.le_of_eq length_eq.symm)

/-- What was read between two places, if anything, ends with the last token before the second. -/
theorem Reaches.exists_window (reaches : before.Reaches after) :
    after = before ∨ ∃ window last, before.rest = window ++ last :: after.rest ∧
      after.behind = last.span.stop := by
  induction reaches with
  | refl => exact .inl rfl
  | @tail cursor reaches induction =>
      obtain ⟨window, window_eq⟩ := reaches.suffix
      obtain ⟨rest, behind⟩ := cursor
      cases rest with
      | nil => exact induction
      | cons token rest => exact .inr ⟨window, token, window_eq.symm, rfl⟩

/-- Every place after another is found some tokens further on. -/
theorem Reaches.exists_advance (reaches : origin.Reaches after) :
    ∃ n ≤ origin.rest.length, after = (Parser.advance n origin).2 := by
  obtain ⟨rest, behind⟩ := origin
  induction rest generalizing behind with
  | nil => exact ⟨0, Nat.le_refl _, reaches.eq_of_nil rfl⟩
  | cons token rest induction =>
      rcases reaches.eq_or_tail with rfl | later
      · exact ⟨0, Nat.zero_le _, rfl⟩
      · obtain ⟨n, enough, after_eq⟩ := induction _ later
        exact ⟨n + 1, Nat.succ_le_succ enough, after_eq⟩

theorem exists_rest_of_isAt {kind : TokenKind} (found : before.isAt kind) :
    ∃ token, before.rest = token :: before.tail.rest ∧ token.kind = kind ∧
      before.tail.behind = token.span.stop := by
  obtain ⟨rest, behind⟩ := before
  cases rest with
  | nil => cases found
  | cons token rest => exact ⟨token, rfl, of_decide_eq_true found, rfl⟩

/-- Whether the last token read between two places, if there is one, is no closing brace, or the
text ends after it. -/
def EndsOpen (before after : Cursor) : Prop :=
  after = before ∨ after.rest = [] ∨
    ∃ last, before.Reaches last ∧ ¬last.isAt .closeBrace ∧ after = last.tail

theorem EndsOpen.trans (first : origin.EndsOpen before) (reaches : origin.Reaches before)
    (second : before.EndsOpen after) : origin.EndsOpen after := by
  rcases second with rfl | ended | ⟨last, later, open_, rfl⟩
  · exact first
  · exact .inr (.inl ended)
  · exact .inr (.inr ⟨last, reaches.trans later, open_, rfl⟩)

theorem endsOpen_tail (open_ : ¬before.isAt .closeBrace) : before.EndsOpen before.tail :=
  .inr (.inr ⟨before, .refl, open_, rfl⟩)

/-- Text in brackets ends with the one that closes it, or with the text. -/
theorem closes_afterBalanced (opening closing : TokenKind) (depth behind : Nat)
    (rest : List Token) :
    (afterBalanced opening closing (depth + 1) behind rest).rest = [] ∨
      ∃ last, Reaches ⟨rest, behind⟩ last ∧ last.isAt closing ∧
        afterBalanced opening closing (depth + 1) behind rest = last.tail := by
  induction rest generalizing depth behind with
  | nil => exact .inl rfl
  | cons token rest induction =>
      have later (depth : Nat) :
          (afterBalanced opening closing (depth + 1) token.span.stop rest).rest = [] ∨
            ∃ last, Reaches ⟨token :: rest, behind⟩ last ∧ last.isAt closing ∧
              afterBalanced opening closing (depth + 1) token.span.stop rest = last.tail :=
        (induction depth token.span.stop).imp_right fun ⟨last, reaches, closed⟩ =>
          ⟨last, reaches_cons reaches, closed⟩
      rw [afterBalanced]
      split_ifs with opens closes
      · exact later _
      · cases depth with
        | zero => exact .inr ⟨_, .refl, by simpa [isAt] using closes, by rw [afterBalanced, tail]⟩
        | succ depth => exact later _
      · exact later _

theorem endsOpen_afterDotted (behind : Nat) (rest : List Token) :
    EndsOpen ⟨rest, behind⟩ (afterDotted behind rest).2 := by
  fun_induction afterDotted behind rest with
  | case1 behind dot word rest found words cursor later induction =>
      have named : word.kind = .word := of_decide_eq_true (Bool.and_eq_true_iff.mp found).2
      have reads : Reaches ⟨dot :: word :: rest, behind⟩ ⟨rest, word.span.stop⟩ :=
        .tail (.tail .refl)
      rw [later] at induction
      refine EndsOpen.trans (.inr (.inr ⟨_, .tail .refl, ?_, rfl⟩)) reads induction
      simp [isAt, tail, named]
  | case2 | case3 => exact .inl rfl

end Cursor

namespace Parser

open Parallel (not_isAt_closeBrace_of_isAt)

theorem endsOpen_qualifiedName {cursor : Cursor} (found : cursor.isAt .word) :
    cursor.EndsOpen (qualifiedName cursor).2 := by
  have name_eq : (qualifiedName cursor).2 =
      (Cursor.afterDotted cursor.tail.behind cursor.tail.rest).2 := by
    unfold qualifiedName
    change ((if cursor.isAt .word then _ else _ : Parser _) cursor).2 = _
    rw [if_pos found]
    rfl
  rw [name_eq]
  exact (Cursor.endsOpen_tail (not_isAt_closeBrace_of_isAt found (by decide))).trans (.tail .refl)
    (Cursor.endsOpen_afterDotted _ _)

theorem endsOpen_skipParens (cursor : Cursor) : cursor.EndsOpen (skipParens cursor).2 := by
  unfold skipParens skipBalanced
  split
  · next found =>
      refine .inr ?_
      rcases Cursor.closes_afterBalanced .openParen .closeParen 0 cursor.tail.behind
        cursor.tail.rest with ended | ⟨last, reaches, closed, after_eq⟩
      · exact .inl ended
      · exact .inr ⟨last, Cursor.Reaches.trans (.tail .refl) reaches,
          not_isAt_closeBrace_of_isAt closed (by decide), after_eq⟩
  · exact .inl rfl

/-- An annotation ends with a name or a parenthesis, or with the text. -/
theorem endsOpen_skipAnnotation (cursor : Cursor) : cursor.EndsOpen ( skipAnnotation cursor).2 := by
  have marked : cursor.EndsOpen (accept .atSign cursor).2 := by
    rcases passes_accept .atSign cursor with unread | ⟨found, read⟩
    · exact .inl unread
    · rw [read]
      exact Cursor.endsOpen_tail (not_isAt_closeBrace_of_isAt found (by decide))
  have reaches := reaches_accept .atSign cursor
  generalize marked_eq : (accept .atSign cursor).2 = named at marked reaches
  by_cases found : named.isAt .word
  · have annotation_eq : ( skipAnnotation cursor).2 = (skipParens (qualifiedName named).2).2 := by
      unfold skipAnnotation
      change ((if (accept .atSign cursor).2.isAt .word then _ else _ : Parser _)
        (accept .atSign cursor).2).2 = _
      rw [marked_eq, if_pos found]
      rfl
    have reaches' : cursor.Reaches (qualifiedName named).2 :=
      triple_iff.mp (onward_qualifiedName cursor) named reaches
    rw [annotation_eq]
    exact (marked.trans reaches (endsOpen_qualifiedName found)).trans reaches'
      (endsOpen_skipParens _)
  · have annotation_eq : ( skipAnnotation cursor).2 = (skipParens named).2 := by
      unfold skipAnnotation
      change ((if (accept .atSign cursor).2.isAt .word then _ else _ : Parser _)
        (accept .atSign cursor).2).2 = _
      rw [marked_eq, if_neg found]
    rw [annotation_eq]
    exact marked.trans reaches (endsOpen_skipParens _)

/-! ## Blocks -/

/-- A block that begins with its brace is read in the same way whatever stands before it. -/
theorem block_eq_of_openBrace {token : Token} (opens : token.kind = .openBrace)
    (rest : List Token) (behind behind' : Nat) :
    block ⟨token :: rest, behind⟩ = block ⟨token :: rest, behind'⟩ := by
  have opened (behind : Nat) : accept .openBrace ⟨token :: rest, behind⟩ =
      (true, ⟨rest, token.span.stop⟩) := by
    simp [accept, Cursor.isAt, Cursor.tail, opens]
  rw [block, block, blockWith_apply, blockWith_apply, statementsWith_apply, statementsWith_apply,
    opened, opened]
  rfl

/-- A block ends with a closing brace or with the text. -/
theorem block_ends {before : Cursor} (order : before.IsOrdered) :
    (block before).2.rest = [] ∨ ∃ last, before.Reaches last ∧
      (statementsWith (stmtUpTo (before.rest.length + 1)) before).2 = last ∧
        last.isAt .closeBrace ∧ (block before).2 = last.tail := by
  obtain ⟨reaches, ends⟩ :=
    ends_statementsWith order fun cursor _ => reads_stmtUpTo before.rest.length cursor
  rw [block, blockWith_apply]
  generalize (statementsWith (stmtUpTo (before.rest.length + 1)) before).2 = last at reaches ends
  by_cases closes : last.isAt .closeBrace
  · exact .inr ⟨last, reaches, rfl, closes, by rw [accept, if_pos closes]⟩
  · left
    rw [accept, if_neg closes]
    exact List.isEmpty_iff.mp (ends.resolve_right closes)

/-- A block ends with its last token, which is a closing brace unless the text ends with it. -/
theorem block_window {before : Cursor} (order : before.IsOrdered) (more : before.rest ≠ []) :
    ∃ window last, before.rest = window ++ last :: (block before).2.rest ∧
      (block before).2.behind = last.span.stop ∧
        (last.kind = .closeBrace ∨ (block before).2.rest = []) := by
  rcases block_ends order with ended | ⟨last, reaches, -, closes, after_eq⟩
  · rcases (laidOut_block before).reaches.exists_window with unread | ⟨window, last, read⟩
    · rw [unread] at ended
      exact absurd ended more
    · exact ⟨window, last, read.1, read.2, .inr ended⟩
  · obtain ⟨brace, rest_eq, kind_eq, stop_eq⟩ := Cursor.exists_rest_of_isAt closes
    obtain ⟨window, window_eq⟩ := reaches.suffix
    rw [after_eq, ← window_eq, rest_eq]
    exact ⟨window, brace, rfl, stop_eq, .inl kind_eq⟩

end Parser

namespace Parallel

open JavaOutline.Parser

variable {cursor other : Cursor}

/-- A span up to a closing brace is the same in a part of a text. -/
theorem Mirrors.spanFrom_accept_closeBrace {old : List Token} {start start' : Nat}
    (mirrors : (cut old).Mirrors cursor other) (closes : cursor.isAt .closeBrace)
    (start_eq : start' = start) :
    (accept .closeBrace other).2.spanFrom start' =
      (accept .closeBrace cursor).2.spanFrom start := by
  have closes' : other.isAt .closeBrace := mirrors.shows.isAt_eq .closeBrace ▸ closes
  obtain ⟨brace, rest_eq, -, stop_eq⟩ := Cursor.exists_rest_of_isAt closes
  obtain ⟨more, other_eq⟩ := mirrors.shows.rest_cons rest_eq
  obtain ⟨brace', rest_eq', -, stop_eq'⟩ := Cursor.exists_rest_of_isAt closes'
  obtain ⟨rfl, -⟩ := List.cons.inj (rest_eq'.symm.trans other_eq)
  rw [accept, accept, if_pos closes, if_pos closes', Cursor.spanFrom, Cursor.spanFrom, stop_eq,
    stop_eq', start_eq]
  rfl

theorem keptBy_id {source : Source} {start : Nat} {tokens : List Token}
    (order : Token.InOrder source start tokens) : Token.KeptBy id tokens :=
  keptBy_add 0 order

/-- Moving nothing changes nothing in a block that was read. -/
theorem relocate_id_block (order : cursor.IsOrdered) :
    relocate id (block cursor).1 = (block cursor).1 := by
  have tame : (cut []).Tame cursor := ⟨order, keptBy_id order.choose_spec.order⟩
  have mirrors : (cut []).Mirrors cursor cursor := by
    have rest_eq : relocate id cursor.rest = cursor.rest := List.map_id _
    have mirrors : (cut []).Mirrors cursor ⟨relocate id cursor.rest, cursor.behind⟩ :=
      mirrors_relocate ⟨rfl, rfl⟩ cursor
    rwa [rest_eq] at mirrors
  exact ((agree_block (.inl ⟨rfl, rfl⟩) tame).2 _ mirrors (.inr (.inl ⟨rfl, rfl⟩))).1.symm

/-- A block is read from the part of a text that ends with it as from the whole text. -/
theorem block_cut (order : cursor.IsOrdered)
    (mirrors : (cut (block cursor).2.rest).Mirrors cursor other) :
    (block other).1 = (block cursor).1 := by
  have fixed := relocate_id_block order
  generalize rest_eq : (block cursor).2.rest = old at mirrors
  have tame : (cut old).Tame cursor := ⟨order, keptBy_id order.choose_spec.order⟩
  rcases block_ends order with ended | ⟨last, reaches, last_eq, closes, after_eq⟩
  · have inside : (cut old).Inside (block cursor).2 := .inl ⟨rest_eq.symm.trans ended, rfl⟩
    exact ((agree_block (.inr ⟨old, rfl⟩) tame).2 _ mirrors (.inr inside)).1.trans fixed
  · have last_eq' : last.tail.rest = old := by rw [← rest_eq, after_eq]
    have inside : (cut old).Inside last := by
      obtain ⟨brace, last_rest, -, -⟩ := Cursor.exists_rest_of_isAt closes
      refine .inr ?_
      rw [last_rest, last_eq']
      exact Nat.lt_succ_self _
    have length_eq : other.rest.length + old.length = cursor.rest.length := mirrors.length_eq
    have agree : (cut old).StmtAgree (stmtUpTo (cursor.rest.length + 1))
        (stmtUpTo (other.rest.length + 1)) (cursor.rest.length + 1) := by
      refine stmtAgree_stmtUpTo (.inr ⟨old, rfl⟩) ?_
      simp only [cut, List.length_nil]
      omega
    have short := (reaches_accept .openBrace cursor).lt (Nat.lt_succ_self _)
    obtain ⟨statements_eq, mirrors'⟩ := (agree_statementsWith agree short tame).2 other mirrors
      (.inr (by rwa [last_eq]))
    have statements_eq' :
        relocate id (statementsWith (stmtUpTo (cursor.rest.length + 1)) cursor).1 =
          (statementsWith (stmtUpTo (cursor.rest.length + 1)) cursor).1 := by
      rw [block, blockWith_apply, relocate_block] at fixed
      exact (Block.mk.inj fixed).2
    rw [block, block, blockWith_apply, blockWith_apply, statements_eq, last_eq]
    rw [last_eq] at mirrors'
    exact congrArg₂ Block.mk (mirrors'.spanFrom_accept_closeBrace closes mirrors.shows.here_eq)
      statements_eq'

/-- Of an annotation that begins in a block and does not end after it, the closing brace of the
block is no part. -/
theorem inside_skipAnnotation {source : Source} {place : Cursor} (order : cursor.InOrder source)
    (reaches : cursor.Reaches place) (inside : (cut (block cursor).2.rest).Inside place)
    (closes : ( skipAnnotation place).2.behind ≤ (block cursor).2.behind) :
    (cut (block cursor).2.rest).Inside ( skipAnnotation place).2 := by
  have after_reaches := (laidOut_block cursor).reaches
  have onward : cursor.Reaches ( skipAnnotation place).2 :=
    triple_iff.mp ( onward_skipAnnotation cursor) place reaches
  rcases block_ends ⟨source, order⟩ with ended | ⟨last, last_reaches, -, braced, after_eq⟩
  · exact .inl ⟨ended, rfl⟩
  by_cases ended : (block cursor).2.rest = []
  · exact .inl ⟨ended, rfl⟩
  have before_after : ( skipAnnotation place).2.Reaches (block cursor).2 := by
    rcases after_reaches.total onward with later | earlier
    · rcases later.eq_or_tail with same | beyond
      · rw [same]
        exact .refl
      · have read : (block cursor).2.ReachesOn ( skipAnnotation place).2 :=
          ⟨_, .refl, ended, beyond⟩
        have here_lt := read.here_lt_behind (order.reaches after_reaches)
        have behind_le := (order.reaches after_reaches).behind_le_here
        omega
    · exact earlier
  by_contra outside
  have same : (block cursor).2 = ( skipAnnotation place).2 :=
    before_after.eq_of_length_le (Nat.le_of_not_lt fun shorter => outside (.inr shorter))
  rcases endsOpen_skipAnnotation place with unread | ended' | ⟨last', reaches', open_, last_eq⟩
  · rw [unread] at outside
    exact outside inside
  · exact ended (same ▸ ended')
  · have tail_eq : last'.tail = last.tail := last_eq.symm.trans (same.symm.trans after_eq)
    have more : last.tail.rest ≠ [] := after_eq ▸ ended
    exact open_ (last_reaches.eq_of_tail_eq (reaches.trans reaches') more tail_eq ▸ braced)

end Parallel

/-- Whether every annotation that begins under a span ends under it. -/
def Source.ClosesAnnotations (source : Source) (span : Span) : Prop :=
  ∀ cursor, (Cursor.start (Token.scan 0 source.chars)).Reaches cursor → cursor.isAt .atSign →
    span.start ≤ cursor.here → cursor.here < span.stop →
      ( Parser.skipAnnotation cursor).2.behind ≤ span.stop

instance (source : Source) (span : Span) : Decidable (source.ClosesAnnotations span) :=
  decidable_of_iff
    (∀ n ≤ (Token.scan 0 source.chars).length,
      let cursor := (Parser.advance n (.start (Token.scan 0 source.chars))).2
      cursor.isAt .atSign → span.start ≤ cursor.here → cursor.here < span.stop →
        ( Parser.skipAnnotation cursor).2.behind ≤ span.stop)
    ⟨fun closes cursor reaches => by
      obtain ⟨n, enough, rfl⟩ := reaches.exists_advance
      exact closes n enough,
    fun closes n _ => closes _ (Parser.reaches_advance n _)⟩

theorem CompilationUnit.exists_readFrom {source : Source} {method : Method} {body : Block}
    (member : method ∈ (CompilationUnit.read source).methods) (body_eq : method.body = some body) :
    ∃ before after, (Cursor.start (Token.scan 0 source.chars)).Reaches before ∧
      body.ReadFrom before after := by
  obtain ⟨type, type_mem, method_mem⟩ := List.mem_flatMap.mp member
  obtain ⟨member, member_mem, method_mem⟩ := Member.mem_methodsOf.mp method_mem
  obtain ⟨before, after, reaches, laidOut⟩ :=
    Parser.triple_iff.mp (Parser.readAfter_compilationUnit source.size _) _ rfl type type_mem member
      member_mem method method_mem
  obtain ⟨first, last, reaches', read, -⟩ := laidOut.read body body_eq
  exact ⟨first, last, reaches.trans reaches', read⟩

namespace Parallel

open JavaOutline.Parser

/-- A block is mirrored by the part of its text that ends with it. -/
theorem mirrors_block {source : Source} {cursor : Cursor} {window : List Token} {last : Token}
    (order : cursor.InOrder source)
    (window_eq : cursor.rest = window ++ last :: (block cursor).2.rest)
    (ends : last.kind = .closeBrace ∨ (block cursor).2.rest = [])
    (closes : ∀ place, cursor.Reaches place → place.isAt .atSign →
      place.here < (block cursor).2.behind →
        ( skipAnnotation place).2.behind ≤ (block cursor).2.behind) :
    (cut (block cursor).2.rest).Mirrors cursor ⟨window ++ [last], cursor.behind⟩ := by
  have after_reaches := (laidOut_block cursor).reaches
  constructor
  · refine ⟨window ++ [last], ?_, ?_, ?_⟩
    · rw [List.append_assoc]
      exact window_eq
    · have relocate_eq : relocate id (window ++ [last]) = window ++ [last] := List.map_id _
      change _ = Cursor.mk (relocate id (window ++ [last]) ++ []) cursor.behind
      rw [relocate_eq, List.append_nil]
    · exact ends.symm.imp (⟨·, rfl⟩) fun closing => ⟨window, last, rfl, closing⟩
  · intro place reaches inside found
    rcases inside with whole | more
    · exact .inl whole
    refine inside_skipAnnotation order reaches (.inr more) (closes place reaches found ?_)
    have read : place.ReachesOn (block cursor).2 := by
      rcases reaches.total after_reaches with later | earlier
      · rcases later.eq_or_tail with same | beyond
        · rw [same] at more
          exact absurd more (Nat.lt_irrefl _)
        · obtain ⟨token, rest_eq, -, -⟩ := Cursor.exists_rest_of_isAt found
          exact ⟨place, .refl, by simp [rest_eq], beyond⟩
      · exact absurd earlier.length_le (Nat.not_le_of_lt more)
    exact read.here_lt_behind (order.reaches reaches)

end Parallel

theorem Block.read_ofList {offset : Nat} {part : List Char} {tokens : List Token}
    (scan_eq : Token.scan offset part = tokens)
    (fits : ∀ token ∈ tokens, token.span.stop < offsetBound) :
    Block.read (.ofString (String.ofList part)) offset =
      .ok (Parser.block (.start tokens)).1 := by
  have chars_eq : (Source.ofString (String.ofList part)).chars = part := String.toList_ofList
  have all_fit : tokens.all (·.span.stop < offsetBound) := by simpa using fits
  rw [Block.read, chars_eq, Token.scan?, scan_eq, if_pos all_fit]
  rfl

/-- A block of a file that begins with its brace is read alone as it is read in the file. -/
theorem Block.ReadFrom.read_slice {source : Source} (fits : source.size < offsetBound)
    {body : Block} {before after : Cursor} (body_read : body.ReadFrom before after)
    (reaches : (Cursor.start (Token.scan 0 source.chars)).Reaches before)
    (closes : source.ClosesAnnotations body.span) :
    ∃ text, source.slice? body.span = some text ∧
      Block.read (.ofString text) body.span.start = .ok body := by
  obtain ⟨rest, behind⟩ := before
  obtain ⟨found, read⟩ := body_read
  obtain ⟨first, rest_eq, opens, -⟩ := Cursor.exists_rest_of_isAt found
  obtain ⟨later, rfl⟩ : ∃ later, rest = first :: later := ⟨_, rest_eq⟩
  have start_order := Cursor.inOrder_start (Token.inOrder_scan source)
  have order : Cursor.InOrder source ⟨first :: later, first.span.start⟩ := by
    obtain ⟨-, -, start_lt, boundary, later_order⟩ := start_order.reaches reaches
    exact ⟨boundary, Nat.le_refl _, start_lt, boundary, later_order⟩
  rw [Parser.block_eq_of_openBrace opens later behind first.span.start] at read
  obtain ⟨window, last, window_eq, stop_eq, ends⟩ :=
    Parser.block_window ⟨source, order⟩ (List.cons_ne_nil first later)
  have span_eq : body.span = ⟨first.span.start, last.span.stop⟩ := by
    have start_le := order.behind_le (Parser.laidOut_block _).reaches
    have span_eq : body.span = (Parser.block _).2.spanFrom first.span.start :=
      congrArg (fun result => result.1.span) read.symm
    rw [span_eq, Cursor.spanFrom, Nat.max_eq_left start_le, stop_eq]
  have closed (place : Cursor) (onward : Cursor.Reaches ⟨first :: later, first.span.start⟩ place)
      (found_at : place.isAt .atSign) (here_lt : place.here < last.span.stop) :
      ( Parser.skipAnnotation place).2.behind ≤ last.span.stop := by
    have onward_start : (Cursor.start (Token.scan 0 source.chars)).Reaches place := by
      rcases onward.eq_or_tail with rfl | beyond
      · exact absurd (opens.symm.trans (of_decide_eq_true found_at)) (by decide)
      · exact reaches.trans (Cursor.Reaches.trans (.tail .refl) beyond)
    have closed := closes place onward_start found_at
    rw [span_eq] at closed
    exact closed (order.here_le onward) here_lt
  have mirrors := Parallel.mirrors_block order window_eq ends (by rwa [stop_eq])
  have body_eq := Parallel.block_cut ⟨source, order⟩ mirrors
  obtain ⟨front, tokens_eq⟩ := reaches.suffix
  generalize (Parser.block ⟨first :: later, first.span.start⟩).2.rest = old at window_eq ends
  obtain ⟨inner, inner_eq, rfl⟩ :
      ∃ inner, window ++ [last] = first :: inner ∧ later = inner ++ old := by
    cases window with
    | nil =>
        obtain ⟨rfl, rfl⟩ := List.cons.inj window_eq
        exact ⟨[], rfl, rfl⟩
    | cons token window =>
        obtain ⟨rfl, rfl⟩ := List.cons.inj window_eq
        exact ⟨window ++ [last], rfl, by rw [List.append_assoc]; rfl⟩
  obtain ⟨part, slice_eq, scan_eq⟩ := Token.exists_between tokens_eq.symm
    (List.getLast?_eq_some_iff.mpr ⟨window, inner_eq.symm⟩) ends
  refine ⟨String.ofList part, by rw [span_eq, slice_eq], ?_⟩
  have fits_each (token : Token) (member : token ∈ first :: inner) :
      token.span.stop < offsetBound := by
    have found : token ∈ Token.scan 0 source.chars := by
      rw [show Token.scan 0 source.chars = _ from tokens_eq.symm]
      exact List.mem_append_right _ (List.mem_append_left _ member)
    exact Nat.lt_of_le_of_lt ((Token.inOrder_scan source).isBoundary_stop found).le_size fits
  rw [span_eq, Block.read_ofList scan_eq fits_each]
  refine congrArg Except.ok ?_
  rw [inner_eq, read] at body_eq
  exact body_eq

/-- The body of a method, cut out of its file and read alone where it stands, is the body that was
read with the file, if every annotation that begins in it also ends in it. -/
theorem CompilationUnit.read_slice_body (source : Source) (fits : source.size < offsetBound)
    {method : Method} (member : method ∈ (CompilationUnit.read source).methods) {body : Block}
    (body_eq : method.body = some body) (closes : source.ClosesAnnotations body.span) :
    ∃ text, source.slice? body.span = some text ∧
      Block.read (.ofString text) body.span.start = .ok body := by
  obtain ⟨before, after, reaches, read⟩ := exists_readFrom member body_eq
  exact read.read_slice fits reaches closes

/-- A file with a constructor that has an annotation in its body. -/
def annotatedSource : Source := .ofString "class A\x7bA()\x7b@B(c)C d;\x7d\x7d"

/-- The body of the constructor of `annotatedSource`. -/
def annotatedBody : Block :=
  .mk ⟨11, 22⟩ [.locals ⟨⟨12, 21⟩, ⟨"C", ⟨17, 18⟩⟩, [⟨⟨19, 20⟩, ⟨"d", ⟨19, 20⟩⟩, none⟩]⟩]

theorem scan_annotatedSource : Token.scan 0 annotatedSource.chars =
    [⟨.word, "class", ⟨0, 5⟩⟩, ⟨.word, "A", ⟨6, 7⟩⟩, ⟨.openBrace, "\x7b", ⟨7, 8⟩⟩,
     ⟨.word, "A", ⟨8, 9⟩⟩, ⟨.openParen, "(", ⟨9, 10⟩⟩, ⟨.closeParen, ")", ⟨10, 11⟩⟩,
     ⟨.openBrace, "\x7b", ⟨11, 12⟩⟩, ⟨.atSign, "@", ⟨12, 13⟩⟩, ⟨.word, "B", ⟨13, 14⟩⟩,
     ⟨.openParen, "(", ⟨14, 15⟩⟩, ⟨.word, "c", ⟨15, 16⟩⟩, ⟨.closeParen, ")", ⟨16, 17⟩⟩,
     ⟨.word, "C", ⟨17, 18⟩⟩, ⟨.word, "d", ⟨19, 20⟩⟩, ⟨.semicolon, ";", ⟨20, 21⟩⟩,
     ⟨.closeBrace, "\x7d", ⟨21, 22⟩⟩, ⟨.closeBrace, "\x7d", ⟨22, 23⟩⟩] := by
  decide +kernel

set_option maxRecDepth 8000 in
theorem bodies_annotatedSource :
    (CompilationUnit.read annotatedSource).methods.map (·.body) = [some annotatedBody] := by
  rw [CompilationUnit.read, scan_annotatedSource]
  rfl

theorem CompilationUnit.read_slice_annotatedBody :
    ∃ text, annotatedSource.slice? annotatedBody.span = some text ∧
      Block.read (.ofString text) annotatedBody.span.start = .ok annotatedBody := by
  obtain ⟨method, member, body_eq⟩ : ∃ method ∈ (CompilationUnit.read annotatedSource).methods,
      method.body = some annotatedBody := by
    rw [← List.mem_map, bodies_annotatedSource]
    exact List.mem_singleton_self _
  have closes : annotatedSource.ClosesAnnotations annotatedBody.span := by decide
  exact read_slice_body annotatedSource (by decide) member body_eq closes

/-- A file with a method in whose body an annotation begins that ends after the body. -/
def straySource : Source :=
  .ofString "class Q\x7bvoid m()\x7bswitch(s)\x7bcase f(x instanceof @A(],(],):\x7d\x7d)T;\x7d"

/-- The body of the method of `straySource`, where the value of the label is a pattern. -/
def strayBody : Block :=
  .mk ⟨16, 59⟩ [.switch ⟨17, 58⟩ (.name ⟨24, 25⟩ "s")
    [.mk ⟨27, 57⟩ false [.case ⟨27, 57⟩ [.excerpt ⟨32, 56⟩ .pattern]] []]]

theorem scan_straySource : Token.scan 0 straySource.chars =
    [⟨.word, "class", ⟨0, 5⟩⟩, ⟨.word, "Q", ⟨6, 7⟩⟩, ⟨.openBrace, "\x7b", ⟨7, 8⟩⟩,
     ⟨.word, "void", ⟨8, 12⟩⟩, ⟨.word, "m", ⟨13, 14⟩⟩, ⟨.openParen, "(", ⟨14, 15⟩⟩,
     ⟨.closeParen, ")", ⟨15, 16⟩⟩, ⟨.openBrace, "\x7b", ⟨16, 17⟩⟩, ⟨.word, "switch", ⟨17, 23⟩⟩,
     ⟨.openParen, "(", ⟨23, 24⟩⟩, ⟨.word, "s", ⟨24, 25⟩⟩, ⟨.closeParen, ")", ⟨25, 26⟩⟩,
     ⟨.openBrace, "\x7b", ⟨26, 27⟩⟩, ⟨.word, "case", ⟨27, 31⟩⟩, ⟨.word, "f", ⟨32, 33⟩⟩,
     ⟨.openParen, "(", ⟨33, 34⟩⟩, ⟨.word, "x", ⟨34, 35⟩⟩, ⟨.word, "instanceof", ⟨36, 46⟩⟩,
     ⟨.atSign, "@", ⟨47, 48⟩⟩, ⟨.word, "A", ⟨48, 49⟩⟩, ⟨.openParen, "(", ⟨49, 50⟩⟩,
     ⟨.closeBracket, "]", ⟨50, 51⟩⟩, ⟨.comma, ",", ⟨51, 52⟩⟩, ⟨.openParen, "(", ⟨52, 53⟩⟩,
     ⟨.closeBracket, "]", ⟨53, 54⟩⟩, ⟨.comma, ",", ⟨54, 55⟩⟩, ⟨.closeParen, ")", ⟨55, 56⟩⟩,
     ⟨.colon, ":", ⟨56, 57⟩⟩, ⟨.closeBrace, "\x7d", ⟨57, 58⟩⟩, ⟨.closeBrace, "\x7d", ⟨58, 59⟩⟩,
     ⟨.closeParen, ")", ⟨59, 60⟩⟩, ⟨.word, "T", ⟨60, 61⟩⟩, ⟨.semicolon, ";", ⟨61, 62⟩⟩,
     ⟨.closeBrace, "\x7d", ⟨62, 63⟩⟩] := by
  decide +kernel

set_option maxRecDepth 8000 in
theorem bodies_straySource :
    (CompilationUnit.read straySource).methods.map (·.body) = [some strayBody] := by
  rw [CompilationUnit.read, scan_straySource]
  rfl

theorem slice?_straySource : straySource.slice? strayBody.span =
    some "\x7bswitch(s)\x7bcase f(x instanceof @A(],(],):\x7d\x7d" := by
  decide +kernel

/-- The body of the method of `straySource` read alone, where the value of the label is a call. -/
def strayBodyAlone : Block :=
  .mk ⟨16, 59⟩ [.switch ⟨17, 58⟩ (.name ⟨24, 25⟩ "s")
    [.mk ⟨27, 57⟩ false [.case ⟨27, 57⟩ [.call ⟨32, 56⟩ ⟨"f", ⟨32, 33⟩⟩
      [.instanceOf ⟨34, 46⟩ (.name ⟨34, 35⟩ "x") ⟨"", ⟨47, 47⟩⟩ none,
        .parenthesized ⟨52, 53⟩ (.missing ⟨53, 53⟩), .missing ⟨53, 53⟩]]] []]]

set_option maxRecDepth 8000 in
theorem read_slice_straySource :
    Block.read (.ofString "\x7bswitch(s)\x7bcase f(x instanceof @A(],(],):\x7d\x7d") 16 =
      .ok strayBodyAlone := by
  have scanned : Token.scan? 16
      (Source.ofString "\x7bswitch(s)\x7bcase f(x instanceof @A(],(],):\x7d\x7d").chars = .ok
      [⟨.openBrace, "\x7b", ⟨16, 17⟩⟩, ⟨.word, "switch", ⟨17, 23⟩⟩, ⟨.openParen, "(", ⟨23, 24⟩⟩,
       ⟨.word, "s", ⟨24, 25⟩⟩, ⟨.closeParen, ")", ⟨25, 26⟩⟩, ⟨.openBrace, "\x7b", ⟨26, 27⟩⟩,
       ⟨.word, "case", ⟨27, 31⟩⟩, ⟨.word, "f", ⟨32, 33⟩⟩, ⟨.openParen, "(", ⟨33, 34⟩⟩,
       ⟨.word, "x", ⟨34, 35⟩⟩, ⟨.word, "instanceof", ⟨36, 46⟩⟩, ⟨.atSign, "@", ⟨47, 48⟩⟩,
       ⟨.word, "A", ⟨48, 49⟩⟩, ⟨.openParen, "(", ⟨49, 50⟩⟩, ⟨.closeBracket, "]", ⟨50, 51⟩⟩,
       ⟨.comma, ",", ⟨51, 52⟩⟩, ⟨.openParen, "(", ⟨52, 53⟩⟩, ⟨.closeBracket, "]", ⟨53, 54⟩⟩,
       ⟨.comma, ",", ⟨54, 55⟩⟩, ⟨.closeParen, ")", ⟨55, 56⟩⟩, ⟨.colon, ":", ⟨56, 57⟩⟩,
       ⟨.closeBrace, "\x7d", ⟨57, 58⟩⟩, ⟨.closeBrace, "\x7d", ⟨58, 59⟩⟩] := by
    decide +kernel
  rw [Block.read, scanned]
  rfl

/-- Where an annotation ends after the body that it begins in, the body may be read differently
alone. -/
theorem CompilationUnit.read_slice_strayBody :
    ∃ method ∈ (CompilationUnit.read straySource).methods, ∃ body text, method.body = some body ∧
      straySource.slice? body.span = some text ∧
        Block.read (.ofString text) body.span.start ≠ .ok body := by
  obtain ⟨method, member, body_eq⟩ : ∃ method ∈ (CompilationUnit.read straySource).methods,
      method.body = some strayBody := by
    rw [← List.mem_map, bodies_straySource]
    exact List.mem_singleton_self _
  refine ⟨method, member, strayBody, _, body_eq, slice?_straySource, ?_⟩
  change Block.read _ 16 ≠ _
  rw [read_slice_straySource]
  simp [strayBody, strayBodyAlone]

end JavaOutline
