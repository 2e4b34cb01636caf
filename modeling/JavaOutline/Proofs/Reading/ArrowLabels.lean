import JavaOutline.Proofs.Reading.LabelExprs

/-!
# Labels that end in an arrow

A label that ends in an arrow has the value that it has in front of a colon, unless something in it
looks like the head of a lambda there and stands where a lambda may.
-/

namespace JavaOutline

namespace Parser

variable {rules : Rules} {cursor after : Cursor} {value : Expr}

/-- A value that is no pattern is a conditional expression in front of a mark that ends values. -/
theorem conditional_of_caseValueWith (read : caseValueWith rules cursor = (value, after))
    (kept : value.isPattern = false) :
    cursor.isAtWord "default" = false ∧ rules.conditional cursor = (some value, after) ∧
      after.isAhead 0 [.comma, .colon, .arrow] = true := by
  have not_excerpt {span : Span} : value ≠ .excerpt span .pattern := by
    rintro rfl
    cases kept
  cases default : cursor.isAtWord "default" with
  | true =>
      cases ends : cursor.tail.isAhead 0 [.comma, .colon, .arrow] <;>
        simp [caseValueWith, acceptWord_apply, default, ends, excerptFrom] at read
      · exact absurd (Prod.mk.inj read).1.symm not_excerpt
      · exact absurd (Prod.mk.inj read).1.symm not_excerpt
  | false =>
      refine ⟨rfl, ?_⟩
      generalize read_eq : rules.conditional cursor = found
      obtain ⟨result, place⟩ := found
      cases result with
      | none =>
          simp [caseValueWith, acceptWord_apply, default, read_eq, excerptFrom] at read
          exact absurd (Prod.mk.inj read).1.symm not_excerpt
      | some expr =>
          cases ends : place.isAhead 0 [.comma, .colon, .arrow] with
          | false =>
              simp [caseValueWith, acceptWord_apply, default, read_eq, ends, excerptFrom] at read
              exact absurd (Prod.mk.inj read).1.symm not_excerpt
          | true =>
              simp [caseValueWith, acceptWord_apply, default, read_eq, ends] at read
              obtain ⟨rfl, rfl⟩ := Prod.mk.inj read
              exact ⟨rfl, ends⟩

theorem caseValueStep_true (rules : Rules) (values : List Expr) (cursor : Cursor) :
    caseValueStep rules (values, true) cursor =
      (some (values ++ [(caseValueWith rules cursor).1],
        (caseValueWith rules cursor).2.isAt .comma),
        (accept .comma (caseValueWith rules cursor).2).2) := by
  simp [caseValueStep, accept_apply]

theorem length_le_iterateUpTo_caseValueStep (rules : Rules) (n : Nat)
    (values : List Expr × Bool) (cursor : Cursor) :
    values.1.length ≤ (iterateUpTo (caseValueStep rules) n values cursor).1.1.length := by
  refine triple_iff.mp (iterateUpTo_invariant
    (fun (result : List Expr × Bool) _ => values.1.length ≤ result.1.length)
    (fun result => triple_iff.mpr fun before longer => ?_) n values) cursor (Nat.le_refl _)
  obtain ⟨read, more⟩ := result
  cases more with
  | false => exact longer
  | true =>
      rw [caseValueStep_true]
      exact longer.trans (by simp)

/-- A label with one value has no comma after it. -/
theorem caseValuesWith_singleton (reads : rules.Reads)
    (read : caseValuesWith rules cursor = ([value], after)) :
    caseValueWith rules cursor = (value, after) ∧ after.isAt .comma = false := by
  have short : cursor.rest.length < cursor.rest.length + 2 := by omega
  rw [caseValuesWith_eq, bind_apply, ← iterateUpTo_caseValueStep reads short] at read
  obtain ⟨values_eq, after_eq⟩ := Prod.mk.inj read
  have step := caseValueStep_true rules [] cursor
  rw [iterateUpTo_of_some (congrArg Prod.fst step), step] at values_eq after_eq
  generalize caseValueWith rules cursor = found at values_eq after_eq ⊢
  obtain ⟨first, place⟩ := found
  cases comma : place.isAt .comma with
  | false =>
      have stops : caseValueStep rules ([first], false) place = (none, place) := rfl
      simp only [List.nil_append, comma, accept_apply, Bool.false_eq_true, if_false,
        iterateUpTo_of_idle stops] at values_eq after_eq
      obtain rfl : first = value := by simpa using values_eq
      exact ⟨congrArg _ after_eq, after_eq ▸ comma⟩
  | true =>
      -- The comma announces another value, so that there are two.
      have again := caseValueStep_true rules [first] place.tail
      have longer := length_le_iterateUpTo_caseValueStep rules cursor.rest.length
      simp only [List.nil_append, comma, accept_apply, if_true,
        iterateUpTo_of_some (congrArg Prod.fst again)] at values_eq
      have two := longer _ _ |>.trans_eq (congrArg List.length values_eq)
      simp at two

theorem labelWith_colon {word : Token} (is_case : word.isWord "case" = true)
    {tokens rest : List Token} {behind stop : Nat} {span : Span} {values : List Expr}
    (read : labelWith rules ⟨word :: tokens, behind⟩ = ((.case span values, false), ⟨rest, stop⟩)) :
    ∃ after, caseValuesWith rules ⟨tokens, word.span.stop⟩ = (values, after) ∧
      after.isAt .arrow = false ∧ (accept .colon after).2 = ⟨rest, stop⟩ := by
  simp only [Token.isWord, Bool.and_eq_true, decide_eq_true_eq] at is_case
  have no_default : word.isWord "default" = false := by simp [Token.isWord, is_case]
  generalize read_eq : caseValuesWith rules ⟨tokens, word.span.stop⟩ = found
  obtain ⟨values', after⟩ := found
  cases arrow : after.isAt .arrow with
  | true =>
      simp [labelWith, acceptWord_apply, no_default, read_eq, accept_apply, arrow] at read
      cases (Prod.mk.inj (Prod.mk.inj read).1).2
  | false =>
      simp [labelWith, acceptWord_apply, no_default, read_eq, accept_apply, arrow] at read
      obtain ⟨label_eq, ends_eq⟩ := Prod.mk.inj read
      obtain ⟨-, rfl⟩ := SwitchLabel.case.inj (Prod.mk.inj label_eq).1
      exact ⟨after, rfl, arrow, by rw [accept_apply, ends_eq]⟩

end Parser

namespace LabelEnds

open JavaOutline.Parser

variable {ends : LabelEnds}

/-- What is read of a label in front of an arrow. -/
theorem RulesFollow.conditional_withArrow {rules : Rules} (follow : ends.RulesFollow rules)
    {label : List Token} {behind behind' : Nat} {value : Expr}
    (order : Cursor.IsOrdered ⟨label ++ ends.withColon, behind⟩)
    (read : rules.conditional ⟨label ++ ends.withColon, behind⟩ =
      (some value, ⟨ends.withColon, behind'⟩))
    (closed : ∀ head, ends.IsHead head → Cursor.Reaches ⟨label ++ ends.withColon, behind⟩ head →
      ¬value.Opens head) :
    rules.conditional ⟨label ++ ends.withArrow, behind⟩ =
      (some value, ⟨ends.withArrow, behind'⟩) := by
  have inside : ends.Inside ⟨ends.withColon, behind'⟩ := (mirrors_window [] behind').inside
  obtain ⟨-, same⟩ := follow.conditional _ order
  rw [read] at same
  obtain ⟨result_eq, abreast⟩ := same _ (mirrors_window label behind).abreast (.inr inside)
    fun head is_head passed _ ⟨_, value_eq, opened⟩ =>
      closed head is_head passed (Option.some.inj value_eq ▸ opened)
  obtain ⟨window, rest_eq, after_eq⟩ := abreast.mirrors inside
  obtain rfl : window = [] := by simpa using rest_eq
  exact Prod.ext result_eq after_eq

/-- What is read of a label in front of a colon. -/
theorem conditional_withColon {word : Token} (is_case : word.isWord "case" = true)
    {label : List Token} {behind n : Nat} {span : Span} {value : Expr}
    (read : labelWith (rules n) ⟨word :: (label ++ ends.withColon), behind⟩ =
      ((.case span [value], false), ⟨ends.brace :: ends.more, ends.colon.span.stop⟩))
    (kept : value.isPattern = false) :
    Cursor.isAtWord ⟨label ++ ends.withColon, word.span.stop⟩ "default" = false ∧
      ∃ behind', (rules n).conditional ⟨label ++ ends.withColon, word.span.stop⟩ =
        (some value, ⟨ends.withColon, behind'⟩) := by
  obtain ⟨after, values_eq, no_arrow, ends_eq⟩ := labelWith_colon is_case read
  obtain ⟨value_eq, no_comma⟩ := caseValuesWith_singleton (reads_rules n) values_eq
  obtain ⟨no_default, value_read, at_end⟩ := conditional_of_caseValueWith value_eq kept
  have reaches := triple_iff.mp ((onward_rules n).conditional
    ⟨label ++ ends.withColon, word.span.stop⟩) _ .refl
  rw [value_read] at reaches
  refine ⟨no_default, after.behind, value_read.trans ?_⟩
  obtain ⟨tokens, behind'⟩ := after
  cases tokens with
  | nil => cases at_end
  | cons token tokens =>
      have colon : token.kind = .colon := by simp_all
      rw [accept_apply, Cursor.isAt_cons, colon] at ends_eq
      obtain ⟨rfl, -⟩ := Cursor.mk.inj ends_eq
      -- As many tokens are left as there are from the colon on.
      have same : ends.withColon <:+ label ++ ends.withColon := List.suffix_append _ _
      have tokens_eq : token :: ends.brace :: ends.more = ends.withColon :=
        (List.suffix_of_suffix_length_le reaches.suffix same (Nat.le_refl _)).eq_of_length rfl
      rw [tokens_eq]

/-- A label that ends in a colon and has one value, which is no pattern, has the same value in front
of an arrow, if that opens no head of a lambda. -/
theorem labelWith_withArrow {word : Token} (is_case : word.isWord "case" = true)
    {label : List Token} {behind n m : Nat}
    (order : Cursor.IsOrdered ⟨word :: (label ++ ends.withColon), behind⟩)
    (fuel : label.length + ends.more.length + 2 < n)
    (fuel' : label.length + ends.more.length + 2 < m) {span : Span} {value : Expr}
    (read : labelWith (rules n) ⟨word :: (label ++ ends.withColon), behind⟩ =
      ((.case span [value], false), ⟨ends.brace :: ends.more, ends.colon.span.stop⟩))
    (kept : value.isPattern = false)
    (closed : ∀ head, ends.IsHead head →
      Cursor.Reaches ⟨label ++ ends.withColon, word.span.stop⟩ head → ¬value.Opens head) :
    ∃ span', labelWith (rules m) ⟨word :: (label ++ ends.withArrow), behind⟩ =
      ((.case span' [value], true),
        ⟨ends.semicolon :: ends.brace :: ends.more, ends.arrow.span.stop⟩) := by
  obtain ⟨no_default, behind', value_read⟩ := conditional_withColon is_case read kept
  have order' : Cursor.IsOrdered ⟨label ++ ends.withColon, word.span.stop⟩ :=
    order.reaches (.tail .refl)
  have length_eq : (label ++ ends.withColon).length = label.length + ends.more.length + 2 := by
    simp only [withColon, List.length_append, List.length_cons]
    omega
  have shorter : (ends.semicolon :: ends.brace :: ends.more).length + 1 <
      (label ++ ends.withArrow).length := by
    have longer := length_lt_of_operandRead? ((placed_rules n).conditional _ order') value_read
    simp only [withColon, withArrow, List.length_append, List.length_cons] at longer ⊢
    omega
  have same := (rulesOver_eq (n := n) (m := m) order' (rules 0) (length_eq ▸ fuel)
    (length_eq ▸ fuel')).2.1
  rw [rulesOver_rules_zero] at same
  have arrow_eq := (rulesFollow_rules ends m).conditional_withArrow order'
    (same.symm.trans value_read) closed
  have value_eq : caseValueWith (rules m) ⟨label ++ ends.withArrow, word.span.stop⟩ =
      (value, ⟨ends.withArrow, behind'⟩) := by
    have mirrors : ends.Mirrors ⟨label ++ ends.withColon, word.span.stop⟩
        ⟨label ++ ends.withArrow, word.span.stop⟩ := mirrors_window label word.span.stop
    have no_default' := (mirrors.shows.isAtWord_eq "default").trans no_default
    have at_arrow : Cursor.isAhead ⟨ends.withArrow, behind'⟩ 0 [.comma, .colon, .arrow] = true := by
      simp [withArrow, ends.is_arrow]
    simp only [caseValueWith, bind_apply, get_apply, acceptWord_apply, no_default',
      Bool.false_eq_true, if_false, arrow_eq, at_arrow, if_true, pure_apply]
  obtain ⟨span', label_eq⟩ := labelWith_of_value (ends.semicolon :: ends.brace :: ends.more)
    is_case (.inr ends.is_arrow) value_eq shorter behind
  refine ⟨span', label_eq.trans ?_⟩
  simp only [ends.is_arrow, decide_true]

/-- The ends of the label `case a + b` of the switch that ends there. -/
def sumEnds : LabelEnds where
  colon := ⟨.colon, ":", ⟨10, 11⟩⟩
  arrow := ⟨.arrow, "->", ⟨10, 12⟩⟩
  semicolon := ⟨.semicolon, ";", ⟨12, 13⟩⟩
  brace := ⟨.closeBrace, "\x7d", ⟨11, 12⟩⟩
  more := []
  is_colon := rfl
  is_arrow := rfl
  is_semicolon := rfl
  is_brace := rfl
  start_eq := rfl

/-- The label `a + b`. -/
def sumLabel : List Token :=
  [⟨.word, "a", ⟨5, 6⟩⟩, ⟨.plus, "+", ⟨7, 8⟩⟩, ⟨.word, "b", ⟨9, 10⟩⟩]

/-- What the label `a + b` is read as. -/
def sumValue : Expr := .binary ⟨5, 10⟩ .add (.name ⟨5, 6⟩ "a") (.name ⟨9, 10⟩ "b")

set_option maxRecDepth 4000 in
/-- In front of the arrow, `b` looks like the head of a lambda, but the sum is kept. -/
theorem labelWith_sumLabel : ∃ span, labelWith (rules 6)
    ⟨⟨.word, "case", ⟨0, 4⟩⟩ :: (sumLabel ++ sumEnds.withArrow), 0⟩ =
      ((.case span [sumValue], true), ⟨[sumEnds.semicolon, sumEnds.brace], 12⟩) := by
  have is_case : Token.isWord ⟨.word, "case", ⟨0, 4⟩⟩ "case" = true := by decide
  have scanned : Token.scan 0 (Source.ofString "case a + b:\x7d").chars =
      ⟨.word, "case", ⟨0, 4⟩⟩ :: (sumLabel ++ sumEnds.withColon) := by
    decide +kernel
  have order : Cursor.IsOrdered ⟨⟨.word, "case", ⟨0, 4⟩⟩ :: (sumLabel ++ sumEnds.withColon), 0⟩ :=
    ⟨.ofString "case a + b:\x7d", scanned ▸ Cursor.inOrder_start (Token.inOrder_scan _)⟩
  have read : labelWith (rules 6)
      ⟨⟨.word, "case", ⟨0, 4⟩⟩ :: (sumLabel ++ sumEnds.withColon), 0⟩ =
        ((.case ⟨0, 11⟩ [sumValue], false), ⟨[sumEnds.brace], 11⟩) := by
    rfl
  refine labelWith_withArrow is_case order (by decide) (by decide) read rfl fun _ _ _ opened => ?_
  -- A name has no place for a lambda, and neither has a sum of names.
  have closed {span : Span} {text : String} {head : Cursor} :
      ¬(Expr.name span text).Opens head := by
    rintro (⟨member, -⟩ | ⟨member, -⟩)
    · cases member
    · cases member
  rcases opened with ⟨member, -⟩ | ⟨member, opened⟩
  · cases member
  · simp only [sumValue, Expr.parts, List.mem_cons, List.not_mem_nil, or_false,
      Construct.expr.injEq] at member
    rcases member with rfl | rfl
    · exact closed opened
    · exact closed opened

end LabelEnds

set_option maxRecDepth 8000 in
/-- The operand of a cast may be a lambda: in front of the arrow that ends the label, it is taken
for the head of one. The label is kept as it is written, but in front of a colon it is a cast. -/
theorem Block.read_castArrow :
    Block.read (.ofString "\x7bswitch(x)\x7bcase (T)y->;\x7d\x7d") 0 =
        .ok (.mk ⟨0, 25⟩ [.switch ⟨1, 24⟩ (.name ⟨8, 9⟩ "x") [.mk ⟨11, 23⟩ true
          [.case ⟨11, 22⟩ [.excerpt ⟨16, 20⟩ .pattern]] [.empty ⟨22, 23⟩]]]) ∧
      Block.read (.ofString "\x7bswitch(x)\x7bcase (T)y:\x7d\x7d") 0 =
        .ok (.mk ⟨0, 23⟩ [.switch ⟨1, 22⟩ (.name ⟨8, 9⟩ "x") [.mk ⟨11, 21⟩ false
          [.case ⟨11, 21⟩ [.cast ⟨16, 20⟩ ⟨"T", ⟨17, 18⟩⟩ (.name ⟨19, 20⟩ "y")]] []]]) := by
  constructor
  · have scanned : Token.scan? 0
        (Source.ofString "\x7bswitch(x)\x7bcase (T)y->;\x7d\x7d").chars = .ok
        [⟨.openBrace, "\x7b", ⟨0, 1⟩⟩, ⟨.word, "switch", ⟨1, 7⟩⟩, ⟨.openParen, "(", ⟨7, 8⟩⟩,
         ⟨.word, "x", ⟨8, 9⟩⟩, ⟨.closeParen, ")", ⟨9, 10⟩⟩, ⟨.openBrace, "\x7b", ⟨10, 11⟩⟩,
         ⟨.word, "case", ⟨11, 15⟩⟩, ⟨.openParen, "(", ⟨16, 17⟩⟩, ⟨.word, "T", ⟨17, 18⟩⟩,
         ⟨.closeParen, ")", ⟨18, 19⟩⟩, ⟨.word, "y", ⟨19, 20⟩⟩, ⟨.arrow, "->", ⟨20, 22⟩⟩,
         ⟨.semicolon, ";", ⟨22, 23⟩⟩, ⟨.closeBrace, "\x7d", ⟨23, 24⟩⟩,
         ⟨.closeBrace, "\x7d", ⟨24, 25⟩⟩] := by
      decide +kernel
    rw [Block.read, scanned]
    rfl
  · have scanned : Token.scan? 0
        (Source.ofString "\x7bswitch(x)\x7bcase (T)y:\x7d\x7d").chars = .ok
        [⟨.openBrace, "\x7b", ⟨0, 1⟩⟩, ⟨.word, "switch", ⟨1, 7⟩⟩, ⟨.openParen, "(", ⟨7, 8⟩⟩,
         ⟨.word, "x", ⟨8, 9⟩⟩, ⟨.closeParen, ")", ⟨9, 10⟩⟩, ⟨.openBrace, "\x7b", ⟨10, 11⟩⟩,
         ⟨.word, "case", ⟨11, 15⟩⟩, ⟨.openParen, "(", ⟨16, 17⟩⟩, ⟨.word, "T", ⟨17, 18⟩⟩,
         ⟨.closeParen, ")", ⟨18, 19⟩⟩, ⟨.word, "y", ⟨19, 20⟩⟩, ⟨.colon, ":", ⟨20, 21⟩⟩,
         ⟨.closeBrace, "\x7d", ⟨21, 22⟩⟩, ⟨.closeBrace, "\x7d", ⟨22, 23⟩⟩] := by
      decide +kernel
    rw [Block.read, scanned]
    rfl

end JavaOutline
