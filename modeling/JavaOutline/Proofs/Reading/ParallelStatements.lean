import JavaOutline.Proofs.Reading.ParallelExprs
import JavaOutline.Proofs.Reading.Spans

/-!
# Statements read side by side

The rules for statements agree on two texts. Nothing but a value of a `case` label is tried out
where a closing brace may be passed, and then given up.
-/

set_option mvcgen.warning false

open Std.Do

namespace JavaOutline

open Relocatable (relocate)

open Construct (AllPlaced)

namespace Parser

/-- Reads a value of a label as a pattern. -/
def casePattern : Parser Expr := do
  let start := (← get).here
  skipTo [.comma, .colon, .arrow]
  excerptFrom start .pattern

/-- Gives a value of a label, if the value ends where one may, and else goes back and reads a
pattern. -/
def caseEnd (before : Cursor) (value : Option Expr) : Parser Expr := do
  let ends := (← get).isAhead 0 [.comma, .colon, .arrow]
  match value with
  | some value => if ends then return value else fun _ => casePattern before
  | none => fun _ => casePattern before

theorem caseValueWith_eq (rules : Rules) : caseValueWith rules = (do
    let before ← get
    let value ← if ← acceptWord "default" then some <$> excerptFrom before.here .pattern
      else rules.conditional
    caseEnd before value) := by
  funext cursor
  unfold caseValueWith
  rfl

end Parser

namespace Parallel

open JavaOutline.Parser

variable {texts : Parallel} {stays : Prop} {cursor before after other : Cursor}

/-- One more value is moved with those before it. -/
theorem relocate_pushed {α β : Type} [Relocatable α] [Relocatable β] (values : List α) (value : α)
    (more : β) : some (relocate texts.move values ++ [relocate texts.move value],
      relocate texts.move more) = relocate texts.move (some (values ++ [value], more)) := by
  have append_eq : relocate texts.move (values ++ [value]) =
      relocate texts.move values ++ [relocate texts.move value] := List.map_append
  exact congrArg (fun values => some (values, _)) append_eq.symm

/-! ## Declarations and expressions -/

theorem agree_localType? (start : Nat) :
    texts.Agree False (localType? start) (localType? (texts.move start)) cursor := by
  refine .look fun origin' _ shows => ?_
  refine .bind agree_skipModifiers fun _ after _ _ => ?_
  refine .get fun other _ shows => ?_
  rw [shows.typeKind?_eq]
  split
  · refine Agree.resume (.bind (agree_advance _) fun _ after _ _ => ?_)
    refine .get fun other _ shows => ?_
    rw [shows.isAt_eq]
    refine .ite_bind (fun _ => agree_next? False.elim) (fun _ => .pure rfl) fun name _ _ _ => ?_
    refine .bind agree_skipHeader fun _ _ _ _ => ?_
    refine .bind (agree_skipBalanced _ _) fun _ _ _ _ => ?_
    refine .bind (.spanFrom _) fun span _ _ _ => .pure ?_
    cases name with
    | none => rfl
    | some token => rfl
  · exact .restore (.pure rfl)

theorem statementOf_relocate (f : Nat → Nat) (span : Span) (expr : Expr) :
    statementOf (relocate f span) (relocate f expr) = relocate f (statementOf span expr) := by
  cases expr with
  | call callSpan method arguments =>
      rw [relocate_call, statementOf, statementOf]
      have text_eq : (relocate f method).text = method.text := rfl
      rw [text_eq, ← relocate_call]
      split
      · rfl
      · split
        · rfl
        · rfl
  | memberCall callSpan receiver method arguments =>
      rw [relocate_memberCall, statementOf, statementOf]
      have text_eq : (relocate f method).text = method.text := rfl
      rw [text_eq, ← relocate_memberCall]
      split
      · rfl
      · split
        · rfl
        · rfl
  | _ => rfl

theorem agree_forEachHeader? : texts.Agree False forEachHeader? forEachHeader? cursor := by
  refine .look fun origin' _ _ => ?_
  refine .bind agree_skipVariableModifiers fun _ _ _ _ => ?_
  refine .bind_option agree_parameter? (fun _ _ _ => .restore (.pure rfl)) fun parameter _ _ _ => ?_
  refine .bind_bool (agree_accept _ fun _ => by decide)
    (fun _ _ _ => Agree.resume (.pure rfl)) fun _ _ _ => ?_
  exact .restore (.pure rfl)

theorem agree_caughtTypes : texts.Agree False caughtTypes caughtTypes cursor := by
  refine .bind agree_typeRef? fun first _ _ _ => ?_
  refine .bind (.many (fun after _ => ?_) fun before _ order => ?_) fun more _ _ _ => .pure ?_
  · refine .bind_bool (agree_accept _ fun _ => by decide) (fun _ _ _ => ?_) fun _ _ _ => .pure rfl
    exact .bind agree_typeRef? fun _ _ _ _ => .pure rfl
  · mvcgen <;> grind -ring -linarith
  · have filterMap_eq (types : List (Option TypeRef)) :
        List.filterMap id (relocate texts.move types) =
          relocate texts.move (List.filterMap id types) := by
      exact List.filterMap_map.trans List.map_filterMap.symm
    exact filterMap_eq (first :: more)

/-- A span from one place to another is empty in both texts or in neither. -/
theorem isEmpty_relocate {span : Span} (tame : texts.Tame before)
    (spans : before.Spans span after) : (relocate texts.move span).isEmpty = span.isEmpty := by
  obtain ⟨reaches, rfl⟩ := spans
  obtain ⟨source, order⟩ := tame.order
  have here_eq : before.spanFrom before.here = .point before.here := tame.order.spanFrom_here
  rcases reaches.eq_or_tail with rfl | later
  · rw [here_eq]
    simp [Span.isEmpty, Span.point, relocate]
  · obtain ⟨rest, behind⟩ := before
    cases rest with
    | nil =>
        rw [reaches.eq_of_nil rfl, here_eq]
        simp [Span.isEmpty, Span.point, relocate]
    | cons token rest =>
        have start_lt : token.span.start < after.behind :=
          Nat.lt_of_lt_of_le order.order.2.1 (order.tail.behind_le later)
        have moved_lt : texts.move token.span.start < texts.move after.behind :=
          Nat.lt_of_lt_of_le tame.kept.1 (texts.monotone (order.tail.behind_le later))
        have stop_eq : max after.behind token.span.start = after.behind :=
          Nat.max_eq_left (Nat.le_of_lt start_lt)
        simp [Span.isEmpty, Cursor.spanFrom, Cursor.here, relocate, stop_eq,
          Nat.not_le_of_gt start_lt, Nat.not_le_of_gt moved_lt]

theorem filter_relocate {spans : List Span} (tame : texts.Tame before)
    (placed : AllPlaced (spans.map .excerpt) before after) :
    (relocate texts.move spans).filter (!·.isEmpty) =
      relocate texts.move (spans.filter (!·.isEmpty)) := by
  have same (span : Span) (member : span ∈ spans) :
      (relocate texts.move span).isEmpty = span.isEmpty := by
    obtain ⟨first, last, reaches, ⟨spans, -, -, -⟩, -⟩ :=
      placed.exists_placedAt (List.mem_map_of_mem (f := Construct.excerpt) member)
    exact isEmpty_relocate (tame.reaches reaches) spans
  rw [show relocate texts.move spans = spans.map (relocate texts.move) from rfl, List.filter_map]
  refine congrArg (List.map (relocate texts.move)) (List.filter_congr fun span member => ?_)
  exact congrArg not (same span member)

theorem agree_resources : texts.Agree False resources resources cursor := by
  refine .of_tame fun tame => ?_
  refine .bind_bool (agree_accept _ fun _ => by decide) (fun after _ reaches => ?_) fun _ _ _ =>
    .pure rfl
  refine .bind (.many (fun after _ => ?_) fun before _ order => ?_) fun spans last read _ => ?_
  · refine .get fun other _ shows => ?_
    rw [shows.atEnd_eq, shows.isAhead_eq _ clear_zero, shows.here_eq]
    refine .ite (fun _ => .pure rfl) fun _ => ?_
    refine .bind (agree_skipTo _) fun _ after _ _ => ?_
    refine .get fun other _ shows => ?_
    rw [shows.spanFrom_eq]
    exact .bind (.discard (agree_accept _ fun _ => by decide)) fun _ _ _ _ => .pure rfl
  · mvcgen <;> grind -ring -linarith [Cursor.isAhead_zero]
  · have placed : AllPlaced (spans.map .excerpt) after last := by
      refine of_place (Q := fun spans last => AllPlaced (spans.map .excerpt) after last)
        (placed_manySpans after fun before _ => ?_) read
      mvcgen <;> grind -ring -linarith
    refine .bind (.discard (agree_accept _ fun _ => by decide)) fun _ _ _ _ => .pure ?_
    exact filter_relocate (tame.reaches reaches) placed

section Rules

variable {left right : Rules} {bound : Nat} (rules : texts.RulesAgree left right bound)

include rules

theorem agree_conditionWith (short : cursor.rest.length < bound) :
    texts.Agree False (conditionWith left) (conditionWith right) cursor := by
  refine .bind (.discard (agree_accept _ fun _ => by decide)) fun _ after _ reaches => ?_
  refine .bind (agree_orMissing (rules.expr (reaches.lt short))) fun condition _ _ _ => ?_
  exact .bind (.discard (agree_accept _ fun _ => by decide)) fun _ _ _ _ => .pure rfl

theorem agree_declaratorsWith (short : cursor.rest.length < bound) :
    texts.Agree False (declaratorsWith left) (declaratorsWith right) cursor := by
  refine .bind (.loop (fun (declarators, more) after reaches => ?_)
    fun (declarators, more) before reaches order => ?_) fun _ _ _ _ => .pure rfl
  · have short := reaches.lt short
    refine .ite (fun _ => .pure rfl) fun _ => ?_
    refine .get fun other _ shows => ?_
    cases rest_eq : after.rest with
    | nil =>
        rw [shows.rest_nil rest_eq]
        exact .pure rfl
    | cons name rest =>
        obtain ⟨more, other_eq⟩ := shows.rest_cons rest_eq
        rw [other_eq]
        refine .ite (fun _ => ?_) fun _ => .pure rfl
        refine .bind (agree_advance 1) fun _ after _ reaches => ?_
        have short := reaches.lt short
        refine .bind (.discard agree_skipBracketPairs) fun _ after _ reaches => ?_
        have short := reaches.lt short
        refine .bind (agree_accept _ fun _ => by decide) fun assigned after _ reaches => ?_
        refine .ite_bind (fun _ => .map (agree_valueWith rules (reaches.lt short)) fun _ => rfl)
          (fun _ => .pure rfl) fun value _ _ _ => ?_
        refine .bind (.spanFrom _) fun span _ _ _ => ?_
        refine .bind (agree_accept _ fun _ => by decide) fun _ _ _ _ =>
          .pure (relocate_pushed declarators ⟨span, ⟨name.text, name.span⟩, value⟩ _)
  · have placed := rules.reads.placed
    mvcgen <;> grind -ring -linarith

theorem agree_variablesWith (short : cursor.rest.length < bound) :
    texts.Agree False (variablesWith left) (variablesWith right) cursor := by
  refine .look fun origin' _ shows => ?_
  rw [shows.here_eq]
  refine .bind agree_skipVariableModifiers fun _ _ _ reaches => ?_
  have short := reaches.lt short
  refine .bind_option agree_typeRef? (fun _ _ _ => .restore (.pure rfl)) fun type _ _ reaches => ?_
  have short := reaches.lt short
  refine .get fun other _ shows => ?_
  rw [shows.isAtIdentifier_and_isAhead_eq]
  refine .ite (fun _ => ?_) fun _ => .restore (.pure rfl)
  refine Agree.resume (.bind (agree_declaratorsWith rules short) fun declarators _ _ _ => ?_)
  exact .bind (.spanFrom _) fun span _ _ _ => .pure rfl

theorem agree_exprStmtWith (start : Nat) (short : cursor.rest.length < bound) :
    texts.Agree False (exprStmtWith left start) (exprStmtWith right (texts.move start)) cursor := by
  refine .bind_option (rules.expr short) (fun _ _ _ => ?_) fun expr _ _ _ => ?_
  · exact .bind_option (agree_next? False.elim) (fun _ _ _ => .pure rfl) fun _ _ _ _ => .pure rfl
  · refine .bind (.discard (agree_accept _ fun _ => by decide)) fun _ _ _ _ => ?_
    refine .bind (.spanFrom _) fun span _ _ _ => .pure ?_
    exact statementOf_relocate _ _ _

theorem agree_declarationWith (start : Nat) (short : cursor.rest.length < bound) :
    texts.Agree False (declarationWith left start) (declarationWith right (texts.move start))
      cursor := by
  refine .bind_option (agree_localType? start) (fun _ _ reaches => ?_) fun _ _ _ _ => .pure rfl
  have short := reaches.lt short
  refine .bind_option (agree_variablesWith rules short)
    (fun _ _ reaches => agree_exprStmtWith rules start (reaches.lt short))
    fun declaration _ _ _ => ?_
  refine .bind (.discard (agree_accept _ fun _ => by decide)) fun _ _ _ _ => ?_
  exact .bind (.spanFrom _) fun span _ _ _ => .pure rfl

theorem agree_exprsWith (stop : TokenKind) (short : cursor.rest.length < bound) :
    texts.Agree False (exprsWith left stop) (exprsWith right stop) cursor := by
  refine .bind (.loop (fun (exprs, more) after reaches => ?_)
    fun (exprs, more) before _ order => ?_) fun _ _ _ _ => .pure rfl
  · have pushed (expr : Expr) {cursor : Cursor} : texts.Agree False
        (accept .comma >>= fun more => pure (some (exprs ++ [expr], more)))
        (accept .comma >>= fun more => pure (some (relocate texts.move exprs ++
          [relocate texts.move expr], more))) cursor :=
      .bind (agree_accept _ fun _ => by decide) fun more _ _ _ =>
        .pure (relocate_pushed exprs expr more)
    refine .get fun other _ shows => ?_
    rw [shows.atEnd_eq, shows.isAt_eq]
    refine .ite (fun _ => .pure rfl) fun _ => ?_
    refine .bind_option (rules.expr (reaches.lt short)) (fun _ _ _ => ?_) fun expr _ _ _ => ?_
    · refine .bind agree_missing fun expr _ _ _ => ?_
      exact .bind (agree_advance 1) fun _ _ _ _ => pushed expr
    · exact pushed expr
  · have expr := rules.reads.expr
    mvcgen [expr, -Rules.Placed.expr, -Rules.Onward.expr] <;> clear expr <;> grind -ring -linarith

end Rules

/-! ## Labels -/

/-- Whether rules agree on two texts, also on whether a value of a label is given up: if the first
text leaves the common stretch for it, the second ends. -/
structure LabelRulesAgree (texts : Parallel) (left right : Rules) (bound : Nat) : Prop extends
    texts.RulesAgree left right bound where
  ends {cursor other : Cursor} (short : cursor.rest.length < bound) (tame : texts.Tame cursor)
    (mirrors : texts.Mirrors cursor other)
    (outside : ¬texts.Inside (left.conditional cursor).2) : (right.conditional other).2.rest = []

theorem LabelRulesAgree.of_le {left right : Rules} {bound bound' : Nat}
    (rules : texts.LabelRulesAgree left right bound') (le : bound ≤ bound') :
    texts.LabelRulesAgree left right bound where
  reads := rules.reads
  expr short := rules.expr (Nat.lt_of_lt_of_le short le)
  conditional short := rules.conditional (Nat.lt_of_lt_of_le short le)
  binary least _ short := rules.binary least (Nat.lt_of_lt_of_le short le)
  unary short := rules.unary (Nat.lt_of_lt_of_le short le)
  primary short := rules.primary (Nat.lt_of_lt_of_le short le)
  ends short := rules.ends (Nat.lt_of_lt_of_le short le)

theorem agree_casePattern : texts.Agree False casePattern casePattern cursor := by
  refine .get fun other _ shows => ?_
  rw [shows.here_eq]
  exact .bind (agree_skipTo _) fun _ _ _ _ => agree_excerptFrom _ _

theorem resume_caseEnd {origin origin' : Cursor} (value : Option Expr) :
    texts.Resume False origin origin' (caseEnd origin value)
      (caseEnd origin' (relocate texts.move value)) cursor := by
  have pattern : texts.Resume False origin origin' (fun _ => casePattern origin)
      (fun _ => casePattern origin') cursor :=
    .restore (f := fun _ => casePattern) (g := fun _ => casePattern) agree_casePattern
  refine .get fun other _ shows => ?_
  rw [shows.isAhead_eq _ clear_zero]
  cases value with
  | none => exact pattern
  | some value => exact .ite (fun _ => Agree.resume (.pure rfl)) fun _ => pattern

theorem caseEnd_of_end {origin : Cursor} (value : Option Expr) (rest_eq : cursor.rest = []) :
    caseEnd origin value cursor = casePattern origin := by
  have ends_eq : cursor.isAhead 0 [.comma, .colon, .arrow] = false := by
    rw [Cursor.isAhead, Cursor.kindAhead?, Cursor.ahead?, rest_eq]
    rfl
  cases value with
  | none => rfl
  | some value =>
      change (if cursor.isAhead 0 [.comma, .colon, .arrow] then _ else _ : Parser Expr) cursor = _
      rw [ends_eq]
      rfl

/-- Either a value is left where it ends, or a pattern is read instead. -/
theorem caseEnd_cases (origin : Cursor) (value : Option Expr) (cursor : Cursor) :
    (caseEnd origin value cursor).2 = cursor ∨
      caseEnd origin value cursor = casePattern origin := by
  cases value with
  | none => exact .inr rfl
  | some value =>
      change ((if cursor.isAhead 0 [.comma, .colon, .arrow] then _ else _ : Parser Expr) cursor).2 =
        _ ∨ (if cursor.isAhead 0 [.comma, .colon, .arrow] then _ else _ : Parser Expr) cursor = _
      split
      · exact .inl rfl
      · exact .inr rfl

section LabelRules

variable {left right : Rules} {bound : Nat} (rules : texts.LabelRulesAgree left right bound)

include rules

theorem resume_conditional {origin origin' : Cursor} (short : cursor.rest.length < bound) :
    texts.Resume False origin origin' (left.conditional >>= caseEnd origin)
      (right.conditional >>= caseEnd origin') cursor := by
  intro tame reaches
  obtain ⟨onward, same⟩ := rules.conditional short (tame.reaches reaches)
  have ends : texts.Resume False origin origin' (caseEnd origin (left.conditional cursor).1)
      (caseEnd origin' (relocate texts.move (left.conditional cursor).1))
      (left.conditional cursor).2 := resume_caseEnd _
  obtain ⟨onward', same_later⟩ := ends tame (reaches.trans onward)
  refine ⟨onward', fun other mirrors mirrors' within => ?_⟩
  by_cases inside : texts.Inside (left.conditional cursor).2
  · obtain ⟨value_eq, mirrors'⟩ := same other mirrors' (.inr inside)
    rw [← value_eq] at same_later
    exact same_later _ mirrors mirrors' within
  · -- The first text has left the common stretch, so a pattern is read, and so it is in the second.
    have rest_eq := rules.ends short (tame.reaches reaches) mirrors' inside
    have right_eq : (right.conditional >>= caseEnd origin') other = casePattern origin' :=
      caseEnd_of_end _ rest_eq
    have left_eq : (left.conditional >>= caseEnd origin) cursor = casePattern origin := by
      refine (caseEnd_cases origin (left.conditional cursor).1
        (left.conditional cursor).2).resolve_left fun kept => inside ?_
      exact kept ▸ within.resolve_left id
    rw [left_eq] at within ⊢
    rw [right_eq]
    exact (agree_casePattern tame).2 origin' mirrors within

theorem agree_caseValueWith (short : cursor.rest.length < bound) :
    texts.Agree False (caseValueWith left) (caseValueWith right) cursor := by
  rw [caseValueWith_eq, caseValueWith_eq]
  refine .look fun origin' _ shows => ?_
  rw [shows.here_eq]
  refine .bind (agree_acceptWord _) fun isDefault after _ reaches => ?_
  refine .ite (fun _ => ?_) fun _ => resume_conditional rules (reaches.lt short)
  exact .bind (.map (agree_excerptFrom _ _) fun _ => rfl) fun value _ _ _ => resume_caseEnd value

theorem agree_caseValuesWith (short : cursor.rest.length < bound) :
    texts.Agree False (caseValuesWith left) (caseValuesWith right) cursor := by
  -- A value may consist of no token, and only the comma after it then makes the loop go on.
  refine .bind (.iterate (fun state => if state.2 then 1 else 0) (Nat.le_refl _)
    (fun state after reaches => ?_) fun state before _ order => ?_)
    fun _ _ _ _ => .pure rfl
  · obtain ⟨values, more⟩ := state
    refine .ite (fun _ => .pure rfl) fun _ => ?_
    refine .bind (agree_caseValueWith rules (reaches.lt short)) fun value _ _ _ => ?_
    exact .bind (agree_accept _ fun _ => by decide) fun more _ _ _ =>
      .pure (relocate_pushed values value more)
  · obtain ⟨values, more⟩ := state
    have onward := rules.reads.onward
    mvcgen [-placed_caseValueWith] <;>
      grind -ring -linarith [→ Cursor.Reaches.length_le, → Cursor.ReachesOn.length_lt]

omit rules in
/-- The end of a label after its values. -/
theorem agree_labelEnd (start : Nat) (values : Option (List Expr)) :
    let parser (start : Nat) (values : Option (List Expr)) : Parser (SwitchLabel × Bool) := do
      let arrow ← accept .arrow
      unless arrow do
        discard <| accept .colon
      let span ← Parser.spanFrom start
      match values with
      | some values => return (.case span values, arrow)
      | none => return (.default span, arrow)
    texts.Agree False (parser start values)
      (parser (texts.move start) (relocate texts.move values)) cursor := by
  have label (arrow : Bool) {cursor : Cursor} : texts.Agree False (do
        let span ← Parser.spanFrom start
        match values with
        | some values => return (.case span values, arrow)
        | none => return (.default span, arrow)) (do
        let span ← Parser.spanFrom (texts.move start)
        match relocate texts.move values with
        | some values => return (SwitchLabel.case span values, arrow)
        | none => return (SwitchLabel.default span, arrow)) cursor := by
    refine .bind (.spanFrom _) fun span _ _ _ => ?_
    cases values with
    | none => exact .pure rfl
    | some values => exact .pure rfl
  refine .bind (agree_accept _ fun _ => by decide) fun arrow _ _ _ => ?_
  refine .ite (fun _ => label arrow) fun _ => ?_
  exact .bind (.discard (agree_accept _ fun _ => by decide)) fun _ _ _ _ => label arrow

theorem agree_labelWith (short : cursor.rest.length < bound) :
    texts.Agree False (labelWith left) (labelWith right) cursor := by
  refine .get fun other _ shows => ?_
  rw [shows.here_eq]
  refine .bind (agree_acceptWord _) fun isDefault _ _ reaches => ?_
  have short := reaches.lt short
  refine .ite (fun _ => agree_labelEnd _ none) fun _ => ?_
  refine .bind (agree_advance 1) fun _ _ _ reaches => ?_
  have short := reaches.lt short
  refine .bind (.map (agree_caseValuesWith rules short) fun _ => rfl) fun values _ _ _ => ?_
  exact agree_labelEnd _ values

theorem agree_labelsWith (short : cursor.rest.length < bound) :
    texts.Agree False (labelsWith left) (labelsWith right) cursor := by
  refine .loop (fun (labels, arrow) after reaches => ?_) fun (labels, arrow) before _ order => ?_
  · refine .get fun other _ shows => ?_
    rw [shows.isAtLabel_eq]
    refine .ite (fun _ => .pure rfl) fun _ => ?_
    refine .bind (agree_labelWith rules (reaches.lt short)) fun (label, arrow) _ _ _ => ?_
    exact .pure (relocate_pushed labels label arrow)
  · have label := reads_labelWith rules.reads
    mvcgen [label, -placed_labelWith, -spans_labelWith] <;> clear label <;> grind -ring -linarith

end LabelRules

/-! ## Statements in statements -/

/-- Whether parsers for statements agree on two texts where fewer than `bound` tokens are left. -/
structure StmtAgree (texts : Parallel) (left right : Parser Stmt) (bound : Nat) : Prop where
  laysOut (before : Cursor) :
    ⦃before.place⦄ left ⦃⇓ stmt after => ⌜stmt.LaidOut before after⌝⦄
  reads {before : Cursor} (short : before.rest.length < bound) (order : before.IsOrdered)
    (more : before.atEnd = false) :
    ⦃before.place⦄ left ⦃⇓ _ after => ⌜before.ReachesOn after⌝⦄
  agree {cursor : Cursor} (short : cursor.rest.length < bound) :
    texts.Agree False left right cursor

section Stmts

variable {stmt stmt' : Parser Stmt} {bound : Nat} (stmts : texts.StmtAgree stmt stmt' bound)

include stmts

theorem agree_statementsWith (short : (accept .openBrace cursor).2.rest.length < bound) :
    texts.Agree False (statementsWith stmt) (statementsWith stmt') cursor := by
  refine .bind (.discard (agree_accept _ fun _ => by decide)) fun _ after read _ => ?_
  obtain rfl : (accept .openBrace cursor).2 = after := congrArg Prod.snd read
  refine .many (fun after reaches => ?_) fun before reaches order => ?_
  · refine .get fun other _ shows => ?_
    rw [shows.atEnd_eq, shows.isAt_eq]
    refine .ite (fun _ => .pure rfl) fun _ => ?_
    exact .bind (stmts.agree (reaches.lt short)) fun _ _ _ _ => .pure rfl
  · have reads := stmts.reads (reaches.lt short) order
    mvcgen [stmtInBlock?, reads] <;> clear reads <;> grind -ring -linarith

theorem agree_blockWith (short : (accept .openBrace cursor).2.rest.length < bound) :
    texts.Agree False (blockWith stmt) (blockWith stmt') cursor := by
  rw [blockWith_eq, blockWith_eq]
  refine .get fun other _ shows => ?_
  rw [shows.here_eq]
  refine .bind (agree_statementsWith stmts short) fun statements _ _ _ => ?_
  refine .bind (.discard (agree_accept _ False.elim)) fun _ _ _ _ => ?_
  refine .bind (.spanFrom _) fun span _ _ _ => .pure ?_
  exact (relocate_block _ _ _).symm

theorem agree_handlerWith (short : cursor.rest.length < bound) :
    texts.Agree False (handlerWith stmt) (handlerWith stmt') cursor := by
  refine .get fun other _ shows => ?_
  rw [shows.here_eq]
  refine .bind_bool (agree_acceptWord _) (fun _ _ reaches => ?_) fun _ _ _ => .pure rfl
  have short := reaches.lt short
  refine .bind (.discard (agree_accept _ fun _ => by decide)) fun _ _ _ reaches => ?_
  have short := reaches.lt short
  refine .bind agree_skipVariableModifiers fun _ _ _ reaches => ?_
  have short := reaches.lt short
  refine .bind agree_caughtTypes fun types _ _ reaches => ?_
  have short := reaches.lt short
  refine .get fun other _ shows => ?_
  rw [shows.isAt_eq]
  refine .ite_bind (fun _ => agree_next? False.elim) (fun _ => .pure rfl) fun name _ _ reaches => ?_
  have short := reaches.lt short
  refine .bind (.discard (agree_accept _ fun _ => by decide)) fun _ after _ reaches => ?_
  have short := (reaches_accept .openBrace after).lt (reaches.lt short)
  refine .bind (agree_blockWith stmts short) fun body _ _ _ => ?_
  refine .bind (.spanFrom _) fun span _ _ _ => .pure ?_
  cases name with
  | none => rfl
  | some token => rfl

theorem agree_tryWith (start : Nat) (short : cursor.tail.rest.length < bound) :
    texts.Agree False (tryWith stmt start) (tryWith stmt' (texts.move start)) cursor := by
  refine .bind (agree_advance 1) fun _ after read _ => ?_
  obtain rfl : cursor.tail = after := congrArg Prod.snd read
  refine .bind agree_resources fun spans after _ reaches => ?_
  have short := reaches.lt short
  refine .bind (agree_blockWith stmts ((reaches_accept _ _).lt short)) fun body _ _ reaches => ?_
  have short := reaches.lt short
  refine .bind (.many (fun after reaches => agree_handlerWith stmts (reaches.lt short))
    fun before _ _ => reads_handlerWith stmts.laysOut before) fun handlers _ _ reaches => ?_
  have short := reaches.lt short
  refine .bind (agree_acceptWord _) fun isFinally after _ reaches => ?_
  have short := (reaches_accept .openBrace after).lt (reaches.lt short)
  refine .ite_bind (fun _ => .map (agree_blockWith stmts short) fun _ => rfl) (fun _ => .pure rfl)
    fun cleanup _ _ _ => ?_
  refine .bind (.spanFrom _) fun span _ _ _ => .pure ?_
  exact (relocate_tries _ _ _ _ _ _).symm

variable {left right : Rules} (rules : texts.LabelRulesAgree left right bound)

include rules

/-- A `for` statement after its first part. -/
theorem agree_forRest (start : Nat) (init : ForInit) (short : cursor.rest.length < bound) :
    let parser (rules : Rules) (stmt : Parser Stmt) (start : Nat) (init : ForInit) :
        Parser Stmt := do
      discard <| accept .semicolon
      let condition ← if (← get).isAt .semicolon then pure none else rules.expr
      discard <| accept .semicolon
      let update ← exprsWith rules .closeParen
      discard <| accept .closeParen
      let body ← stmt
      return .forLoop (← Parser.spanFrom start) init condition update body
    texts.Agree False (parser left stmt start init)
      (parser right stmt' (texts.move start) (relocate texts.move init)) cursor := by
  refine .bind (.discard (agree_accept _ fun _ => by decide)) fun _ _ _ reaches => ?_
  have short := reaches.lt short
  refine .get fun other _ shows => ?_
  rw [shows.isAt_eq]
  refine .ite_bind (fun _ => .pure rfl) (fun _ => rules.expr short) fun condition _ _ reaches => ?_
  have short := reaches.lt short
  refine .bind (.discard (agree_accept _ fun _ => by decide)) fun _ _ _ reaches => ?_
  have short := reaches.lt short
  refine .bind (agree_exprsWith rules.toRulesAgree _ short) fun update _ _ reaches => ?_
  have short := reaches.lt short
  refine .bind (.discard (agree_accept _ fun _ => by decide)) fun _ _ _ reaches => ?_
  refine .bind (stmts.agree (reaches.lt short)) fun body _ _ _ => ?_
  exact .bind (.spanFrom _) fun span _ _ _ => .pure rfl

theorem agree_forWith (start : Nat) (short : cursor.tail.rest.length < bound) :
    texts.Agree False (forWith left stmt start) (forWith right stmt' (texts.move start))
      cursor := by
  refine .bind (agree_advance 1) fun _ after read _ => ?_
  obtain rfl : cursor.tail = after := congrArg Prod.snd read
  refine .bind (.discard (agree_accept _ fun _ => by decide)) fun _ _ _ reaches => ?_
  have short := reaches.lt short
  refine .bind_option agree_forEachHeader? (fun after _ reaches => ?_) fun element _ _ reaches => ?_
  · have short := reaches.lt short
    refine .get fun other _ shows => ?_
    rw [shows.isAt_eq]
    refine .ite (fun _ => agree_forRest stmts rules start .nothing short) fun _ => ?_
    refine .bind_option (agree_variablesWith rules.toRulesAgree short) (fun _ _ reaches => ?_)
      fun declaration _ _ reaches =>
        agree_forRest stmts rules start (.locals declaration) (reaches.lt short)
    have short := reaches.lt short
    refine .bind (agree_exprsWith rules.toRulesAgree _ short) fun exprs _ _ reaches => ?_
    exact agree_forRest stmts rules start (.exprs exprs) (reaches.lt short)
  · have short := reaches.lt short
    refine .bind (agree_orMissing (rules.expr short)) fun collection _ _ reaches => ?_
    have short := reaches.lt short
    refine .bind (.discard (agree_accept _ fun _ => by decide)) fun _ _ _ reaches => ?_
    refine .bind (stmts.agree (reaches.lt short)) fun body _ _ _ => ?_
    exact .bind (.spanFrom _) fun span _ _ _ => .pure rfl

theorem agree_groupWith (short : cursor.rest.length < bound) :
    texts.Agree False (groupWith left stmt) (groupWith right stmt') cursor := by
  refine .get fun other _ shows => ?_
  rw [shows.here_eq]
  refine .bind (agree_labelsWith rules short) fun (labels, arrow) _ _ reaches => ?_
  have short := reaches.lt short
  have group (statements : List Stmt) {middle : Cursor} : texts.Agree False
      (Parser.spanFrom cursor.here >>= fun span => pure (.mk span arrow labels statements))
      (Parser.spanFrom (texts.move cursor.here) >>= fun span => pure (SwitchGroup.mk span arrow
        (relocate texts.move labels) (relocate texts.move statements))) middle :=
    .bind (.spanFrom _) fun span _ _ _ => .pure (relocate_group _ span _ _ _).symm
  refine .ite (fun _ => ?_) fun _ => ?_
  · refine .bind (stmts.agree short) fun body _ _ _ => ?_
    exact group [body]
  · refine .bind (.many (fun after reaches => ?_) fun before reaches order => ?_)
      fun statements _ _ _ => group statements
    · refine .get fun other _ shows => ?_
      rw [shows.atEnd_eq, shows.isAt_eq, shows.isAtLabel_eq]
      refine .ite (fun _ => .pure rfl) fun _ => ?_
      exact .bind (stmts.agree (reaches.lt short)) fun _ _ _ _ => .pure rfl
    · have reads := stmts.reads (reaches.lt short) order
      mvcgen [reads] <;> clear reads <;> grind -ring -linarith

theorem agree_switchWith (start : Nat) (short : cursor.tail.rest.length < bound) :
    texts.Agree False (switchWith left stmt start) (switchWith right stmt' (texts.move start))
      cursor := by
  refine .bind (agree_advance 1) fun _ after read _ => ?_
  obtain rfl : cursor.tail = after := congrArg Prod.snd read
  refine .bind (agree_conditionWith rules.toRulesAgree short) fun selector _ _ reaches => ?_
  have short := reaches.lt short
  refine .bind (.discard (agree_accept _ fun _ => by decide)) fun _ _ _ reaches => ?_
  have short := reaches.lt short
  refine .bind (.many (fun after reaches => ?_) fun before reaches order => ?_)
    fun groups _ _ _ => ?_
  · refine .get fun other _ shows => ?_
    rw [shows.atEnd_eq, shows.isAt_eq]
    refine .ite (fun _ => .pure rfl) fun _ => ?_
    exact .bind (agree_groupWith stmts rules (reaches.lt short)) fun _ _ _ _ => .pure rfl
  · have reads (more : before.atEnd = false) (inside : before.isAt .closeBrace = false) :=
      reads_groupWith stmts.laysOut rules.reads before more inside
        (stmts.reads (reaches.lt short) order more)
    mvcgen [reads, -placed_groupWith, -laidOut_groupWith] <;> clear reads <;> grind -ring -linarith
  · refine .bind (.discard (agree_accept _ False.elim)) fun _ _ _ _ => ?_
    refine .bind (.spanFrom _) fun span _ _ _ => .pure ?_
    exact (relocate_switch _ _ _ _).symm

end Stmts

/-- A statement agrees, if the statements in it agree where fewer tokens are left. -/
theorem agree_stmtAtWith {stmt stmt' : Parser Stmt} {left right : Rules} {bound : Nat}
    (stmts : texts.StmtAgree stmt stmt' bound)
    (rules : texts.LabelRulesAgree left right (bound + 1))
    {token : Token} {rest : List Token} (rest_eq : cursor.rest = token :: rest)
    (short : cursor.rest.length ≤ bound) :
    texts.Agree False (stmtAtWith left stmt token)
      (stmtAtWith right stmt' (relocate texts.move token)) cursor := by
  have inner := rules.of_le (Nat.le_succ bound)
  have whole : cursor.rest.length < bound + 1 := Nat.lt_succ_of_le short
  have short : cursor.tail.rest.length < bound := Nat.lt_of_lt_of_le (length_tail_lt rest_eq) short
  have step {p q : Unit → Parser Stmt} (agree : texts.Agree False (p ()) (q ()) cursor.tail) :
      texts.Agree False (advance 1 >>= p) (advance 1 >>= q) cursor := by
    refine .bind (agree_advance 1) fun _ after read _ => ?_
    obtain rfl : cursor.tail = after := congrArg Prod.snd read
    exact agree
  refine .get fun other _ shows => ?_
  have kind_eq : (relocate texts.move token).kind = token.kind := rfl
  have text_eq : (relocate texts.move token).text = token.text := rfl
  simp only [kind_eq, text_eq]
  split
  · exact step (.bind (.spanFrom _) fun span _ _ _ => .pure rfl)
  · next brace =>
    have opened : (accept .openBrace cursor).2.rest.length < bound := by
      rw [accept_of_isAt (brace ▸ Cursor.isAt_of_head rest_eq)]
      exact short
    exact .bind (agree_blockWith stmts opened) fun block _ _ _ => .pure rfl
  · exact agree_declarationWith rules.toRulesAgree _ whole
  · next word =>
    split
    · refine step (.bind (agree_conditionWith inner.toRulesAgree short) fun _ _ _ reaches => ?_)
      have short := reaches.lt short
      refine .bind (stmts.agree short) fun whenTrue _ _ reaches => ?_
      have short := reaches.lt short
      refine .bind (agree_acceptWord _) fun isElse _ _ reaches => ?_
      have short := reaches.lt short
      refine .ite_bind (fun _ => .map (stmts.agree short) fun _ => rfl) (fun _ => .pure rfl)
        fun whenFalse _ _ _ => ?_
      refine .bind (.spanFrom _) fun span _ _ _ => .pure ?_
      exact (relocate_conditional _ _ _ _ _).symm
    · refine step (.bind (agree_conditionWith inner.toRulesAgree short) fun _ _ _ reaches => ?_)
      refine .bind (stmts.agree (reaches.lt short)) fun body _ _ _ => ?_
      exact .bind (.spanFrom _) fun span _ _ _ => .pure rfl
    · refine step (.bind (stmts.agree short) fun body _ _ reaches => ?_)
      have short := reaches.lt short
      refine .bind (.discard (agree_acceptWord _)) fun _ _ _ reaches => ?_
      have short := reaches.lt short
      refine .bind (agree_conditionWith inner.toRulesAgree short) fun condition _ _ _ => ?_
      refine .bind (.discard (agree_accept _ fun _ => by decide)) fun _ _ _ _ => ?_
      exact .bind (.spanFrom _) fun span _ _ _ => .pure rfl
    · exact agree_forWith stmts inner _ short
    · exact agree_tryWith stmts _ short
    · refine step (.get fun other _ shows => ?_)
      rw [shows.isAt_eq]
      refine .ite_bind (fun _ => .pure rfl)
        (fun _ => .map (agree_orMissing (inner.expr short)) fun _ => rfl) fun value _ _ _ => ?_
      refine .bind (.discard (agree_accept _ fun _ => by decide)) fun _ _ _ _ => ?_
      exact .bind (.spanFrom _) fun span _ _ _ => .pure rfl
    · refine step (.bind (agree_orMissing (inner.expr short)) fun value _ _ _ => ?_)
      refine .bind (.discard (agree_accept _ fun _ => by decide)) fun _ _ _ _ => ?_
      exact .bind (.spanFrom _) fun span _ _ _ => .pure rfl
    · refine step (.bind (agree_orMissing (inner.expr short)) fun condition _ _ reaches => ?_)
      have short := reaches.lt short
      refine .bind (agree_accept _ fun _ => by decide) fun isColon _ _ reaches => ?_
      have short := reaches.lt short
      refine .ite_bind (fun _ => .map (agree_orMissing (inner.expr short)) fun _ => rfl)
        (fun _ => .pure rfl) fun message _ _ _ => ?_
      refine .bind (.discard (agree_accept _ fun _ => by decide)) fun _ _ _ _ => ?_
      exact .bind (.spanFrom _) fun span _ _ _ => .pure rfl
    · have clear : ¬cursor.isAt .closeBrace :=
        not_isAt_closeBrace_of_isAt (Cursor.isAt_of_head rest_eq) (by rw [word]; decide)
      rw [shows.isAhead_one_eq _ clear, shows.isAhead_one_eq _ clear, shows.isAtIdentifier_eq]
      refine .ite (fun _ => ?_) fun _ => .ite (fun _ => ?_) fun _ => .ite (fun _ => ?_) fun _ =>
        .ite (fun _ => ?_) fun _ => ?_
      · refine step (.get fun other _ shows => ?_)
        rw [shows.isAtIdentifier_eq]
        refine .ite_bind (fun _ => agree_next? False.elim) (fun _ => .pure rfl)
          fun label _ _ _ => ?_
        refine .bind (.discard (agree_accept _ fun _ => by decide)) fun _ _ _ _ => ?_
        refine .bind (.spanFrom _) fun span _ _ _ => .pure ?_
        cases label with
        | none => rfl
        | some token => rfl
      · exact agree_switchWith stmts inner _ short
      · refine step (.bind (agree_conditionWith inner.toRulesAgree short) fun _ _ _ reaches => ?_)
        have short := (reaches_accept .openBrace _).lt (reaches.lt short)
        refine .bind (agree_blockWith stmts short) fun body _ _ _ => ?_
        exact .bind (.spanFrom _) fun span _ _ _ => .pure rfl
      · refine .bind (agree_advance 2) fun _ after read _ => ?_
        obtain rfl : cursor.tail.tail = after := congrArg Prod.snd read
        have short : cursor.tail.tail.rest.length < bound :=
          (Cursor.Reaches.tail .refl : cursor.tail.Reaches cursor.tail.tail).lt short
        refine .bind (stmts.agree short) fun body _ _ _ => ?_
        exact .bind (.spanFrom _) fun span _ _ _ => .pure rfl
      · exact agree_declarationWith rules.toRulesAgree _ whole
  · exact agree_exprStmtWith rules.toRulesAgree _ whole

end Parallel

end JavaOutline
