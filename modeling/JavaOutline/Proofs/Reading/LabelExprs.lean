import JavaOutline.Proofs.Reading.LabelTokens
import JavaOutline.Proofs.Reading.LambdaPlaces

/-!
# The expressions of a label before a colon and before an arrow

In front of the arrow that ends a label, a name or a group in parentheses looks like the head of a
lambda. It is taken for one where a lambda may stand, such as after a cast or in the last branch of
a conditional expression. The rules of the grammar follow themselves in front of an arrow unless
what they read has a part that begins at such a place.
-/

set_option mvcgen.warning false

open Std.Do

namespace JavaOutline

namespace LabelEnds

open JavaOutline.Parser JavaOutline.Expr

variable {ends : LabelEnds} {cursor before after other head : Cursor}

/-! ## Expressions -/

section Parts

variable {stays : Prop}

theorem follows_excerptFrom (start : Nat) (kind : ExcerptKind) {opens : Cursor → Expr → Prop} :
    ends.Follows stays opens (excerptFrom start kind) (excerptFrom start kind) cursor :=
  .bind (follows_spanFrom start) fun _ _ _ _ => .pure rfl

theorem follows_orMissing {parser : Parser (Option Expr)} {opens : Cursor → Expr → Prop}
    (follows : ends.Follows stays (OpensSome opens) parser parser cursor) :
    ends.Follows stays opens (orMissing parser) (orMissing parser) cursor := by
  refine .bind_opens follows (fun result _ _ _ => ?_) fun result _ _ _ _ head _ _ _ opened => ?_
  · cases result with
    | none => exact follows_missing
    | some expr => exact .pure rfl
  · obtain ⟨expr, rfl, opened⟩ := opened
    exact opened

theorem follows_accept_arrow (found : cursor.isAt .arrow = true) :
    ends.Follows stays OpensNone (accept .arrow) (accept .arrow) cursor := by
  refine .of_mirrors (passes_accept .arrow cursor).reaches fun other mirrors _ => ?_
  obtain ⟨window, behind, rfl, rfl⟩ := mirrors.exists_window
  cases window with
  | nil => simp [withColon, ends.is_colon] at found
  | cons token window =>
      have arrow : token.kind = .arrow := by simpa using found
      simp only [List.cons_append, accept_apply, Cursor.isAt_cons, arrow, decide_true, if_true,
        true_and]
      exact (mirrors_window window token.span.stop).abreast

end Parts

/-- A lambda begins with a name or a parenthesis. -/
theorem IsHead.begins (is_head : ends.IsHead cursor) :
    cursor.isAtIdentifier = true ∨ cursor.isAt .openParen = true := by
  obtain ⟨other, mirrors, -, lambda⟩ := is_head
  rw [Cursor.isAtLambda, mirrors.shows.isAtIdentifier_eq,
    mirrors.shows.isAt_eq .openParen (by decide) (by decide)] at lambda
  simp only [Bool.or_eq_true, Bool.and_eq_true] at lambda
  exact lambda.imp And.left And.left

/-- A name that looks like the head of a lambda ends the label. -/
theorem IsHead.isAt_openParen (is_head : ends.IsHead head) (reaches : head.Reaches before)
    (inside : ends.Inside before) (goes_on : before.isAt .doubleColon = true) :
    head.isAt .openParen = true := by
  by_contra no_group
  have identifier := is_head.begins.resolve_right no_group
  obtain ⟨other, mirrors, not_lambda, lambda⟩ := is_head
  obtain ⟨window, behind, rfl, rfl⟩ := mirrors.exists_window
  rcases window with _ | ⟨token, _ | ⟨next, window⟩⟩
  · simp [withColon, Cursor.isAtIdentifier, ends.is_colon] at identifier
  · rcases reaches.eq_or_tail with rfl | later
    · have no_colons : token.kind ≠ .doubleColon := by
        have word := (Bool.and_eq_true_iff.mp identifier).1
        simp [of_decide_eq_true word]
      simp [no_colons] at goes_on
    · rcases later.eq_or_tail with rfl | later
      · simp [withColon, ends.is_colon] at goes_on
      · have shorter := later.length_le
        simp only [withColon, Inside, List.cons_append, List.nil_append, Cursor.tail_cons,
          List.length_cons] at shorter inside
        omega
  · simp only [Bool.not_eq_true] at no_group
    have same : Cursor.isAtLambda ⟨token :: next :: window ++ ends.withColon, behind⟩ =
        Cursor.isAtLambda ⟨token :: next :: window ++ ends.withArrow, behind⟩ := by
      simp only [List.cons_append, Cursor.isAt_cons] at no_group ⊢
      simp [Cursor.isAtLambda, no_group, Cursor.isAtIdentifier]
    rw [same, lambda] at not_lambda
    cases not_lambda

theorem follows_afterArgument {argument : Expr} {opens : Cursor → Option Expr → Prop} :
    ends.Follows False opens (afterArgument argument) (afterArgument argument) cursor := by
  refine .bind (follows_accept .comma nofun False.elim) fun accepted after _ _ => ?_
  refine .ite (fun _ => .pure rfl) fun _ => .get fun other shows => ?_
  rw [shows.isAt_eq .closeParen nofun nofun]
  refine .ite (fun _ => .pure rfl) fun _ => .bind (follows_skipTo (by decide)) fun _ _ _ _ => ?_
  exact .bind (.discard (follows_accept .comma nofun False.elim)) fun _ _ _ _ => .pure rfl

theorem follows_castHead (opened : cursor.isAt .openParen = true) :
    ends.Follows stays OpensNone castHead castHead cursor := by
  have goes_on := Cursor.isAt_eq_false_of_isAt opened .colon nofun
  refine .bind (follows_advance_one fun _ => goes_on) fun _ _ _ _ => ?_
  refine .bind follows_typeRef? fun type _ _ _ => ?_
  cases type with
  | none => exact .pure rfl
  | some type =>
      refine .bind (follows_castType? type) fun type _ _ _ => ?_
      cases type with
      | none => exact .pure rfl
      | some type =>
          refine .bind (follows_accept .closeParen nofun nofun) fun _ _ _ _ => ?_
          refine .ite (fun _ => .get fun other shows => ?_) fun _ => .pure rfl
          rw [shows.isAtOperand_eq, shows.isAhead_zero_eq (by decide) (by decide)]
          exact .ite (fun _ => .pure rfl) fun _ => .pure rfl

theorem follows_typeArgumentsBefore {operand : Expr} :
    ends.Follows stays OpensNone (typeArgumentsBefore operand) (typeArgumentsBefore operand)
      cursor := by
  refine .bind (.discard follows_skipTypeArguments) fun _ _ _ _ => .get fun other shows => ?_
  rw [shows.isAt_eq .doubleColon nofun nofun]
  exact .ite (fun _ => .pure rfl) fun _ => .pure rfl

section Iterated

open Construct

variable {first : Parser (Option Expr)} {step : Expr → Parser (Option Expr)} {start origin : Cursor}
  (advances : ∀ operand, Advances (step operand))
  (extended : ∀ operand (before : Cursor), before.IsOrdered →
    ⦃before.place⦄ step operand ⦃⇓ result after =>
      ⌜operand.Extends before (result.getD operand) after⌝⦄)
  (grows : ∀ (operand : Expr) (before : Cursor),
    Gives (operand.GrowsSome (before.isAt .doubleColon = true)) (step operand) before)

include advances extended grows

/-- What an operand opens is still opened after the selectors or operators after it. -/
theorem carries_of_grows (order : start.IsOrdered) (reaches : start.Reaches origin) :
    ends.Carries False Opens (fun operand after => AllPlaced [.expr operand] start after ∧
      (Construct.expr operand).isSolid) step origin where
  advances := advances
  keeps := by
    rintro operand result cursor onward ⟨placed, solid⟩ goes_on
    have order' := order.reaches (reaches.trans onward)
    have extends_on := triple_iff.mp (extended operand cursor order') cursor rfl
    rw [goes_on] at extends_on
    exact ⟨extends_on.placed placed solid, extends_on.solid solid⟩
  carries := by
    rintro operand result cursor head onward ⟨placed, -⟩ goes_on within is_head begun passed opened
    have later := (advances operand cursor).1
    have inside := (within.resolve_left id).of_reaches later
    have start_le : operand.span.start ≤ head.here := by
      cases placed with
      | cons toFirst placed _ => exact opened.start_le placed (order.reaches toFirst)
    have behind_le : head.behind ≤ (step operand cursor).2.behind := by
      obtain ⟨source, inOrder⟩ := order
      exact (inOrder.reaches (reaches.trans begun)).behind_le (passed.trans later)
    exact (grows operand cursor result goes_on).opens start_le behind_le
      (is_head.isAt_openParen passed inside) opened

/-- What reads an operand and the selectors or operators after it follows itself if its parts do. -/
theorem follows_iterated
    (placed : ∀ before : Cursor, before.IsOrdered →
      ⦃before.place⦄ first ⦃⇓ result after => ⌜OperandRead? result before after⌝⦄)
    (follows : ends.Follows False (OpensSome Opens) first first cursor)
    (follows_step : ∀ operand after,
      ends.Follows False (OpensSome Opens) (step operand) (step operand) after) :
    ends.Follows False (OpensSome Opens)
      (do
        match ← first with
        | none => return none
        | some operand => return some (← iterate step operand))
      (do
        match ← first with
        | none => return none
        | some operand => return some (← iterate step operand)) cursor := by
  refine .of_ordered fun order => ?_
  have held := triple_iff.mp (placed cursor order) cursor rfl
  have carries {origin : Cursor} (reaches : cursor.Reaches origin) :
      ends.Carries False Opens (fun operand after => AllPlaced [.expr operand] cursor after ∧
        (Construct.expr operand).isSolid) step origin :=
    carries_of_grows advances extended grows order reaches
  refine .bind_opens follows (fun operand after read reaches => ?_)
    fun operand after read reaches within head is_head begun passed opened => ?_
  · rw [read] at held
    cases operand with
    | none => exact .pure rfl
    | some operand =>
        refine .bind_opens (.loop (carries reaches) advances held fun operand after _ _ =>
          follows_step operand after) (fun _ _ _ _ => .pure rfl) ?_
        exact fun _ _ _ _ _ _ _ _ _ opened => ⟨_, rfl, opened⟩
  · rw [read] at held
    obtain ⟨operand, rfl, opened⟩ := opened
    exact ⟨_, rfl, (carries .refl).iterateUpTo (n := after.rest.length + 1) reaches held within
      is_head begun passed opened⟩

end Iterated

/-- Whether the rules of the grammar follow themselves in front of an arrow, unless what they read
has a part where a lambda may stand. -/
structure RulesFollow (ends : LabelEnds) (rules : Rules) : Prop where
  reads : rules.Reads
  expr (cursor : Cursor) :
    ends.Follows False (OpensSome OpensAt) rules.expr rules.expr cursor
  conditional (cursor : Cursor) :
    ends.Follows False (OpensSome Opens) rules.conditional rules.conditional cursor
  binary (least : Nat) (cursor : Cursor) :
    ends.Follows False (OpensSome Opens) (rules.binary least) (rules.binary least) cursor
  unary (cursor : Cursor) :
    ends.Follows False (OpensSome Opens) rules.unary rules.unary cursor
  primary (cursor : Cursor) :
    ends.Follows False (OpensSome Opens) rules.primary rules.primary cursor
  unary_begins {cursor : Cursor}
    (begins : cursor.isAtIdentifier = true ∨ cursor.isAt .openParen = true) :
    (orMissing rules.unary cursor).1.span.start = cursor.here
  conditional_begins {cursor : Cursor}
    (begins : cursor.isAtIdentifier = true ∨ cursor.isAt .openParen = true) :
    (orMissing rules.conditional cursor).1.span.start = cursor.here

/-- What is read where a lambda may stand is a lambda in front of the arrow only if it is one in
front of the colon, unless it is opened. -/
theorem Follows.lambda_or {α : Type} {opens : Cursor → α → Prop} {p q : Parser α}
    (lambda : cursor.isAtLambda = true → ends.Follows False opens p p cursor)
    (plain : ends.Follows False opens q q cursor)
    (opened : ends.IsHead cursor → opens cursor (q cursor).1) (shows : ends.Shows cursor other) :
    ends.Follows False opens (if cursor.isAtLambda then p else q)
      (if other.isAtLambda then p else q) cursor := by
  cases here : cursor.isAtLambda with
  | true =>
      rw [shows.isAtLambda here]
      exact lambda here
  | false =>
      cases there : other.isAtLambda with
      | false => exact plain
      | true =>
          intro order
          have reaches := (plain order).1
          refine ⟨reaches, fun _ _ _ silent => ?_⟩
          have is_head := shows.isHead here there
          exact (silent cursor is_head .refl reaches (opened is_head)).elim

section Rules

variable {rules : Rules} (follow : ends.RulesFollow rules)

include follow

/-- A head in the body of a lambda is one in its excerpt. -/
theorem follows_lambdaWith (lambda : cursor.isAtLambda = true) :
    ends.Follows False Opens (lambdaWith rules) (lambdaWith rules) cursor := by
  refine .of_ordered fun order => .get fun other shows => ?_
  rw [shows.isAt_eq .openParen nofun nofun, shows.here_eq]
  refine .ite_bind (fun _ => follows_skipParens) (fun _ => follows_advance_one False.elim)
    fun _ arrow read to_arrow => ?_
  have at_arrow : arrow.isAt .arrow = true := by
    have found := isAt_arrow_of_isAtLambda lambda
    rwa [read] at found
  refine .bind (.discard (follows_accept_arrow at_arrow)) fun _ body _ to_body => ?_
  refine .get fun other shows => ?_
  rw [shows.isAt_eq .openBrace nofun nofun]
  refine .ite (fun _ => .bind follows_skipBraces fun _ _ _ _ => follows_excerptFrom _ _) fun _ => ?_
  refine .bind_opens (follow.expr body) (fun result _ _ _ => ?_)
    fun result after _ _ _ head _ to_head to_after opened => ?_
  · cases result with
    | none => exact follows_missing
    | some _ => exact follows_excerptFrom _ _
  · obtain ⟨expr, rfl, -⟩ := opened
    obtain ⟨source, inOrder⟩ := order
    have to_head := (to_arrow.trans to_body).trans to_head
    refine .excerpt (inOrder.here_le to_head) ?_ nofun
    exact ((inOrder.reaches to_head).behind_le to_after).trans (Nat.le_max_left _ _)

theorem follows_valueWith : ends.Follows False OpensAt (valueWith rules) (valueWith rules)
    cursor := by
  refine .get fun other shows => ?_
  rw [shows.isAt_eq .openBrace nofun nofun, shows.here_eq]
  refine .ite (fun _ => ?_) fun _ => follows_orMissing (follow.expr cursor)
  exact .bind follows_skipBraces fun _ _ _ _ => follows_excerptFrom _ _

theorem follows_lambda_or {parser : Parser Expr}
    (follows : ends.Follows False Opens parser parser cursor)
    (start_eq : cursor.isAtIdentifier = true ∨ cursor.isAt .openParen = true →
      (parser cursor).1.span.start = cursor.here) (shows : ends.Shows cursor other) :
    ends.Follows False OpensAt (if cursor.isAtLambda then lambdaWith rules else parser)
      (if other.isAtLambda then lambdaWith rules else parser) cursor := by
  refine .lambda_or (fun lambda => ?_) ?_ (fun is_head => .inl (start_eq is_head.begins)) shows
  · exact (follows_lambdaWith follow lambda).weaken fun _ _ => .inr
  · exact follows.weaken fun _ _ => .inr

/-- What is read where a lambda may stand, and what is read after it. -/
theorem Follows.lambda_or_bind {α : Type} {opens : Cursor → α → Prop} {parser : Parser Expr}
    {f g : Expr → Parser α} (follows : ends.Follows False Opens parser parser cursor)
    (start_eq : cursor.isAtIdentifier = true ∨ cursor.isAt .openParen = true →
      (parser cursor).1.span.start = cursor.here) (shows : ends.Shows cursor other)
    (later : ∀ value after, cursor.Reaches after →
      ends.Follows False opens (f value) (g value) after)
    (carry : ∀ value after head, OpensAt head value → opens head (f value after).1) :
    ends.Follows False opens
      (if cursor.isAtLambda then lambdaWith rules >>= f else parser >>= f)
      (if other.isAtLambda then lambdaWith rules >>= g else parser >>= g) cursor := by
  have bind_ite {condition : Prop} [Decidable condition] {h : Expr → Parser α} :
      (if condition then lambdaWith rules >>= h else parser >>= h) =
        (if condition then lambdaWith rules else parser) >>= h := by
    split <;> rfl
  rw [bind_ite, bind_ite]
  exact .bind_opens (follows_lambda_or follow follows start_eq shows)
    (fun value after _ reaches => later value after reaches)
    fun value after _ _ _ head _ _ _ => carry value after head

theorem follows_argumentWith :
    ends.Follows False (OpensSome OpensAt) (argumentWith rules) (argumentWith rules) cursor := by
  refine .get fun other shows => ?_
  rw [shows.atEnd_eq, shows.isAt_eq .closeParen nofun nofun]
  refine .ite (fun _ => .pure rfl) fun _ => ?_
  refine .bind_opens (follow.expr cursor) (fun argument after _ _ => ?_)
    fun argument after _ _ _ head _ _ _ opened => ?_
  · cases argument with
    | some argument => exact .bind (.pure rfl) fun _ _ _ _ => follows_afterArgument
    | none =>
        refine .bind follows_missing fun _ _ _ _ => ?_
        refine .bind (follows_advance_one False.elim) fun _ _ _ _ => ?_
        exact .bind (.pure rfl) fun _ _ _ _ => follows_afterArgument
  · obtain ⟨argument, rfl, opened⟩ := opened
    exact ⟨argument, gives_afterArgument, opened⟩

theorem follows_argumentsWith :
    ends.Follows False (OpensAny OpensAt) (argumentsWith rules) (argumentsWith rules) cursor := by
  have advances := advances_argumentWith follow.reads
  rw [argumentsWith_eq]
  refine .bind (.discard (follows_accept .openParen nofun False.elim)) fun _ after _ _ => ?_
  refine .bind_opens (.many advances advances fun after _ => follows_argumentWith follow)
    (fun arguments after _ _ => ?_) fun arguments after _ _ _ head _ _ _ opened => ?_
  · exact .bind (.discard (follows_accept .closeParen nofun False.elim)) fun _ _ _ _ => .pure rfl
  · exact opened

/-- What takes arguments opens what they do. -/
theorem follows_call (construct : Span → List Expr → Expr) (start : Nat)
    (places : ∀ span arguments, (construct span arguments).lambdaPlaces = arguments) :
    ends.Follows False (OpensSome Opens) (do
      let arguments ← argumentsWith rules
      return some (construct (← spanFrom start) arguments)) (do
      let arguments ← argumentsWith rules
      return some (construct (← spanFrom start) arguments)) cursor := by
  refine .bind_opens (follows_argumentsWith follow) (fun arguments after _ _ => ?_)
    fun arguments after _ _ _ head _ _ _ opened => ?_
  · exact .bind (follows_spanFrom start) fun _ _ _ _ => .pure rfl
  · obtain ⟨argument, member, opened⟩ := opened
    exact ⟨_, rfl, .of_place (by rwa [places]) opened⟩

theorem follows_creationWith (outer : Option Expr) (start : Nat) :
    ends.Follows False Opens (creationWith rules outer start) (creationWith rules outer start)
      cursor := by
  refine .bind (.discard (follows_acceptWord "new")) fun _ _ _ _ => ?_
  refine .bind (.discard follows_skipTypeArguments) fun _ _ _ _ => ?_
  refine .bind follows_typeRef fun type _ _ _ => .get fun other shows => ?_
  rw [shows.isAt_eq .openBracket nofun nofun, shows.isAt_eq .openBrace nofun nofun,
    shows.isAt_eq .openParen nofun nofun]
  refine .ite (fun _ => ?_) fun _ => ?_
  · have step (after : Cursor) : ends.Follows False OpensNone
        (do let bracket := (← get).isAt .openBracket; skipBrackets; return bracket)
        (do let bracket := (← get).isAt .openBracket; skipBrackets; return bracket) after :=
      .get fun other shows => .bind follows_skipBrackets fun _ _ _ _ =>
        .pure (shows.isAt_eq .openBracket nofun nofun)
    refine .bind (.repeatWhile advances_bracketsStep advances_bracketsStep
      fun after _ => step after) fun _ _ _ _ => ?_
    exact .bind follows_skipBraces fun _ _ _ _ => follows_excerptFrom _ _
  · refine .ite_bind_opens (fun _ => follows_argumentsWith follow) (fun _ => .pure rfl)
      (fun arguments after _ _ => ?_) fun arguments after _ _ _ head _ _ _ opened => ?_
    · refine .get fun other shows => ?_
      rw [shows.isAt_eq .openBrace nofun nofun, shows.here_eq]
      refine .ite (fun _ => ?_) fun _ => ?_
      · refine .bind follows_skipBraces fun _ _ _ _ => .bind (follows_spanFrom _) fun _ _ _ _ => ?_
        exact .bind (.pure rfl) fun _ _ _ _ => .bind (follows_spanFrom _) fun _ _ _ _ => .pure rfl
      · exact .bind (.pure rfl) fun _ _ _ _ => .bind (follows_spanFrom _) fun _ _ _ _ => .pure rfl
    · obtain ⟨argument, member, opened⟩ := opened
      change Gives (fun expr _ => Opens head expr) _ after
      refine .get (.ite (.bind fun _ _ => .bind fun _ _ => .bind fun _ _ => .bind fun _ _ => ?_)
        (.bind fun _ _ => .bind fun _ _ => ?_))
      · cases outer with
        | none => exact .of_place member opened
        | some outer => exact .of_place member opened
      · cases outer with
        | none => exact .of_place member opened
        | some outer => exact .of_place member opened

theorem follows_wordWith (token : Token) :
    ends.Follows False (OpensSome Opens) (wordWith rules token) (wordWith rules token) cursor := by
  have advanced {result : Option Expr} : ends.Follows False (OpensSome Opens)
      (do advance 1; return result) (do advance 1; return result) cursor :=
    .bind (follows_advance_one False.elim) fun _ _ _ _ => .pure rfl
  refine .ite (fun _ => advanced) fun _ => .ite (fun _ => advanced) fun _ => ?_
  refine .ite (fun _ => ?_) fun _ => .ite (fun _ => ?_) fun _ => ?_
  · refine .bind (follows_advance_one False.elim) fun _ _ _ _ => .get fun other shows => ?_
    rw [shows.isAt_eq .openParen nofun nofun]
    exact .ite (fun _ => follows_call follow (.call · _ ·) _ fun _ _ => rfl) fun _ => .pure rfl
  · refine .bind_opens (follows_creationWith follow none _) (fun _ _ _ _ => .pure rfl)
      fun _ _ _ _ _ _ _ _ _ opened => ⟨_, rfl, opened⟩
  refine .ite (fun _ => ?_) fun _ => .ite (fun _ => ?_) fun _ =>
    .ite (fun _ => .pure rfl) fun _ => ?_
  · refine .bind (follows_advance_one False.elim) fun _ _ _ _ => .bind follows_skipParens ?_
    refine fun _ _ _ _ => .bind follows_skipBraces fun _ _ _ _ => ?_
    exact .bind (follows_excerptFrom _ _) fun _ _ _ _ => .pure rfl
  · refine .bind (follows_advance_one False.elim) fun _ _ _ _ => ?_
    refine .bind (.discard follows_skipBracketPairs) fun _ _ _ _ => .get fun other shows => ?_
    rw [shows.isAtClass_eq]
    refine .ite (fun _ => ?_) fun _ => ?_
    · refine .bind (follows_advance 2) fun _ _ _ _ => ?_
      exact .bind (follows_excerptFrom _ _) fun _ _ _ _ => .pure rfl
    · exact .bind (follows_spanFrom _) fun _ _ _ _ => .pure rfl
  · refine .bind (follows_advance_one False.elim) fun _ _ _ _ => .get fun other shows => ?_
    rw [shows.isAt_eq .openParen nofun nofun]
    exact .ite (fun _ => follows_call follow (.call · _ ·) _ fun _ _ => rfl) fun _ => .pure rfl

theorem follows_primaryWith :
    ends.Follows False (OpensSome Opens) (primaryWith rules) (primaryWith rules) cursor := by
  refine .get fun other shows => ?_
  obtain ⟨left, right⟩ | ⟨token, rest, more, left, right⟩ | ⟨left, right⟩ := shows.rest_cases
  · rw [left, right]
    exact .pure rfl
  · rw [left, right]
    have literal (kind : LiteralKind) : ends.Follows False (OpensSome Opens)
        (do advance 1; return some (.literal token.span kind token.text))
        (do advance 1; return some (.literal token.span kind token.text)) cursor :=
      .bind (follows_advance_one False.elim) fun _ _ _ _ => .pure rfl
    obtain ⟨kind, text, span⟩ := token
    cases kind with
    | integer | floating | character | string | textBlock => exact literal _
    | openParen =>
        refine .bind (follows_advance_one False.elim) fun _ after _ _ => ?_
        refine .bind_opens (follows_orMissing (follow.expr after)) (fun inner _ _ _ => ?_)
          fun inner _ _ _ _ _ _ _ _ opened => ?_
        · refine .bind (.discard (follows_accept .closeParen nofun False.elim)) fun _ _ _ _ => ?_
          exact .bind (follows_spanFrom _) fun _ _ _ _ => .pure rfl
        · exact ⟨_, rfl, .of_place (List.mem_singleton_self inner) opened⟩
    | openBrace =>
        refine .bind follows_skipBraces fun _ _ _ _ => ?_
        exact .bind (follows_excerptFrom _ _) fun _ _ _ _ => .pure rfl
    | less =>
        refine .bind follows_skipTypeArguments fun _ after _ _ => ?_
        exact .ite (fun _ => follow.primary after) fun _ => .pure rfl
    | word => exact follows_wordWith follow _
    | _ => exact .pure rfl
  · rw [left, right]
    simp only [withColon, withArrow, ends.is_colon, ends.is_arrow]
    exact .pure rfl

theorem follows_selectionWith (receiver : Expr) :
    ends.Follows False (OpensSome Opens) (selectionWith rules receiver)
      (selectionWith rules receiver) cursor := by
  refine .bind (follows_advance_one False.elim) fun _ _ _ _ => ?_
  refine .bind (.discard follows_skipTypeArguments) fun _ _ _ _ => .get fun other shows => ?_
  obtain ⟨left, right⟩ | ⟨token, rest, more, left, right⟩ | ⟨left, right⟩ := shows.rest_cases
  · rw [left, right]
    exact .pure rfl
  · rw [left, right]
    refine .ite (fun _ => .pure rfl) fun _ => .ite (fun _ => ?_) fun _ =>
      .ite (fun _ => ?_) fun _ => ?_
    · exact .bind_opens (follows_creationWith follow (some receiver) _) (fun _ _ _ _ => .pure rfl)
        fun _ _ _ _ _ _ _ _ _ opened => ⟨_, rfl, opened⟩
    · refine .bind (follows_advance_one False.elim) fun _ _ _ _ => ?_
      exact .bind (follows_excerptFrom _ _) fun _ _ _ _ => .pure rfl
    · refine .bind (follows_advance_one False.elim) fun _ _ _ _ => .get fun other shows => ?_
      rw [shows.isAt_eq .openParen nofun nofun]
      refine .ite (fun _ => follows_call follow (.memberCall · receiver _ ·) _ fun _ _ => rfl)
        fun _ => .bind (follows_spanFrom _) fun _ _ _ _ => .pure rfl
  · rw [left, right]
    simp only [withColon, withArrow, ends.is_colon, ends.is_arrow]
    exact .pure rfl

theorem follows_indexWith (array : Expr) :
    ends.Follows False Opens (indexWith rules array) (indexWith rules array) cursor := by
  refine .get fun other shows => ?_
  rw [shows.isAtBrackets_eq]
  refine .ite (fun _ => ?_) fun _ => .bind (follows_advance_one False.elim) fun _ after _ _ => ?_
  · refine .bind (.discard follows_skipBracketPairs) fun _ _ _ _ => .get fun other shows => ?_
    rw [shows.isAtClass_eq]
    refine .ite (fun _ => ?_) fun _ => .pure rfl
    exact .bind (follows_advance 2) fun _ _ _ _ => follows_excerptFrom _ _
  · refine .bind_opens (follows_orMissing (follow.expr after)) (fun index _ _ _ => ?_)
      fun index _ _ _ _ _ _ _ _ opened => ?_
    · refine .bind (.discard (follows_accept .closeBracket nofun False.elim)) fun _ _ _ _ => ?_
      exact .bind (follows_spanFrom _) fun _ _ _ _ => .pure rfl
    · exact .of_place (List.mem_singleton_self index) opened

omit follow in
theorem follows_methodReference (receiver : Expr) :
    ends.Follows False Opens (methodReference receiver) (methodReference receiver) cursor := by
  refine .bind (follows_advance_one False.elim) fun _ _ _ _ => ?_
  refine .bind (.discard follows_skipTypeArguments) fun _ _ _ _ => .get fun other shows => ?_
  rw [shows.isAt_eq .word nofun nofun]
  refine .ite (fun _ => ?_) fun _ => follows_excerptFrom _ _
  exact .bind (follows_advance_one False.elim) fun _ _ _ _ => follows_excerptFrom _ _

theorem follows_selectorWith (operand : Expr) :
    ends.Follows False (OpensSome Opens) (selectorWith rules operand) (selectorWith rules operand)
      cursor := by
  by_cases less : cursor.isAt .less = true
  · refine .congr ?_ (selectorWith_of_less less) fun other shows =>
      selectorWith_of_less (shows.isAt_eq .less nofun nofun ▸ less)
    exact .ite (fun _ => .attempt follows_typeArgumentsBefore) fun _ => .pure rfl
  · have not_less : cursor.kindAhead? 0 ≠ some .less := fun found =>
      less (Cursor.isAt_iff.mpr found)
    refine .get fun other shows => ?_
    rw [shows.updateOp?_eq]
    rcases shows.kindAhead?_zero with same | ⟨colon, arrow⟩
    · rw [same]
      split
      · exact follows_selectionWith follow operand
      · exact .bind_opens (follows_indexWith follow operand) (fun _ _ _ _ => .pure rfl)
          fun _ _ _ _ _ _ _ _ _ opened => ⟨_, rfl, opened⟩
      · exact .bind_opens (follows_methodReference operand) (fun _ _ _ _ => .pure rfl)
          fun _ _ _ _ _ _ _ _ _ opened => ⟨_, rfl, opened⟩
      · next found => exact absurd found not_less
      · split
        · refine .bind (follows_advance_one False.elim) fun _ _ _ _ => ?_
          exact .bind (follows_spanFrom _) fun _ _ _ _ => .pure rfl
        · exact .pure rfl
    · have no_operator : cursor.updateOp? = none := by rw [Cursor.updateOp?, colon]
      rw [colon, arrow, no_operator]
      exact .pure rfl

theorem follows_operandWith :
    ends.Follows False (OpensSome Opens) (operandWith rules) (operandWith rules) cursor := by
  have onward := follow.reads.onward
  exact follows_iterated (fun operand => advances_iff.mpr (reads_selectorWith onward operand))
    (extended_selectorWith follow.reads.placed) (fun _ _ => gives_selectorWith)
    (placed_primaryWith follow.reads.placed) (follows_primaryWith follow)
    fun operand _ => follows_selectorWith follow operand

theorem follows_castWith (opened : cursor.isAt .openParen = true) :
    ends.Follows False (OpensSome Opens) (castWith rules) (castWith rules) cursor := by
  rw [castWith_eq]
  refine .get fun other shows => ?_
  rw [shows.here_eq]
  refine .bind (.attempt (follows_castHead opened)) fun type _ _ _ => ?_
  cases type with
  | none => exact .pure rfl
  | some type =>
      refine .get fun other shows => ?_
      refine .lambda_or_bind follow (follows_orMissing (follow.unary _)) follow.unary_begins shows
        (fun operand _ _ => ?_) fun operand _ _ opened => ?_
      · exact .bind (follows_spanFrom _) fun _ _ _ _ => .pure rfl
      · exact ⟨_, rfl, .of_place (List.mem_singleton_self operand) opened⟩

theorem follows_unaryWith :
    ends.Follows False (OpensSome Opens) (unaryWith rules) (unaryWith rules) cursor := by
  refine .get fun other shows => ?_
  rw [shows.unaryOp?_eq, shows.here_eq, shows.isAt_eq .openParen nofun nofun]
  split
  · refine .bind (follows_advance_one False.elim) fun _ after _ _ => ?_
    refine .bind_opens (follows_orMissing (follow.unary after)) (fun operand _ _ _ => ?_)
      fun operand _ _ _ _ _ _ _ _ opened => ?_
    · exact .bind (follows_spanFrom _) fun _ _ _ _ => .pure rfl
    · exact ⟨_, rfl, .part List.mem_cons_self opened⟩
  · refine .ite (fun opened => ?_) fun _ => follows_operandWith follow
    refine .bind_opens (follows_castWith follow opened) (fun cast _ _ _ => ?_)
      fun cast _ _ _ _ _ _ _ _ opened => ?_
    · cases cast with
      | none => exact follows_operandWith follow
      | some cast => exact .pure rfl
    · obtain ⟨cast, rfl, opened⟩ := opened
      exact ⟨cast, rfl, opened⟩

theorem follows_binaryStepWith (least : Nat) (left : Expr) :
    ends.Follows False (OpensSome Opens) (binaryStepWith rules least left)
      (binaryStepWith rules least left) cursor := by
  refine .get fun other shows => ?_
  rw [shows.isAtWord_eq, shows.binaryOp?_eq]
  refine .ite (fun _ => .ite (fun _ => .pure rfl) fun _ => ?_) fun _ => ?_
  · refine .bind (follows_advance_one False.elim) fun _ _ _ _ => ?_
    refine .bind (.discard (follows_acceptWord "final")) fun _ _ _ _ => ?_
    refine .bind follows_typeRef fun type _ _ _ => .bind follows_skipParens fun _ _ _ _ => ?_
    refine .get fun other shows => ?_
    rw [shows.isAtIdentifier_eq]
    refine .ite_bind (fun found => follows_next? (isAt_colon_of_isAtIdentifier found))
      (fun _ => .pure rfl) fun binding _ _ _ => ?_
    exact .bind (follows_spanFrom _) fun _ _ _ _ => .pure rfl
  · split
    · exact .pure rfl
    · refine .ite (fun _ => .pure rfl) fun _ => .bind (follows_advance _) fun _ after _ _ => ?_
      refine .bind_opens (follows_orMissing (follow.binary _ after)) (fun right _ _ _ => ?_)
        fun right _ _ _ _ _ _ _ _ opened => ?_
      · exact .bind (follows_spanFrom _) fun _ _ _ _ => .pure rfl
      · exact ⟨_, rfl, .part (by simp [parts]) opened⟩

theorem follows_binaryWith (least : Nat) :
    ends.Follows False (OpensSome Opens) (binaryWith rules least) (binaryWith rules least)
      cursor := by
  have onward := follow.reads.onward
  exact follows_iterated (fun left => advances_iff.mpr (reads_binaryStepWith onward least left))
    (extended_binaryStepWith follow.reads.placed least) (fun _ _ => gives_binaryStepWith least)
    (placed_unaryWith follow.reads.placed) (follows_unaryWith follow)
    fun left _ => follows_binaryStepWith follow least left

theorem follows_branchesWith (condition : Expr) :
    ends.Follows False (OpensSome Opens) (branchesWith rules condition)
      (branchesWith rules condition) cursor := by
  refine .bind (follows_accept .question nofun False.elim) fun _ after _ _ => ?_
  refine .ite (fun _ => ?_) fun _ => .pure rfl
  refine .bind_opens (follows_orMissing (follow.expr after)) (fun whenTrue _ _ _ => ?_)
    fun whenTrue after _ _ _ head _ _ _ opened => ?_
  · refine .bind (.discard (follows_accept .colon nofun False.elim)) fun _ after _ _ => ?_
    refine .get fun other shows => ?_
    refine .lambda_or_bind follow (follows_orMissing (follow.conditional after))
      follow.conditional_begins shows (fun whenFalse _ _ => ?_) fun whenFalse _ _ opened => ?_
    · exact .bind (follows_spanFrom _) fun _ _ _ _ => .pure rfl
    · exact ⟨_, rfl, .of_place (by simp [lambdaPlaces]) opened⟩
  · have joined (whenFalse : Expr) (after : Cursor) :
        Gives (fun result _ => OpensSome Opens head result) (do
          return some (.conditional (← spanFrom condition.span.start) condition whenTrue whenFalse))
          after := ⟨_, rfl, .of_place List.mem_cons_self opened⟩
    change Gives (fun result _ => OpensSome Opens head result) _ after
    exact .bind fun _ _ => .get (.ite (.bind joined) (.bind joined))

theorem follows_conditionalWith :
    ends.Follows False (OpensSome Opens) (conditionalWith rules) (conditionalWith rules)
      cursor := by
  rw [conditionalWith_eq]
  refine .bind_opens (follows_binaryWith follow 0) (fun condition _ _ _ => ?_)
    fun condition _ _ _ _ _ _ _ _ opened => ?_
  · cases condition with
    | none => exact .pure rfl
    | some condition => exact follows_branchesWith follow condition
  · obtain ⟨condition, rfl, opened⟩ := opened
    obtain ⟨expr, expr_eq, -, kept⟩ := gives_branchesWith rules condition
    exact ⟨expr, expr_eq, opened.of_kept kept⟩

theorem follows_assignmentWith (target : Expr) :
    ends.Follows False (OpensSome OpensAt) (assignmentWith rules target)
      (assignmentWith rules target) cursor := by
  refine .get fun other shows => ?_
  rw [shows.assignOp?_eq]
  split
  · exact .pure rfl
  · refine .bind (follows_advance _) fun _ after _ _ => ?_
    refine .bind_opens (follows_valueWith follow) (fun value _ _ _ => ?_)
      fun value _ _ _ _ _ _ _ _ opened => ?_
    · exact .bind (follows_spanFrom _) fun _ _ _ _ => .pure rfl
    · exact ⟨_, rfl, .inr (.of_place (List.mem_singleton_self value) opened)⟩

theorem follows_plainExprWith :
    ends.Follows False (OpensSome OpensAt) (plainExprWith rules) (plainExprWith rules) cursor := by
  refine .bind_opens (follows_conditionalWith follow) (fun target _ _ _ => ?_)
    fun target _ _ _ _ _ _ _ _ opened => ?_
  · cases target with
    | none => exact .pure rfl
    | some target => exact follows_assignmentWith follow target
  · obtain ⟨target, rfl, opened⟩ := opened
    obtain ⟨expr, expr_eq, -, kept⟩ := gives_assignmentWith rules target
    exact ⟨expr, expr_eq, .inr (opened.of_kept kept)⟩

theorem follows_exprWith :
    ends.Follows False (OpensSome OpensAt) (exprWith rules) (exprWith rules) cursor := by
  rw [exprWith_eq]
  refine .get fun other shows => .lambda_or (fun lambda => ?_) (follows_plainExprWith follow)
    (fun is_head => ?_) shows
  · exact .bind_opens (follows_lambdaWith follow lambda) (fun _ _ _ _ => .pure rfl)
      fun _ _ _ _ _ _ _ _ _ opened => ⟨_, rfl, .inr opened⟩
  · obtain ⟨expr, expr_eq, start_eq⟩ := plainExprWith_begins rules is_head.begins
    exact ⟨expr, expr_eq, .inl start_eq⟩

end Rules

/-- The rules of the grammar follow themselves in front of an arrow, unless what they read has a
part where a lambda may stand. -/
theorem rulesFollow_rules (ends : LabelEnds) (n : Nat) : ends.RulesFollow (rules n) := by
  induction n with
  | zero =>
      exact
        { reads := reads_rules 0
          expr := fun _ => .pure rfl
          conditional := fun _ => .pure rfl
          binary := fun _ _ => .pure rfl
          unary := fun _ => .pure rfl
          primary := fun _ => .pure rfl
          unary_begins := fun _ => rfl
          conditional_begins := fun _ => rfl }
  | succ n induction =>
      exact
        { reads := reads_rules (n + 1)
          expr := fun _ => follows_exprWith induction
          conditional := fun _ => follows_conditionalWith induction
          binary := fun least _ => follows_binaryWith induction least
          unary := fun _ => follows_unaryWith induction
          primary := fun _ => follows_primaryWith induction
          unary_begins := fun begins => start_orMissing (unaryWith_begins _ begins)
          conditional_begins := fun begins => start_orMissing (conditionalWith_begins _ begins) }

end LabelEnds

end JavaOutline
