import JavaOutline.Proofs.Reading.ParallelTokens

/-!
# Expressions read side by side

The rules for expressions agree on two texts, as far as they may call each other. Each rule calls
the others only after it has read a token, so there are always enough calls left in both texts.
-/

set_option mvcgen.warning false

open Std.Do

namespace JavaOutline

open Relocatable (relocate)

namespace Parser

/-- The rules that call the given ones. -/
def Rules.around (inner : Rules) : Rules where
  expr := fun cursor => exprWith inner cursor
  conditional := fun cursor => conditionalWith inner cursor
  binary := fun least cursor => binaryWith inner least cursor
  unary := fun cursor => unaryWith inner cursor
  primary := fun cursor => primaryWith inner cursor

/-- The rules that may call each other `n` times in each other, and other rules below that. -/
def rulesOver (bottom : Rules) : Nat → Rules
  | 0 => bottom
  | n + 1 => (rulesOver bottom n).around

theorem rulesOver_rules_zero (n : Nat) : rulesOver (rules 0) n = rules n := by
  induction n with
  | zero => rfl
  | succ n induction => exact congrArg Rules.around induction

end Parser

namespace Parallel

open JavaOutline.Parser

variable {texts : Parallel} {stays : Prop} {cursor before after other : Cursor}

/-- Whether rules agree on two texts where fewer than `bound` tokens are left. -/
structure RulesAgree (texts : Parallel) (left right : Rules) (bound : Nat) : Prop where
  reads : left.Reads
  expr {cursor : Cursor} (short : cursor.rest.length < bound) :
    texts.Agree False left.expr right.expr cursor
  conditional {cursor : Cursor} (short : cursor.rest.length < bound) :
    texts.Agree False left.conditional right.conditional cursor
  binary (least : Nat) {cursor : Cursor} (short : cursor.rest.length < bound) :
    texts.Agree False (left.binary least) (right.binary least) cursor
  unary {cursor : Cursor} (short : cursor.rest.length < bound) :
    texts.Agree False left.unary right.unary cursor
  primary {cursor : Cursor} (short : cursor.rest.length < bound) :
    texts.Agree False left.primary right.primary cursor

theorem agree_missing : texts.Agree stays missing missing cursor := by
  refine fun _ => ⟨.refl, fun other mirrors _ => ⟨?_, mirrors⟩⟩
  simp only [missing, mirrors.shows.here_eq]
  rfl

theorem agree_orMissing {p q : Parser (Option Expr)} (agree : texts.Agree stays p q cursor) :
    texts.Agree stays (orMissing p) (orMissing q) cursor :=
  .bind_option agree (fun _ _ _ => agree_missing) fun _ _ _ _ => .pure rfl

theorem agree_excerptFrom (start : Nat) (kind : ExcerptKind) :
    texts.Agree stays (excerptFrom start kind) (excerptFrom (texts.move start) kind) cursor :=
  .bind (.spanFrom start) fun _ _ _ _ => .pure rfl

theorem agree_methodReference (receiver : Expr) :
    texts.Agree False (methodReference receiver) (methodReference (relocate texts.move receiver))
      cursor := by
  unfold methodReference
  rw [span_relocate]
  refine .bind (agree_advance 1) fun _ after _ _ => ?_
  refine .bind (.discard agree_skipTypeArguments) fun _ after _ _ => ?_
  refine .get fun other _ shows => ?_
  rw [shows.isAt_eq]
  refine .ite (fun _ => ?_) fun _ => agree_excerptFrom _ _
  exact .bind (agree_advance 1) fun _ _ _ _ => agree_excerptFrom _ _

theorem length_tail_lt {token : Token} {rest : List Token} (rest_eq : cursor.rest = token :: rest) :
    cursor.tail.rest.length < cursor.rest.length :=
  (Cursor.reachesOn_tail rest_eq).length_lt

section Rules

variable {left right : Rules} {bound : Nat} (rules : texts.RulesAgree left right bound)

include rules

theorem agree_lambdaWith (short : cursor.rest.length ≤ bound) (found : cursor.isAtLambda) :
    texts.Agree False (lambdaWith left) (lambdaWith right) cursor := by
  refine .get fun other _ shows => ?_
  rw [shows.isAt_eq, shows.here_eq]
  refine .ite_bind (fun _ => agree_skipBalanced _ _) (fun _ => agree_advance 1)
    fun _ after read _ => ?_
  have short : after.rest.length < bound := by
    refine Nat.lt_of_lt_of_le (Cursor.ReachesOn.length_lt ?_) short
    obtain rfl := congrArg Prod.snd read
    split
    · next opens => exact (triple_iff.mp (place_skipParens cursor) cursor rfl).2 opens
    · exact Cursor.reachesOn_tail_of_isAtLambda found
  refine .bind (.discard (agree_accept _ fun _ => by decide)) fun _ after _ reaches => ?_
  refine .get fun other _ shows => ?_
  rw [shows.isAt_eq]
  refine .ite (fun _ => ?_) fun _ => ?_
  · exact .bind (agree_skipBalanced _ _) fun _ _ _ _ => agree_excerptFrom _ _
  · exact .bind_option (rules.expr (reaches.lt short)) (fun _ _ _ => agree_missing)
      fun _ _ _ _ => agree_excerptFrom _ _

theorem agree_valueWith (short : cursor.rest.length < bound) :
    texts.Agree False (valueWith left) (valueWith right) cursor := by
  refine .get fun other _ shows => ?_
  rw [shows.isAt_eq, shows.here_eq]
  refine .ite (fun _ => ?_) fun _ => agree_orMissing (rules.expr short)
  exact .bind (agree_skipBalanced _ _) fun _ _ _ _ => agree_excerptFrom _ _

omit rules in
/-- What follows an argument, up to the next one. -/
theorem agree_afterArgument (argument : Expr) :
    let parser (argument : Expr) : Parser (Option Expr) := do
      unless ← accept .comma do
        unless (← get).isAt .closeParen do
          skipTo [.comma, .closeParen]
          discard <| accept .comma
      return some argument
    texts.Agree False (parser argument) (parser (relocate texts.move argument)) cursor := by
  refine .bind_bool (agree_accept _ fun _ => by decide) (fun _ _ _ => .pure rfl) fun after _ _ => ?_
  refine .get fun other _ shows => ?_
  rw [shows.isAt_eq]
  refine .ite (fun _ => .pure rfl) fun _ => ?_
  refine .bind (agree_skipTo _) fun _ _ _ _ => ?_
  exact .bind (.discard (agree_accept _ fun _ => by decide)) fun _ _ _ _ => .pure rfl

theorem agree_argumentsWith (short : cursor.rest.length < bound) :
    texts.Agree False (argumentsWith left) (argumentsWith right) cursor := by
  refine .bind (.discard (agree_accept _ fun _ => by decide)) fun _ after _ reaches => ?_
  refine .bind (.many (fun after' onward => ?_) fun before _ order => ?_) fun _ _ _ _ => ?_
  · refine .get fun other _ shows => ?_
    rw [shows.atEnd_eq, shows.isAt_eq]
    refine .ite (fun _ => .pure rfl) fun _ => ?_
    refine .bind_option (rules.expr (onward.lt (reaches.lt short))) (fun _ _ _ => ?_)
      fun argument _ _ _ => agree_afterArgument argument
    refine .bind agree_missing fun argument _ _ _ => ?_
    exact .bind (agree_advance 1) fun _ _ _ _ => agree_afterArgument argument
  · have expr := rules.reads.expr
    mvcgen [expr, -Rules.Placed.expr, -Rules.Onward.expr] <;> clear expr <;> grind -ring -linarith
  · exact .bind (.discard (agree_accept _ fun _ => by decide)) fun _ _ _ _ => .pure rfl

omit rules in
theorem agree_creationSpan (outer : Option Expr) (start : Nat) (type : TypeRef)
    (arguments : List Expr) (body : Option Span) :
    let parser (outer : Option Expr) (start : Nat) (type : TypeRef) (arguments : List Expr)
        (body : Option Span) : Parser Expr := do
      let span ← Parser.spanFrom start
      return match outer with
        | none => .creation span type arguments body
        | some outer => .innerCreation span outer type arguments body
    texts.Agree stays (parser outer start type arguments body)
      (parser (relocate texts.move outer) (texts.move start) (relocate texts.move type)
        (relocate texts.move arguments) (relocate texts.move body)) cursor := by
  refine .bind (.spanFrom start) fun span _ _ _ => .pure ?_
  cases outer with
  | none => exact (relocate_creation _ _ _ _ _).symm
  | some outer => exact (relocate_innerCreation _ _ _ _ _ _).symm

theorem agree_creationWith (outer : Option Expr) (start : Nat)
    (short : (acceptWord "new" cursor).2.rest.length < bound) :
    texts.Agree False (creationWith left outer start)
      (creationWith right (relocate texts.move outer) (texts.move start)) cursor := by
  refine .bind (.discard (agree_acceptWord _)) fun _ after read _ => ?_
  obtain rfl : (acceptWord "new" cursor).2 = after := congrArg Prod.snd read
  refine .bind (.discard agree_skipTypeArguments) fun _ after _ reaches => ?_
  have short := reaches.lt short
  refine .bind agree_typeRef fun type after _ reaches => ?_
  have short := reaches.lt short
  refine .get fun other _ shows => ?_
  rw [shows.isAt_eq, shows.isAt_eq, shows.isAt_eq]
  refine .ite (fun _ => ?_) fun _ => ?_
  · refine .bind (.repeatWhile (fun after _ => ?_) fun before _ order => ?_) fun _ after _ _ => ?_
    · refine .get fun other _ shows => ?_
      rw [shows.isAt_eq]
      exact .bind (agree_skipBalanced _ _) fun _ _ _ _ => .pure rfl
    · mvcgen [skipBrackets, -onward_skipBrackets]
      grind -ring -linarith
    · exact .bind (agree_skipBalanced _ _) fun _ _ _ _ => agree_excerptFrom _ _
  · refine .ite_bind (fun _ => agree_argumentsWith rules short) (fun _ => .pure rfl)
      fun arguments after _ _ => ?_
    refine .get fun other _ shows => ?_
    rw [shows.isAt_eq, shows.here_eq]
    refine .ite (fun _ => ?_) fun _ => agree_creationSpan outer start type arguments none
    refine .bind (agree_skipBalanced _ _) fun _ _ _ _ => ?_
    exact .bind (.spanFrom _) fun body _ _ _ => agree_creationSpan outer start type arguments body

/-- A call, if arguments follow, and else something without them. -/
theorem agree_call (start : Nat) (name : Name) {plain plain' : Expr}
    (same : plain' = relocate texts.move plain) (short : cursor.rest.length < bound) :
    let parser (rules : Rules) (start : Nat) (name : Name) (plain : Expr) :
        Parser (Option Expr) := do
      if (← get).isAt .openParen then
        let arguments ← argumentsWith rules
        return some (.call (← Parser.spanFrom start) name arguments)
      return some plain
    texts.Agree False (parser left start name plain)
      (parser right (texts.move start) (relocate texts.move name) plain') cursor := by
  refine .get fun other _ shows => ?_
  rw [shows.isAt_eq]
  refine .ite (fun _ => ?_) fun _ => .pure (congrArg some same)
  refine .bind (agree_argumentsWith rules short) fun arguments _ _ _ => ?_
  refine .bind (.spanFrom start) fun span _ _ _ => .pure ?_
  exact congrArg some (relocate_call _ _ _ _).symm

theorem agree_wordWith {token : Token} {rest : List Token} (rest_eq : cursor.rest = token :: rest)
    (kind_eq : token.kind = .word) (short : cursor.rest.length ≤ bound) :
    texts.Agree False (wordWith left token) (wordWith right (relocate texts.move token))
      cursor := by
  have short : cursor.tail.rest.length < bound := Nat.lt_of_lt_of_le (length_tail_lt rest_eq) short
  refine .ite (fun _ => ?_) fun _ => .ite (fun _ => ?_) fun _ => .ite (fun _ => ?_) fun _ =>
    .ite (fun is_new => ?_) fun _ => .ite (fun _ => ?_) fun _ => .ite (fun _ => ?_) fun _ =>
    .ite (fun _ => .pure rfl) fun _ => ?_
  · exact .bind (agree_advance 1) fun _ _ _ _ => .pure rfl
  · exact .bind (agree_advance 1) fun _ _ _ _ => .pure rfl
  · refine .bind (agree_advance 1) fun _ after read _ => ?_
    obtain rfl : cursor.tail = after := congrArg Prod.snd read
    exact agree_call rules token.span.start ⟨token.text, token.span⟩
      (by rw [apply_ite (relocate texts.move)]; rfl) short
  · have short : (acceptWord "new" cursor).2.rest.length < bound := by
      have found : cursor.isAtWord "new" := is_new ▸ Cursor.isAtWord_of_head rest_eq kind_eq
      rw [acceptWord, if_pos found]
      exact short
    exact .bind (agree_creationWith rules none _ short) fun _ _ _ _ => .pure rfl
  · refine .bind (agree_advance 1) fun _ _ _ _ => ?_
    refine .bind (agree_skipBalanced _ _) fun _ _ _ _ => ?_
    refine .bind (agree_skipBalanced _ _) fun _ _ _ _ => ?_
    exact .bind (agree_excerptFrom _ _) fun _ _ _ _ => .pure rfl
  · refine .bind (agree_advance 1) fun _ _ _ _ => ?_
    refine .bind (.discard agree_skipBracketPairs) fun _ _ _ _ => ?_
    refine .get fun other _ shows => ?_
    rw [shows.isAt_and_eq .dot nofun (shows.isWordAhead_one_eq "class")]
    refine .ite (fun _ => ?_) fun _ => ?_
    · refine .bind (agree_advance 2) fun _ _ _ _ => ?_
      exact .bind (agree_excerptFrom _ _) fun _ _ _ _ => .pure rfl
    · exact .bind (.spanFrom _) fun _ _ _ _ => .pure rfl
  · refine .bind (agree_advance 1) fun _ after read _ => ?_
    obtain rfl : cursor.tail = after := congrArg Prod.snd read
    exact agree_call rules token.span.start ⟨token.text, token.span⟩ rfl short

theorem agree_primaryWith (short : cursor.rest.length ≤ bound) :
    texts.Agree False (primaryWith left) (primaryWith right) cursor := by
  refine .get fun other _ shows => ?_
  cases rest_eq : cursor.rest with
  | nil =>
      rw [shows.rest_nil rest_eq]
      exact .pure rfl
  | cons token rest =>
      obtain ⟨more, other_eq⟩ := shows.rest_cons rest_eq
      rw [other_eq]
      have kind_eq : (relocate texts.move token).kind = token.kind := rfl
      have short_tail : cursor.tail.rest.length < bound :=
        Nat.lt_of_lt_of_le (length_tail_lt rest_eq) short
      have literal (kind : LiteralKind) : texts.Agree False
          (advance 1 >>= fun _ => pure (some (Expr.literal token.span kind token.text)))
          (advance 1 >>= fun _ => pure (some (Expr.literal (relocate texts.move token.span) kind
            token.text))) cursor :=
        .bind (agree_advance 1) fun _ _ _ _ => .pure rfl
      simp only [kind_eq]
      split
      · exact literal _
      · exact literal _
      · exact literal _
      · exact literal _
      · exact literal _
      · refine .bind (agree_advance 1) fun _ after read _ => ?_
        obtain rfl : cursor.tail = after := congrArg Prod.snd read
        refine .bind (agree_orMissing (rules.expr short_tail)) fun inner _ _ _ => ?_
        refine .bind (.discard (agree_accept _ fun _ => by decide)) fun _ _ _ _ => ?_
        exact .bind (.spanFrom _) fun span _ _ _ => .pure rfl
      · refine .bind (agree_skipBalanced _ _) fun _ _ _ _ => ?_
        exact .bind (agree_excerptFrom _ _) fun _ _ _ _ => .pure rfl
      · refine .bind_bool agree_skipTypeArguments (fun after skipped _ => ?_) fun _ _ _ => .pure rfl
        have read := (triple_iff.mp (place_skipTypeArguments cursor) cursor rfl).2.1
        rw [skipped] at read
        exact rules.primary (Nat.lt_of_lt_of_le (read rfl).length_lt short)
      · next word => exact agree_wordWith rules rest_eq word short
      · exact .pure rfl

theorem agree_selectionWith (receiver : Expr) (short : cursor.rest.length < bound) :
    texts.Agree False (selectionWith left receiver)
      (selectionWith right (relocate texts.move receiver)) cursor := by
  unfold selectionWith
  rw [span_relocate]
  refine .bind (agree_advance 1) fun _ after _ reaches => ?_
  have short := reaches.lt short
  refine .bind (.discard agree_skipTypeArguments) fun _ after _ reaches => ?_
  have short := reaches.lt short
  refine .get fun other _ shows => ?_
  cases rest_eq : after.rest with
  | nil =>
      rw [shows.rest_nil rest_eq]
      exact .pure rfl
  | cons token rest =>
      obtain ⟨more, other_eq⟩ := shows.rest_cons rest_eq
      rw [other_eq]
      refine .ite (fun _ => .pure rfl) fun _ => .ite (fun _ => ?_) fun _ => .ite (fun _ => ?_)
        fun _ => ?_
      · have short : (acceptWord "new" after).2.rest.length < bound :=
          (triple_iff.mp (place_acceptWord "new" after) after rfl).1.lt short
        exact .bind (agree_creationWith rules (some receiver) _ short) fun _ _ _ _ => .pure rfl
      · refine .bind (agree_advance 1) fun _ _ _ _ => ?_
        exact .bind (agree_excerptFrom _ _) fun _ _ _ _ => .pure rfl
      · refine .bind (agree_advance 1) fun _ _ _ reaches => ?_
        have short := reaches.lt short
        refine .get fun other _ shows => ?_
        rw [shows.isAt_eq]
        refine .ite (fun _ => ?_) fun _ => .bind (.spanFrom _) fun _ _ _ _ => .pure rfl
        refine .bind (agree_argumentsWith rules short) fun arguments _ _ _ => ?_
        refine .bind (.spanFrom _) fun span _ _ _ => .pure ?_
        exact congrArg some (relocate_memberCall _ _ _ ⟨token.text, token.span⟩ _).symm

theorem agree_indexWith (array : Expr) (short : cursor.rest.length < bound) :
    texts.Agree False (indexWith left array) (indexWith right (relocate texts.move array))
      cursor := by
  unfold indexWith
  rw [span_relocate]
  refine .get fun other _ shows => ?_
  rw [shows.isAtBrackets_eq]
  refine .ite (fun _ => ?_) fun _ => ?_
  · refine .bind (.discard agree_skipBracketPairs) fun _ after _ _ => ?_
    refine .get fun other _ shows => ?_
    rw [shows.isAt_and_eq .dot nofun (shows.isWordAhead_one_eq "class")]
    refine .ite (fun _ => ?_) fun _ => .pure rfl
    exact .bind (agree_advance 2) fun _ _ _ _ => agree_excerptFrom _ _
  · refine .bind (agree_advance 1) fun _ after _ reaches => ?_
    refine .bind (agree_orMissing (rules.expr (reaches.lt short))) fun index _ _ _ => ?_
    refine .bind (.discard (agree_accept _ fun _ => by decide)) fun _ _ _ _ => ?_
    exact .bind (.spanFrom _) fun span _ _ _ => .pure rfl

omit rules in
theorem maybeType_relocate (expr : Expr) :
    maybeType (relocate texts.move expr) = maybeType expr := by
  cases expr <;> rfl

theorem agree_selectorWith (operand : Expr) (short : cursor.rest.length < bound) :
    texts.Agree False (selectorWith left operand)
      (selectorWith right (relocate texts.move operand)) cursor := by
  unfold selectorWith
  rw [maybeType_relocate, span_relocate]
  refine .look fun other _ shows => ?_
  rw [shows.kindAhead?_eq clear_zero, shows.updateOp?_eq]
  split
  · exact (agree_selectionWith rules operand short).resume
  · exact Agree.resume (.bind (agree_indexWith rules operand short) fun _ _ _ _ => .pure rfl)
  · exact Agree.resume (.bind (agree_methodReference operand) fun _ _ _ _ => .pure rfl)
  · refine .ite (fun _ => ?_) fun _ => Agree.resume (.pure rfl)
    refine .bind (.discard agree_skipTypeArguments) fun _ after _ _ => ?_
    refine .get fun other _ shows => ?_
    rw [shows.isAt_eq]
    exact .ite (fun _ => Agree.resume (.pure rfl)) fun _ => .restore (.pure rfl)
  · refine Agree.resume ?_
    split
    · refine .bind (agree_advance 1) fun _ _ _ _ => ?_
      exact .bind (.spanFrom _) fun _ _ _ _ => .pure rfl
    · exact .pure rfl

theorem agree_operandWith (short : cursor.rest.length ≤ bound) :
    texts.Agree False (operandWith left) (operandWith right) cursor := by
  refine .of_tame fun tame => ?_
  refine .bind_option (agree_primaryWith rules short) (fun _ _ _ => .pure rfl)
    fun operand after read _ => ?_
  have shorter := length_lt_of_operandRead?
    (placed_primaryWith rules.reads.placed cursor tame.order) read
  have short := Nat.lt_of_lt_of_le shorter short
  refine .bind (.loop (fun operand after reaches => ?_) fun operand before _ _ =>
    reachesOn_of_readOn (reads_selectorWith rules.reads.onward operand before))
      fun _ _ _ _ => .pure rfl
  exact agree_selectorWith rules operand (reaches.lt short)

theorem agree_castWith (short : cursor.rest.length ≤ bound) (found : cursor.isAt .openParen) :
    texts.Agree False (castWith left) (castWith right) cursor := by
  refine .look fun origin' _ shows => ?_
  rw [shows.here_eq]
  have clear := not_isAt_closeBrace_of_isAt found (by decide)
  refine .bind (agree_advance_one fun _ => clear) fun _ after read _ => ?_
  obtain rfl : cursor.tail = after := congrArg Prod.snd read
  have short : cursor.tail.rest.length < bound :=
    Nat.lt_of_lt_of_le (Cursor.reachesOn_tail_of_isAt found).length_lt short
  refine .bind_option agree_typeRef? (fun _ _ _ => .restore (.pure rfl)) fun type _ _ reaches => ?_
  have short := reaches.lt short
  refine .bind_option (agree_castType? type) (fun _ _ _ => .restore (.pure rfl))
    fun type _ _ reaches => ?_
  have short := reaches.lt short
  refine .bind_bool (agree_accept _ fun _ => by decide) (fun after _ reaches => ?_) fun _ _ _ =>
    .restore (.pure rfl)
  have short := reaches.lt short
  refine .get fun other _ shows => ?_
  rw [shows.isAtOperand_eq, shows.isAhead_eq _ clear_zero, shows.isAtLambda_eq]
  refine .ite (fun _ => ?_) fun _ => .restore (.pure rfl)
  refine Agree.resume (.ite_bind (fun lambda => agree_lambdaWith rules (Nat.le_of_lt short) lambda)
    (fun _ => agree_orMissing (rules.unary short)) fun operand _ _ _ => ?_)
  exact .bind (.spanFrom _) fun span _ _ _ => .pure rfl

theorem agree_unaryWith (short : cursor.rest.length ≤ bound) :
    texts.Agree False (unaryWith left) (unaryWith right) cursor := by
  refine .get fun other _ shows => ?_
  rw [shows.unaryOp?_eq, shows.isAt_eq, shows.here_eq]
  split
  · next op found =>
    refine .bind (agree_advance 1) fun _ after read _ => ?_
    obtain rfl : cursor.tail = after := congrArg Prod.snd read
    have short : cursor.tail.rest.length < bound :=
      Nat.lt_of_lt_of_le (Cursor.reachesOn_tail_of_unaryOp? found).length_lt short
    refine .bind (agree_orMissing (rules.unary short)) fun operand _ _ _ => ?_
    exact .bind (.spanFrom _) fun span _ _ _ => .pure rfl
  · refine .ite (fun found => ?_) fun _ => agree_operandWith rules short
    refine .bind_option (agree_castWith rules short found) (fun after _ reaches => ?_)
      fun cast _ _ _ => .pure rfl
    exact agree_operandWith rules (Nat.le_trans reaches.length_le short)

theorem agree_binaryStepWith (least : Nat) (operand : Expr) (short : cursor.rest.length < bound) :
    texts.Agree False (binaryStepWith left least operand)
      (binaryStepWith right least (relocate texts.move operand)) cursor := by
  unfold binaryStepWith
  rw [span_relocate]
  refine .get fun other tame shows => ?_
  rw [shows.isAtWord_eq, shows.binaryOp?_eq tame]
  refine .ite (fun _ => .ite (fun _ => .pure rfl) fun _ => ?_) fun _ => ?_
  · refine .bind (agree_advance 1) fun _ _ _ _ => ?_
    refine .bind (.discard (agree_acceptWord _)) fun _ _ _ _ => ?_
    refine .bind agree_typeRef fun type _ _ _ => ?_
    refine .bind (agree_skipBalanced _ _) fun _ after _ _ => ?_
    refine .get fun other _ shows => ?_
    rw [shows.isAtIdentifier_eq]
    refine .ite_bind (fun _ => agree_next? False.elim) (fun _ => .pure rfl) fun binding _ _ _ => ?_
    refine .bind (.spanFrom _) fun span _ _ _ => .pure ?_
    cases binding with
    | none => rfl
    | some token => rfl
  · split
    · exact .pure rfl
    · refine .ite (fun _ => .pure rfl) fun _ => ?_
      refine .bind (agree_advance _) fun _ _ _ reaches => ?_
      refine .bind (agree_orMissing (rules.binary _ (reaches.lt short))) fun right _ _ _ => ?_
      exact .bind (.spanFrom _) fun span _ _ _ => .pure rfl

theorem agree_binaryWith (least : Nat) (short : cursor.rest.length ≤ bound) :
    texts.Agree False (binaryWith left least) (binaryWith right least) cursor := by
  refine .of_tame fun tame => ?_
  refine .bind_option (agree_unaryWith rules short) (fun _ _ _ => .pure rfl)
    fun operand after read _ => ?_
  have shorter := length_lt_of_operandRead?
    (placed_unaryWith rules.reads.placed cursor tame.order) read
  have short := Nat.lt_of_lt_of_le shorter short
  refine .bind (.loop (fun operand after reaches => ?_) fun operand before _ _ =>
    reachesOn_of_readOn (reads_binaryStepWith rules.reads.onward least operand before))
      fun _ _ _ _ => .pure rfl
  exact agree_binaryStepWith rules least operand (reaches.lt short)

theorem agree_conditionalWith (short : cursor.rest.length ≤ bound) :
    texts.Agree False (conditionalWith left) (conditionalWith right) cursor := by
  refine .of_tame fun tame => ?_
  refine .bind_option (agree_binaryWith rules 0 short) (fun _ _ _ => .pure rfl)
    fun condition after read _ => ?_
  have shorter := length_lt_of_operandRead?
    (placed_binaryWith rules.reads.placed 0 cursor tame.order) read
  have short := Nat.lt_of_lt_of_le shorter short
  refine .bind_bool (agree_accept _ fun _ => by decide) (fun _ _ reaches => ?_) fun _ _ _ =>
    .pure rfl
  have short := reaches.lt short
  refine .bind (agree_orMissing (rules.expr short)) fun whenTrue _ _ reaches => ?_
  have short := reaches.lt short
  refine .bind (.discard (agree_accept _ fun _ => by decide)) fun _ _ _ reaches => ?_
  have short := reaches.lt short
  refine .get fun other _ shows => ?_
  rw [shows.isAtLambda_eq, span_relocate]
  refine .ite_bind (fun lambda => agree_lambdaWith rules (Nat.le_of_lt short) lambda)
    (fun _ => agree_orMissing (rules.conditional short)) fun whenFalse _ _ _ => ?_
  exact .bind (.spanFrom _) fun span _ _ _ => .pure rfl

theorem agree_exprWith (short : cursor.rest.length ≤ bound) :
    texts.Agree False (exprWith left) (exprWith right) cursor := by
  refine .of_tame fun tame => ?_
  refine .get fun other _ shows => ?_
  rw [shows.isAtLambda_eq]
  refine .ite (fun lambda => ?_) fun _ => ?_
  · exact .bind (agree_lambdaWith rules short lambda) fun _ _ _ _ => .pure rfl
  · refine .bind_option (agree_conditionalWith rules short) (fun _ _ _ => .pure rfl)
      fun target after read _ => ?_
    have shorter := length_lt_of_operandRead?
      (placed_conditionalWith rules.reads.placed cursor tame.order) read
    have short := Nat.lt_of_lt_of_le shorter short
    refine .get fun other tame shows => ?_
    rw [shows.assignOp?_eq tame, span_relocate]
    split
    · exact .pure rfl
    · refine .bind (agree_advance _) fun _ _ _ reaches => ?_
      refine .bind (agree_valueWith rules (reaches.lt short)) fun value _ _ _ => ?_
      exact .bind (.spanFrom _) fun span _ _ _ => .pure rfl

end Rules

/-- The rules agree, if they may call each other often enough in both texts, whatever they call
below that in the second. -/
theorem rulesAgree_rulesOver (texts : Parallel) (bottom : Rules) {n m bound : Nat}
    (enough : bound ≤ n) (enough' : bound + texts.new.length ≤ m + texts.old.length) :
    texts.RulesAgree (rules n) (rulesOver bottom m) bound := by
  induction bound generalizing n m with
  | zero =>
      exact
        { reads := reads_rules n
          expr := fun short => absurd short (Nat.not_lt_zero _)
          conditional := fun short => absurd short (Nat.not_lt_zero _)
          binary := fun _ _ short => absurd short (Nat.not_lt_zero _)
          unary := fun short => absurd short (Nat.not_lt_zero _)
          primary := fun short => absurd short (Nat.not_lt_zero _) }
  | succ bound induction =>
      obtain ⟨n, rfl⟩ : ∃ k, n = k + 1 := ⟨n - 1, by omega⟩
      cases m with
      | zero =>
          have outside {cursor : Cursor} (short : cursor.rest.length < bound + 1) :
              ¬texts.Inside cursor := by
            rintro (⟨old_eq, new_eq⟩ | more)
            · rw [old_eq, new_eq] at enough'
              exact absurd enough' (Nat.not_succ_le_zero _)
            · omega
          have onward := onward_rules (n + 1)
          exact
            { reads := reads_rules (n + 1)
              expr := fun short => .of_outside
                (triple_iff.mp (onward.expr _) _ .refl) (outside short)
              conditional := fun short => .of_outside
                (triple_iff.mp (onward.conditional _) _ .refl) (outside short)
              binary := fun least _ short => .of_outside
                (triple_iff.mp (onward.binary least _) _ .refl) (outside short)
              unary := fun short => .of_outside
                (triple_iff.mp (onward.unary _) _ .refl) (outside short)
              primary := fun short => .of_outside
                (triple_iff.mp (onward.primary _) _ .refl) (outside short) }
      | succ m =>
          have rules := induction (n := n) (m := m) (by omega) (by omega)
          exact
            { reads := reads_rules (n + 1)
              expr := fun short => agree_exprWith rules (Nat.le_of_lt_succ short)
              conditional := fun short => agree_conditionalWith rules (Nat.le_of_lt_succ short)
              binary := fun least _ short =>
                agree_binaryWith rules least (Nat.le_of_lt_succ short)
              unary := fun short => agree_unaryWith rules (Nat.le_of_lt_succ short)
              primary := fun short => agree_primaryWith rules (Nat.le_of_lt_succ short) }

theorem rulesAgree_rules (texts : Parallel) {n m bound : Nat} (enough : bound ≤ n)
    (enough' : bound + texts.new.length ≤ m + texts.old.length) :
    texts.RulesAgree (rules n) (rules m) bound :=
  rulesOver_rules_zero m ▸ rulesAgree_rulesOver texts (rules 0) enough enough'

end Parallel

end JavaOutline
