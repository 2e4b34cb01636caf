import JavaOutline.Proofs.Outline.Laminar

/-!
# No code of a body is lost

The statements of a body leave no gap, and every statement that is not a block or empty has a branch
over all of its tokens. So a token of the body that is outside all branches is a brace of a block or
the semicolon of an empty statement.
-/

namespace JavaOutline

/-- Whether tokens of a kind are there to set statements apart. -/
def TokenKind.Separates (kind : TokenKind) : Prop :=
  kind = .openBrace ∨ kind = .closeBrace ∨ kind = .semicolon

/-- Whether an extent holds all bytes of a span. -/
def Extent.Covers (extent : Extent) (span : Span) : Prop :=
  extent.first ≤ span.start ∧ span.stop ≤ extent.last + 1

namespace Branch

/-- Whether every token between two places is inside one of some branches, unless it separates
statements. -/
def Cover (before after : Cursor) (branches : List Branch) : Prop :=
  ∀ token ∈ before.rest, token ∈ after.rest ∨ token.kind.Separates ∨
    ∃ branch ∈ branches, branch.entity.extent.Covers token.span

namespace Cover

variable {source : Source} {before middle after : Cursor}

theorem refl (cursor : Cursor) : Cover cursor cursor [] :=
  fun _ member => .inl member

theorem append {left right : List Branch} (cover_left : Cover before middle left)
    (cover_right : Cover middle after right) : Cover before after (left ++ right) := by
  intro token member
  rcases cover_left token member with later | separates | ⟨branch, branch_mem, covers⟩
  · rcases cover_right token later with later | separates | ⟨branch, branch_mem, covers⟩
    · exact .inl later
    · exact .inr (.inl separates)
    · exact .inr (.inr ⟨branch, List.mem_append_right left branch_mem, covers⟩)
  · exact .inr (.inl separates)
  · exact .inr (.inr ⟨branch, List.mem_append_left right branch_mem, covers⟩)

/-- A token that separates statements needs no branch. -/
theorem passes {kind : TokenKind} (passes : before.Passes kind after)
    (separates : kind.Separates) : Cover before after [] := by
  rcases passes with rfl | ⟨isAt, rfl⟩
  · exact refl _
  · intro token member
    obtain ⟨rest, behind⟩ := before
    cases member with
    | head =>
        have kind_eq : token.kind = kind := by
          simpa [Cursor.isAt] using isAt
        rw [kind_eq]
        exact .inr (.inl separates)
    | tail first member => exact .inl member

/-- A branch over the span between two places is over all tokens between them. -/
theorem spans {span : Span} {kind : EntityKind} {value : String} {children : List Branch}
    (order : before.InOrder source) (spans : before.Spans span after)
    (start_lt : span.start < span.stop) :
    Cover before after [.mk ⟨value, kind, ⟨span.start, span.stop - 1⟩⟩ children] := by
  obtain ⟨start_eq, stop_eq⟩ := spans.bounds start_lt
  intro token member
  rcases order.mem_rest spans.reaches member with later | ⟨here_le, le_behind⟩
  · exact .inl later
  · refine .inr (.inr ⟨_, List.mem_cons_self, ?_⟩)
    simp only [Extent.Covers, entity]
    omega

end Cover

end Branch

namespace OutlineContext

open Branch

variable {source : Source} {context : OutlineContext} {before middle after : Cursor}

theorem covers_branch {kind : EntityKind} {value : String} {span : Span}
    {children : Except Rejection (List Branch)} (order : before.InOrder source)
    (spans : before.Spans span after) :
    Yields (Cover before after) (context.branch kind value span children) := by
  intro branches found
  obtain ⟨start_lt, inner, _, rfl⟩ := eq_of_branch_eq_ok found
  exact .spans order spans start_lt

theorem covers_verbatimLeaf {kind : EntityKind} {span : Span} (order : before.InOrder source)
    (spans : before.Spans span after) :
    Yields (Cover before after) (context.verbatimLeaf kind span) :=
  .bind fun _ => covers_branch order spans

theorem covers_beside {left right : Except Rejection (List Branch)}
    (covers_left : Yields (Cover before middle) left)
    (covers_right : Yields (Cover middle after) right) :
    Yields (Cover before after) (beside left right) := by
  intro branches found
  obtain ⟨first, second, first_eq, second_eq, rfl⟩ := exists_of_beside_eq_ok found
  exact (covers_left first first_eq).append (covers_right second second_eq)

/-- Braces around statements need no branch. -/
theorem covers_braces {span : Span} {statements : List Stmt}
    {forest : Except Rejection (List Branch)}
    (laidOut : (Block.mk span statements).LaidOut before after)
    (covers : ∀ {first last : Cursor}, before.Reaches first →
      Stmt.AllLaidOut statements first last → Yields (Cover first last) forest) :
    Yields (Cover before after) forest := by
  obtain ⟨_, first, last, opened, inner, closed⟩ := laidOut
  intro branches found
  have covers_open := Cover.passes opened (.inl rfl)
  have covers_inner := covers opened.reaches inner branches found
  have covers_close := Cover.passes closed (.inr (.inl rfl))
  simpa using (covers_open.append covers_inner).append covers_close

mutual

theorem covers_stmtForest (context : OutlineContext) {before after : Cursor}
    (order : before.InOrder source) (stmt : Stmt) (laidOut : stmt.LaidOut before after) :
    Yields (Cover before after) (context.stmtForest stmt) := by
  cases stmt with
  | locals declaration => exact covers_verbatimLeaf order laidOut
  | localType span kind name => exact covers_verbatimLeaf order laidOut
  | expr span expr => exact .bind fun _ => covers_verbatimLeaf order laidOut
  | constructorCall span target outer arguments => exact covers_verbatimLeaf order laidOut
  | assertion span condition message =>
      cases message with
      | none => exact .bind fun _ => covers_branch order laidOut
      | some message => exact .bind fun _ => .bind fun _ => covers_branch order laidOut
  | jump span kind label => exact covers_branch order laidOut
  | returns span value =>
      cases value with
      | none => exact covers_branch order laidOut
      | some value => exact .bind fun _ => covers_branch order laidOut
  | throws span value => exact .bind fun _ => covers_branch order laidOut
  | conditional span condition whenTrue whenFalse =>
      cases whenFalse with
      | none => exact .bind fun _ => covers_branch order laidOut.1
      | some whenFalse => exact .bind fun _ => covers_branch order laidOut.1
  | whileLoop span condition body => exact .bind fun _ => covers_branch order laidOut.1
  | doLoop span body condition => exact .bind fun _ => covers_branch order laidOut.1
  | forLoop span init condition update body =>
      cases condition with
      | none => exact covers_branch order laidOut.1
      | some condition => exact .bind fun _ => covers_branch order laidOut.1
  | forEach span element collection body => exact .bind fun _ => covers_branch order laidOut.1
  | switch span selector groups => exact .bind fun _ => covers_branch order laidOut.1
  | synchronized span lock body =>
      obtain ⟨bodySpan, statements⟩ := body
      exact .bind fun _ => covers_branch order laidOut.1
  | tries span resources body handlers cleanup =>
      obtain ⟨bodySpan, statements⟩ := body
      exact .bind fun _ => covers_branch order laidOut.1
  | labeled span label body => exact covers_branch order laidOut.1
  | block inner =>
      obtain ⟨span, statements⟩ := inner
      exact covers_braces laidOut fun reaches inner =>
        covers_forest context (order.reaches reaches) statements inner
  | empty span =>
      rintro branches ⟨⟩
      exact .passes laidOut (.inr (.inr rfl))
  | unparsed span => exact .rejected _

theorem covers_forest (context : OutlineContext) {before after : Cursor}
    (order : before.InOrder source) (stmts : List Stmt)
    (laidOut : Stmt.AllLaidOut stmts before after) :
    Yields (Cover before after) (context.forest stmts) := by
  cases stmts with
  | nil =>
      obtain rfl := laidOut
      rintro branches ⟨⟩
      exact .refl _
  | cons stmt stmts =>
      obtain ⟨middle, first, later⟩ := laidOut
      exact covers_beside (covers_stmtForest context order stmt first)
        (covers_forest context (order.reaches first.reaches) stmts later)

end

end OutlineContext

/-- A token of the file that lies inside the span of a block was read with the block. -/
theorem Cursor.InOrder.mem_rest_of_spans {source : Source} {origin before after : Cursor}
    {span : Span} {token : Token} (order : origin.InOrder source)
    (reaches : origin.Reaches before) (spans : before.Spans span after)
    (member : token ∈ origin.rest) (start_le : span.start ≤ token.span.start)
    (le_stop : token.span.stop ≤ span.stop) :
    token ∈ before.rest ∧ token ∉ after.rest := by
  have start_lt := order.order.start_lt_stop member
  have order_before := order.reaches reaches
  obtain ⟨later_reaches, rfl⟩ := spans
  simp only [Cursor.spanFrom] at start_le le_stop
  constructor
  · rcases order.mem_rest reaches member with later | ⟨_, le_behind⟩
    · exact later
    · have behind_le := order_before.behind_le_here
      omega
  · intro later
    have behind_le := (order_before.reaches later_reaches).order.le_start later
    omega

/-- **No code of a body is lost.** In the outline of a method, every token inside the body lies
inside a child of the root, unless it is a brace or a semicolon. -/
theorem outlineMethod_covers_body {source : Source} {name : String} {verify : Bool}
    {outline : Outline} {method : Method} {body : Block}
    (outlined : (outlineMethod source name verify).result = .ok outline)
    (found : (CompilationUnit.read source).findMethod? name = some method)
    (has_body : method.body = some body) :
    ∀ token ∈ Token.scan 0 source.chars, body.span.start ≤ token.span.start →
      token.span.stop ≤ body.span.stop → ¬ token.kind.Separates →
      ∃ root, outline.get? 0 = some root ∧ ∃ id ∈ root.children, ∃ node,
        outline.get? id = some node ∧ node.entity.extent.Covers token.span := by
  intro token member start_le le_stop not_separates
  obtain ⟨other, branches, other_found, rfl, grown⟩ := exists_of_outlineMethod_eq_ok outlined
  rw [found] at other_found
  cases other_found
  rw [has_body] at grown
  obtain ⟨first, last, reaches, laidOut⟩ := CompilationUnit.readAfter_of_findMethod? found
  obtain ⟨before, after, reaches_before, body_laidOut, _⟩ := laidOut.body body has_body
  obtain ⟨span, statements⟩ := body
  have order := Cursor.inOrder_start (Token.inOrder_scan source)
  have reaches_body := reaches.trans reaches_before
  obtain ⟨to_read, not_left⟩ := order.mem_rest_of_spans reaches_body body_laidOut.1 member
    start_le le_stop
  have covers := OutlineContext.covers_braces body_laidOut (fun opened inner =>
    OutlineContext.covers_forest ⟨source, verify⟩ ((order.reaches reaches_body).reaches opened)
      statements inner) branches grown
  rcases covers token to_read with left | separates | ⟨branch, branch_mem, covers⟩
  · exact (not_left left).elim
  · exact (not_separates separates).elim
  · obtain ⟨id, id_mem, node, node_found, entity_eq⟩ :=
      (Outline.holdsAll_graft_ofRoot method.root branches).exists_node branch_mem
    refine ⟨_, Outline.get?_graft_ofRoot method.root branches, id, ?_, node, node_found, ?_⟩
    · exact List.mem_toArray.mpr id_mem
    · rw [entity_eq]
      exact covers

/-- The body of the method of `labeledSource`. -/
def labeledBody : Block :=
  .mk ⟨16, 33⟩ [.labeled ⟨17, 25⟩ ⟨"l", ⟨17, 18⟩⟩ (.jump ⟨19, 25⟩ .break none),
    .returns ⟨25, 32⟩ none]

theorem scan_labeledSource : Token.scan 0 labeledSource.chars =
    [⟨.word, "class", ⟨0, 5⟩⟩, ⟨.word, "A", ⟨6, 7⟩⟩, ⟨.openBrace, "\x7b", ⟨7, 8⟩⟩,
     ⟨.word, "void", ⟨8, 12⟩⟩, ⟨.word, "f", ⟨13, 14⟩⟩, ⟨.openParen, "(", ⟨14, 15⟩⟩,
     ⟨.closeParen, ")", ⟨15, 16⟩⟩, ⟨.openBrace, "\x7b", ⟨16, 17⟩⟩, ⟨.word, "l", ⟨17, 18⟩⟩,
     ⟨.colon, ":", ⟨18, 19⟩⟩, ⟨.word, "break", ⟨19, 24⟩⟩, ⟨.semicolon, ";", ⟨24, 25⟩⟩,
     ⟨.word, "return", ⟨25, 31⟩⟩, ⟨.semicolon, ";", ⟨31, 32⟩⟩, ⟨.closeBrace, "\x7d", ⟨32, 33⟩⟩,
     ⟨.closeBrace, "\x7d", ⟨33, 34⟩⟩] := by
  decide +kernel

set_option maxRecDepth 8000 in
theorem body_labeledSource :
    ((CompilationUnit.read labeledSource).findMethod? "f").bind (·.body) = some labeledBody := by
  rw [CompilationUnit.read, scan_labeledSource]
  rfl

theorem getElem?_scan_labeledSource :
    (Token.scan 0 labeledSource.chars)[10]? = some ⟨.word, "break", ⟨19, 24⟩⟩ := by
  rw [scan_labeledSource]
  rfl

theorem labeledOutline_covers_break :
    ∃ root, labeledOutline.get? 0 = some root ∧ ∃ id ∈ root.children, ∃ node,
      labeledOutline.get? id = some node ∧ node.entity.extent.Covers ⟨19, 24⟩ := by
  obtain ⟨method, found, has_body⟩ := Option.bind_eq_some_iff.mp body_labeledSource
  refine outlineMethod_covers_body result_outlineMethod_labeledSource found has_body _
    (List.mem_of_getElem? getElem?_scan_labeledSource) ?_ ?_ ?_
  · decide
  · decide
  · simp [TokenKind.Separates]

end JavaOutline
