import JavaOutline.Proofs.Reading.StructuredStatements

/-!
# Structured programs are read back

Structured statements that are written in braces, with a space between their tokens, are read as
themselves, up to spans and parentheses. Statements are read one after the other up to what ends
them: a closing brace, or in a group of a `switch` the next label.
-/

namespace JavaOutline

open Token (AllPlain)
open Piece (Spells spells_append)

/-- The statements of a group. -/
def SwitchGroup.statements : SwitchGroup → List Stmt
  | mk _ _ _ statements => statements

/-- The block of a `catch` clause. -/
def Handler.body : Handler → Block
  | mk _ _ _ body => body

/-- A label begins with a word. -/
theorem SwitchLabel.exists_cons_of_spells {label : SwitchLabel} {tokens : List Token}
    (spells : Spells label.pieces tokens) :
    ∃ text span rest, tokens = ⟨.word, text, span⟩ :: rest := by
  cases label with
  | case span values =>
      obtain ⟨word, rest, rfl, -⟩ := spells
      exact ⟨_, _, _, rfl⟩
  | default span =>
      obtain ⟨word, rest, rfl, -⟩ := spells
      exact ⟨_, _, _, rfl⟩

namespace Parser

/-! ## Blocks -/

/-- What follows structured statements also ends the statement before them. -/
theorem resumes_append {stmts : List Stmt} (structured : Stmt.AllStructured stmts)
    {tokens tail : List Token} (spells : Spells (Stmt.piecesOf stmts) tokens) {isOpen : Bool}
    (resumes : Resumes isOpen tail) : Resumes isOpen (tokens ++ tail) := by
  have plain := (Piece.plain_of_spells (Stmt.isSound_piecesOf stmts structured) spells).append
    resumes.plain
  cases stmts with
  | nil =>
      obtain rfl : tokens = [] := spells
      exact resumes
  | cons stmt stmts =>
      obtain ⟨_, later, rfl, first_spells, -⟩ := spells_append.mp spells
      obtain ⟨first, rest, rfl, begins⟩ := Stmt.exists_cons_of_spells structured.1 first_spells
      exact resumes_of_beginsStmt plain begins isOpen

/-- Structured statements are read one after the other by any step that reads a statement where one
begins and stops behind them. -/
theorem repeats_stmts {n : Nat} {step : Parser (Option Stmt)} {tail : List Token}
    (goes : ∀ token rest behind stmt after, token.kind.beginsStmt token.text = true →
      stmtUpTo n ⟨token :: rest, behind⟩ = (stmt, after) →
        step ⟨token :: rest, behind⟩ = (some stmt, after))
    (stops : ∀ behind, step ⟨tail, behind⟩ = (none, ⟨tail, behind⟩))
    (resumes : ∀ isOpen, Resumes isOpen tail) {stmts : List Stmt}
    (structured : Stmt.AllStructured stmts) (reads : ∀ stmt ∈ stmts, ReadsStmt stmt)
    {tokens : List Token} (spells : Spells (Stmt.piecesOf stmts) tokens) (fuel : tokens.length ≤ n)
    (behind : Nat) :
    ∃ found behind', Repeats step ⟨tokens ++ tail, behind⟩ found ⟨tail, behind'⟩ ∧
      Stmt.stripAll found = Stmt.stripAll stmts := by
  induction stmts generalizing tokens behind with
  | nil =>
      obtain rfl : tokens = [] := spells
      exact ⟨[], behind, .stop (stops behind), rfl⟩
  | cons stmt stmts induction =>
      obtain ⟨front, later, rfl, front_spells, later_spells⟩ := spells_append.mp spells
      obtain ⟨first, rest, rfl, begins⟩ := Stmt.exists_cons_of_spells structured.1 front_spells
      rw [List.length_append] at fuel
      have front_fuel : (first :: rest).length ≤ n := by omega
      have later_fuel : later.length ≤ n := by omega
      obtain ⟨found, behind', read_eq, strip_eq⟩ := reads stmt List.mem_cons_self _ front_spells n
        front_fuel (later ++ tail) (resumes_append structured.2 later_spells (resumes _)) behind
      obtain ⟨others, behind'', repeats, others_strip⟩ := induction structured.2
        (fun other member => reads other (List.mem_cons_of_mem stmt member)) later_spells later_fuel
        behind'
      refine ⟨found :: others, behind'', ?_, by simp [Stmt.stripAll, strip_eq, others_strip]⟩
      rw [List.append_assoc]
      refine .next (goes _ _ _ _ _ begins read_eq) ?_ repeats
      simp

theorem ne_closeBrace_of_beginsStmt {kind : TokenKind} {text : String}
    (begins : kind.beginsStmt text = true) : kind ≠ .closeBrace := by
  rintro rfl
  cases begins

theorem resumes_closeBrace {tail : List Token} (plain : AllPlain tail) (span : Span)
    (isOpen : Bool) : Resumes isOpen (⟨.closeBrace, "\x7d", span⟩ :: tail) :=
  resumes_cons (plain_cons plain (by simp)) (by simp) isOpen

theorem readsBlock_mk {span : Span} {statements : List Stmt}
    (structured : Stmt.AllStructured statements) (reads : ∀ stmt ∈ statements, ReadsStmt stmt) :
    ReadsBlock (.mk span statements) := by
  rintro _ ⟨opening, _, rfl, spells⟩ n fuel tail plain behind
  obtain ⟨inner, _, rfl, inner_spells, closing, _, rfl, rfl⟩ := spells_append.mp spells
  simp only [List.length_cons, List.length_append] at fuel
  have inner_fuel : inner.length ≤ n := by omega
  have goes : ∀ token rest behind stmt after, token.kind.beginsStmt token.text = true →
      stmtUpTo n ⟨token :: rest, behind⟩ = (stmt, after) →
        stmtOrEnd (stmtUpTo n) ⟨token :: rest, behind⟩ = (some stmt, after) := by
    intro token rest behind stmt after begins read
    exact stmtOrEnd_of_stmt rfl (by simp [ne_closeBrace_of_beginsStmt begins]) read
  obtain ⟨found, behind', repeats, strip_eq⟩ := repeats_stmts goes
    (stmtOrEnd_of_closed _ closing tail) (resumes_closeBrace plain closing) structured reads
    inner_spells inner_fuel opening.stop
  refine ⟨.mk (Cursor.spanFrom ⟨tail, closing.stop⟩ opening.start) found, closing.stop, ?_,
    by simp [Block.strip, strip_eq]⟩
  simp [blockWith_of_many repeats.many_eq]

/-! ## Labels -/

/-- The tokens of an operand begin with no reserved word that does not begin an operand. -/
theorem isAtWord_eq_false_of_leads {tokens : List Token} (leads : Token.Leads tokens)
    {word : String} (reserved : isReserved word = true)
    (other : word ∉ ["this", "super", "new", "true", "false", "null"]) (tail : List Token)
    (behind : Nat) : Cursor.isAtWord ⟨tokens ++ tail, behind⟩ word = false := by
  cases leads with
  | @operand first more begins =>
      rw [List.cons_append, Cursor.isAtWord_cons, Token.isWord]
      by_contra is_word
      obtain ⟨kind, rfl⟩ : first.kind = .word ∧ first.text = word := by simpa using is_word
      simp only [Token.beginsOperand, kind, Bool.or_eq_true] at begins
      rcases begins with identifier | listed
      · simp [isReserved_eq_false identifier] at reserved
      · exact other (by simpa using listed)
  | group opens => simp [Token.isWord, opens]

/-- The value of a label is read up to the colon. -/
theorem reads_caseValueWith {value : Expr} (writable : value.Writable) {tokens tail : List Token}
    (member : tokens ∈ value.spelling) {n : Nat} (fuel : tokens.length ≤ n) (plain : AllPlain tail)
    (colon : Span) :
    Reads Expr.strip (caseValueWith (rules (n + 1))) value tokens
      (⟨.colon, ":", colon⟩ :: tail) := by
  intro behind
  have operand := value.isOperand_of_mem_spelling writable tokens member
  have closes := closes_colon plain colon
  obtain ⟨found, behind', read_eq, strip_eq⟩ :=
    (((readsOperand_of_writable value writable).unary member operand fuel closes.follows
      closes.stopsSelection).binary closes.stopsOperation 0).conditional closes.isAt_question behind
  refine ⟨found, behind', ?_, strip_eq⟩
  have value_eq : (rules (n + 1)).conditional
      ⟨tokens ++ ⟨.colon, ":", colon⟩ :: tail, behind⟩ = (some found, _) := read_eq
  have no_default : ∀ tail behind, Cursor.isAtWord ⟨tokens ++ tail, behind⟩ "default" = false :=
    isAtWord_eq_false_of_leads operand.leads (by decide) (by decide)
  simp [caseValueWith, acceptWord_apply, no_default, value_eq]

/-- A label is read. -/
theorem exists_labelWith {label : SwitchLabel} (structured : label.IsStructured)
    {tokens tail : List Token} (spells : Spells label.pieces tokens) {n : Nat}
    (fuel : tokens.length ≤ n + 1) (plain : AllPlain tail) (behind : Nat) :
    Cursor.isAtLabel ⟨tokens ++ tail, behind⟩ = true ∧ ∃ found behind',
      labelWith (rules (n + 1)) ⟨tokens ++ tail, behind⟩ = ((found, false), ⟨tail, behind'⟩) ∧
        found.strip = label.strip := by
  cases label with
  | case span values =>
      obtain _ | ⟨value, _ | ⟨other, values⟩⟩ := values
      · exact structured.elim
      · obtain ⟨word, _, rfl, front, _, rfl, member, colon, _, rfl, rfl⟩ := spells
        refine ⟨rfl, ?_⟩
        simp only [List.length_cons, List.length_append] at fuel
        have front_fuel : front.length ≤ n := by omega
        obtain ⟨found, behind', read_eq, strip_eq⟩ :=
          reads_caseValueWith structured member front_fuel plain colon word.stop
        refine ⟨.case (Cursor.spanFrom ⟨tail, colon.stop⟩ word.start) [found], colon.stop, ?_,
          by simp [SwitchLabel.strip, Expr.stripAll, strip_eq]⟩
        have values_eq : caseValuesWith (rules (n + 1))
            ⟨front ++ ⟨.colon, ":", colon⟩ :: tail, word.stop⟩ =
              ([found], ⟨⟨.colon, ":", colon⟩ :: tail, behind'⟩) := by
          simp [caseValuesWith, iterate, ← Nat.add_assoc, iterateUpTo, read_eq, accept_apply]
        simp [labelWith, acceptWord_apply, Token.isWord, values_eq, accept_apply]
      · exact structured.elim
  | default span =>
      obtain ⟨word, _, rfl, colon, _, rfl, rfl⟩ := spells
      refine ⟨rfl, .default (Cursor.spanFrom ⟨tail, colon.stop⟩ word.start), colon.stop, ?_, rfl⟩
      simp [labelWith, acceptWord_apply, Token.isWord, accept_apply]

/-- Reads one more label of a group, unless the last one had an arrow. -/
def labelStep (rules : Rules) :
    List SwitchLabel × Bool → Parser (Option (List SwitchLabel × Bool)) := fun (labels, arrow) => do
  if arrow || !(← get).isAtLabel then return none
  let (label, arrow) ← labelWith rules
  return some (labels ++ [label], arrow)

/-- Labels are read up to a place where none begins. -/
theorem iterates_labels {n : Nat} {tail : List Token} (plain : AllPlain tail)
    (ends : ∀ behind, Cursor.isAtLabel ⟨tail, behind⟩ = false) {labels : List SwitchLabel}
    (structured : ∀ label ∈ labels, label.IsStructured) {tokens : List Token}
    (spells : Spells (labels.flatMap SwitchLabel.pieces) tokens) (fuel : tokens.length ≤ n + 1)
    (before : List SwitchLabel) (behind : Nat) :
    ∃ found behind', Iterates (labelStep (rules (n + 1))) (before, false) ⟨tokens ++ tail, behind⟩
        (before ++ found, false) ⟨tail, behind'⟩ ∧
      found.map SwitchLabel.strip = labels.map SwitchLabel.strip := by
  induction labels generalizing tokens before behind with
  | nil =>
      obtain rfl : tokens = [] := spells
      refine ⟨[], behind, ?_, rfl⟩
      rw [List.append_nil]
      exact .stop (by simp [labelStep, ends])
  | cons label labels induction =>
      obtain ⟨front, later, rfl, front_spells, later_spells⟩ := spells_append.mp spells
      rw [List.length_append] at fuel
      have later_structured : ∀ other ∈ labels, other.IsStructured :=
        fun other member => structured other (List.mem_cons_of_mem label member)
      have later_plain : AllPlain later := by
        refine Piece.plain_of_spells (fun piece member => ?_) later_spells
        obtain ⟨other, other_mem, piece_mem⟩ := List.mem_flatMap.mp member
        exact SwitchLabel.isSound_pieces (later_structured other other_mem) piece piece_mem
      have front_fuel : front.length ≤ n + 1 := by omega
      have later_fuel : later.length ≤ n + 1 := by omega
      obtain ⟨begins, found, behind', read_eq, strip_eq⟩ := exists_labelWith
        (structured label List.mem_cons_self) front_spells front_fuel (later_plain.append plain)
        behind
      obtain ⟨others, behind'', iterates, others_strip⟩ := induction later_structured later_spells
        later_fuel (before ++ [found]) behind'
      refine ⟨found :: others, behind'', ?_, by simp [strip_eq, others_strip]⟩
      rw [List.append_assoc, List.singleton_append] at iterates
      rw [List.append_assoc]
      refine .next (by simp [labelStep, begins, read_eq]) ?_ iterates
      obtain ⟨text, span, rest, rfl⟩ := SwitchLabel.exists_cons_of_spells front_spells
      simp

/-! ## Groups -/

/-- Reads a statement of a group, unless the group ends. -/
def stmtOrLabel (stmt : Parser Stmt) : Parser (Option Stmt) := do
  let cursor ← get
  if cursor.atEnd || cursor.isAt .closeBrace || cursor.isAtLabel then return none
  return some (← stmt)

theorem groupWith_eq (rules : Rules) (stmt : Parser Stmt) : groupWith rules stmt = (do
    let start := (← get).here
    let (labels, arrow) ← labelsWith rules
    let statements ← if arrow then do pure [← stmt] else many (stmtOrLabel stmt)
    return .mk (← spanFrom start) arrow labels statements) :=
  rfl

/-- Reads a group of a `switch`, unless that ends. -/
def groupOrEnd (rules : Rules) (stmt : Parser Stmt) : Parser (Option SwitchGroup) := do
  let cursor ← get
  if cursor.atEnd || cursor.isAt .closeBrace then return none
  return some (← groupWith rules stmt)

theorem switchWith_eq (rules : Rules) (stmt : Parser Stmt) (start : Nat) :
    switchWith rules stmt start = (do
      advance 1
      let selector ← conditionWith rules
      discard <| accept .openBrace
      let groups ← many (groupOrEnd rules stmt)
      discard <| accept .closeBrace
      return .switch (← spanFrom start) selector groups) :=
  rfl

theorem isAtLabel_eq_false_of_beginsStmt {token : Token}
    (begins : token.kind.beginsStmt token.text = true) (rest : List Token) (behind : Nat) :
    Cursor.isAtLabel ⟨token :: rest, behind⟩ = false := by
  have differs : ∀ word ∈ ["case", "default"], token.isWord word = false := by
    have excluded : ∀ word ∈ ["case", "default"], TokenKind.word.beginsStmt word = false := by
      decide
    intro word member
    rw [Token.isWord]
    by_contra is_word
    obtain ⟨kind, rfl⟩ : token.kind = .word ∧ token.text = word := by simpa using is_word
    rw [kind, excluded token.text member] at begins
    cases begins
  simp [Cursor.isAtLabel, differs "case" (by decide), differs "default" (by decide)]

/-- What may follow a group: the end of the `switch` or another label. -/
structure EndsGroup (tail : List Token) : Prop where
  resumes : ∀ isOpen, Resumes isOpen tail
  ends : ∀ behind, Cursor.isAt ⟨tail, behind⟩ .closeBrace = true ∨
    Cursor.isAtLabel ⟨tail, behind⟩ = true

/-- A group is read from its tokens, unless it has no statements and more groups follow it. -/
theorem exists_groupWith {n : Nat} {labels : List SwitchLabel} {statements : List Stmt}
    (structured_labels : ∀ label ∈ labels, label.IsStructured)
    (structured : Stmt.AllStructured statements) (reads : ∀ stmt ∈ statements, ReadsStmt stmt)
    {front back tail : List Token} (label_spells : Spells (labels.flatMap SwitchLabel.pieces) front)
    (spells : Spells (Stmt.piecesOf statements) back) (front_fuel : front.length ≤ n + 1)
    (back_fuel : back.length ≤ n) (ends : EndsGroup tail)
    (last : statements = [] → ∀ behind, Cursor.isAtLabel ⟨tail, behind⟩ = false) (behind : Nat) :
    ∃ span found_labels found behind',
      groupWith (rules (n + 1)) (stmtUpTo n) ⟨front ++ (back ++ tail), behind⟩ =
        (.mk span false found_labels found, ⟨tail, behind'⟩) ∧
      found_labels.map SwitchLabel.strip = labels.map SwitchLabel.strip ∧
      Stmt.stripAll found = Stmt.stripAll statements := by
  have no_label : ∀ behind, Cursor.isAtLabel ⟨back ++ tail, behind⟩ = false := by
    cases statements with
    | nil =>
        obtain rfl : back = [] := spells
        exact last rfl
    | cons stmt statements =>
        obtain ⟨_, later, rfl, first_spells, -⟩ := spells_append.mp spells
        obtain ⟨first, rest, rfl, begins⟩ := Stmt.exists_cons_of_spells structured.1 first_spells
        exact isAtLabel_eq_false_of_beginsStmt begins _
  have goes : ∀ token rest behind stmt after, token.kind.beginsStmt token.text = true →
      stmtUpTo n ⟨token :: rest, behind⟩ = (stmt, after) →
        stmtOrLabel (stmtUpTo n) ⟨token :: rest, behind⟩ = (some stmt, after) := by
    intro token rest behind stmt after begins read
    simp [stmtOrLabel, ne_closeBrace_of_beginsStmt begins,
      isAtLabel_eq_false_of_beginsStmt begins, read]
  have stops : ∀ behind, stmtOrLabel (stmtUpTo n) ⟨tail, behind⟩ = (none, ⟨tail, behind⟩) := by
    intro behind
    rcases ends.ends behind with close | label
    · simp [stmtOrLabel, close]
    · simp [stmtOrLabel, label]
  have back_plain := (resumes_append structured spells (ends.resumes true)).plain
  obtain ⟨found_labels, behind', iterates, labels_strip⟩ :=
    iterates_labels back_plain no_label structured_labels label_spells front_fuel [] behind
  obtain ⟨found, behind'', repeats, strip_eq⟩ :=
    repeats_stmts goes stops ends.resumes structured reads spells back_fuel behind'
  have labels_eq : labelsWith (rules (n + 1)) ⟨front ++ (back ++ tail), behind⟩ =
      ((found_labels, false), ⟨back ++ tail, behind'⟩) := iterates.iterate_eq
  refine ⟨Cursor.spanFrom ⟨tail, behind''⟩ (Cursor.here ⟨front ++ (back ++ tail), behind⟩),
    found_labels, found, behind'', ?_, labels_strip, strip_eq⟩
  simp [groupWith_eq, labels_eq, repeats.many_eq]

theorem endsGroup_closeBrace {tail : List Token} (plain : AllPlain tail) (span : Span) :
    EndsGroup (⟨.closeBrace, "\x7d", span⟩ :: tail) :=
  ⟨resumes_closeBrace plain span, fun _ => .inl rfl⟩

/-- A group begins with a label. -/
theorem endsGroup_of_label {label : SwitchLabel} (structured : label.IsStructured)
    {tokens tail : List Token} (spells : Spells label.pieces tokens)
    (plain : AllPlain (tokens ++ tail)) : EndsGroup (tokens ++ tail) := by
  cases label with
  | case span values =>
      obtain ⟨word, rest, rfl, -⟩ := spells
      exact ⟨resumes_cons plain (by simp), fun _ => .inr rfl⟩
  | default span =>
      obtain ⟨word, _, rfl, colon, rest, rfl, -⟩ := spells
      exact ⟨resumes_cons plain (by simp), fun _ => .inr rfl⟩

/-- What follows structured groups also ends the group before them. -/
theorem endsGroup_append {groups : List SwitchGroup} (structured : SwitchGroup.AllStructured groups)
    {tokens tail : List Token} (spells : Spells (SwitchGroup.piecesOf groups) tokens)
    (ends : EndsGroup tail) : EndsGroup (tokens ++ tail) := by
  have plain := (Piece.plain_of_spells (SwitchGroup.isSound_piecesOf groups structured)
    spells).append (ends.resumes true).plain
  cases groups with
  | nil =>
      obtain rfl : tokens = [] := spells
      exact ends
  | cons group groups =>
      obtain ⟨span, arrow, labels, statements⟩ := group
      obtain ⟨⟨-, labelled, structured_labels, -⟩, -⟩ := structured
      obtain ⟨label, labels, rfl⟩ := List.exists_cons_of_ne_nil labelled
      obtain ⟨_, later, rfl, labels_spells, -⟩ := spells_append.mp spells
      obtain ⟨front, more, rfl, front_spells, -⟩ := spells_append.mp labels_spells
      rw [List.append_assoc, List.append_assoc] at plain ⊢
      exact endsGroup_of_label (structured_labels label List.mem_cons_self) front_spells plain

/-- Structured groups are read one after the other, up to the end of the `switch`. -/
theorem repeats_groups {n : Nat} {tail : List Token} (plain : AllPlain tail) (closing : Span)
    {groups : List SwitchGroup} (structured : SwitchGroup.AllStructured groups)
    (reads : ∀ group ∈ groups, ∀ stmt ∈ group.statements, ReadsStmt stmt) {tokens : List Token}
    (spells : Spells (SwitchGroup.piecesOf groups) tokens) (fuel : tokens.length ≤ n)
    (behind : Nat) :
    ∃ found behind', Repeats (groupOrEnd (rules (n + 1)) (stmtUpTo n))
        ⟨tokens ++ ⟨.closeBrace, "\x7d", closing⟩ :: tail, behind⟩ found
        ⟨⟨.closeBrace, "\x7d", closing⟩ :: tail, behind'⟩ ∧
      SwitchGroup.stripAll found = SwitchGroup.stripAll groups := by
  induction groups generalizing tokens behind with
  | nil =>
      obtain rfl : tokens = [] := spells
      exact ⟨[], behind, .stop (by simp [groupOrEnd]), rfl⟩
  | cons group groups induction =>
      obtain ⟨span, arrow, labels, statements⟩ := group
      obtain ⟨⟨rfl, labelled, structured_labels, structured_statements, last⟩, later⟩ := structured
      obtain ⟨front, _, rfl, label_spells, body_spells⟩ := spells_append.mp spells
      obtain ⟨back, rest, rfl, back_spells, later_spells⟩ := spells_append.mp body_spells
      simp only [List.length_append] at fuel
      have front_fuel : front.length ≤ n + 1 := by omega
      have back_fuel : back.length ≤ n := by omega
      have rest_fuel : rest.length ≤ n := by omega
      have ends := endsGroup_append later later_spells (endsGroup_closeBrace plain closing)
      have last_label : statements = [] → ∀ behind, Cursor.isAtLabel
          ⟨rest ++ ⟨.closeBrace, "\x7d", closing⟩ :: tail, behind⟩ = false := by
        intro empty behind
        obtain rfl := last empty
        obtain rfl : rest = [] := later_spells
        rfl
      obtain ⟨span', found_labels, found, behind', read_eq, labels_strip, strip_eq⟩ :=
        exists_groupWith structured_labels structured_statements
          (reads _ List.mem_cons_self) label_spells back_spells front_fuel back_fuel ends last_label
          behind
      obtain ⟨others, behind'', repeats, others_strip⟩ := induction later
        (fun other member => reads other (List.mem_cons_of_mem _ member)) later_spells rest_fuel
        behind'
      refine ⟨.mk span' false found_labels found :: others, behind'', ?_,
        by simp [SwitchGroup.stripAll, labels_strip, strip_eq, others_strip]⟩
      obtain ⟨label, labels, rfl⟩ := List.exists_cons_of_ne_nil labelled
      obtain ⟨_, _, rfl, first_spells, -⟩ := spells_append.mp label_spells
      obtain ⟨text, word, more, rfl⟩ := SwitchLabel.exists_cons_of_spells first_spells
      simp only [List.append_assoc, List.cons_append] at read_eq ⊢
      refine .next ?_ ?_ repeats
      · simp [groupOrEnd, read_eq]
      · simp
        omega

theorem readsStmt_switch {span : Span} {selector : Expr} {groups : List SwitchGroup}
    (structured : (Stmt.switch span selector groups).IsStructured)
    (reads : ∀ group ∈ groups, ∀ stmt ∈ group.statements, ReadsStmt stmt) :
    ReadsStmt (.switch span selector groups) := by
  rintro _ ⟨word, _, rfl, spells⟩ n fuel tail resumes behind
  obtain ⟨test, _, rfl, test_spells, opening, _, rfl, body_spells⟩ := spells_append.mp spells
  obtain ⟨inner, _, rfl, inner_spells, closing, _, rfl, rfl⟩ := spells_append.mp body_spells
  simp only [List.length_cons, List.length_append] at fuel
  obtain ⟨n, rfl⟩ : ∃ m, n = m + 1 := ⟨n - 1, by omega⟩
  have test_fuel : test.length ≤ n := by omega
  have inner_fuel : inner.length ≤ n := by omega
  have ends := endsGroup_append structured.2 inner_spells
    (endsGroup_closeBrace resumes.plain closing)
  have body_plain : AllPlain (⟨.openBrace, "\x7b", opening⟩ ::
      (inner ++ ⟨.closeBrace, "\x7d", closing⟩ :: tail)) :=
    plain_cons (ends.resumes true).plain (by simp)
  obtain ⟨found, behind', test_eq, test_strip⟩ :=
    reads_conditionWith structured.1 test_spells test_fuel body_plain word.stop
  obtain ⟨cases, behind'', repeats, strip_eq⟩ := repeats_groups resumes.plain closing structured.2
    reads inner_spells inner_fuel opening.stop
  refine ⟨.switch (Cursor.spanFrom ⟨tail, closing.stop⟩ word.start) found cases, closing.stop, ?_,
    by simp [Stmt.strip, test_strip, strip_eq]⟩
  obtain ⟨paren, more, rfl, -⟩ := test_spells
  rw [List.cons_append] at test_eq
  simp [stmtUpTo_succ_cons, stmtAtWith, switchWith_eq, test_eq, accept_apply, repeats.many_eq]

/-! ## Handlers -/

/-- The type of a handler is read up to the name of its variable. -/
theorem exists_caughtTypes {text name : String} {second : Span} {rest : List Token}
    (identifier : isIdentifier text = true) (plain : AllPlain (⟨.word, name, second⟩ :: rest))
    (first : Span) (behind : Nat) :
    ∃ span, caughtTypes ⟨⟨.word, text, first⟩ :: ⟨.word, name, second⟩ :: rest, behind⟩ =
      ([⟨text, span⟩], ⟨⟨.word, name, second⟩ :: rest, first.stop⟩) := by
  refine ⟨Cursor.spanFrom ⟨⟨.word, name, second⟩ :: rest, first.stop⟩ first.start, ?_⟩
  have ends : TokenKind.word ∉ [.less, .dot, .openBracket] := by decide
  simp [caughtTypes, typeRef?_of_isIdentifier identifier plain ends, many, manyUpTo, accept_apply]

/-- A handler is read. -/
theorem exists_handlerWith {type name : String} {body : Block}
    (type_identifier : isIdentifier type = true) (structured : body.IsStructured)
    (reads : ReadsBlock body) {tokens tail : List Token}
    (spells : Spells (.word "catch" :: (Piece.inParens [.word type, .word name] ++ body.pieces))
      tokens) {n : Nat} (fuel : tokens.length ≤ n) (plain : AllPlain tail) (behind : Nat) :
    ∃ span type_span found behind', handlerWith (stmtUpTo n) ⟨tokens ++ tail, behind⟩ =
        (some (.mk span [⟨type, type_span⟩] name found), ⟨tail, behind'⟩) ∧
      found.strip = body.strip := by
  obtain ⟨word, _, rfl, spells⟩ := spells
  obtain ⟨_, rest, rfl, header_spells, body_spells⟩ := spells_append.mp spells
  obtain ⟨opening, _, rfl, first, _, rfl, second, _, rfl, closing, _, rfl, rfl⟩ := header_spells
  simp only [List.length_cons, List.length_append] at fuel
  have body_fuel : rest.length ≤ n + 1 := by omega
  have closed : AllPlain (⟨.closeParen, ")", closing⟩ :: (rest ++ tail)) :=
    plain_cons ((Block.plain_of_spells structured body_spells).append plain) (by simp)
  have named : AllPlain (⟨.word, name, second⟩ :: ⟨.closeParen, ")", closing⟩ :: (rest ++ tail)) :=
    plain_cons closed (by simp)
  have typed : AllPlain (⟨.word, type, first⟩ :: ⟨.word, name, second⟩ ::
      ⟨.closeParen, ")", closing⟩ :: (rest ++ tail)) := plain_cons named (by simp)
  have not_final : Token.isWord ⟨.word, type, first⟩ "final" = false := by
    simp [Token.isWord, ne_of_isIdentifier type_identifier (by decide : isReserved "final" = true)]
  obtain ⟨found, behind', read_eq, strip_eq⟩ :=
    reads rest body_spells n body_fuel tail plain closing.stop
  obtain ⟨type_span, types_eq⟩ := exists_caughtTypes type_identifier named first opening.stop
  refine ⟨Cursor.spanFrom ⟨tail, behind'⟩ word.start, type_span, found, behind', ?_, strip_eq⟩
  simp [handlerWith, acceptWord_apply, Token.isWord, accept_apply,
    skipVariableModifiers_eq typed not_final, types_eq, read_eq]

/-- The handlers of a `try` are read one after the other. -/
theorem repeats_handlers {n : Nat} {tail : List Token} (plain : AllPlain tail)
    (ends : ∀ behind, Cursor.isAtWord ⟨tail, behind⟩ "catch" = false) {handlers : List Handler}
    (structured : Handler.AllStructured handlers)
    (reads : ∀ handler ∈ handlers, ReadsBlock handler.body) {tokens : List Token}
    (spells : Spells (Handler.piecesOf handlers) tokens) (fuel : tokens.length ≤ n)
    (behind : Nat) :
    ∃ found behind', Repeats (handlerWith (stmtUpTo n)) ⟨tokens ++ tail, behind⟩ found
        ⟨tail, behind'⟩ ∧ Handler.stripAll found = Handler.stripAll handlers := by
  induction handlers generalizing tokens behind with
  | nil =>
      obtain rfl : tokens = [] := spells
      exact ⟨[], behind, .stop (by simp [handlerWith, acceptWord_apply, ends]), rfl⟩
  | cons handler handlers induction =>
      obtain ⟨span, types, name, body⟩ := handler
      obtain ⟨⟨⟨type, rfl, identifier⟩, -, body_structured⟩, later⟩ := structured
      obtain ⟨word, _, rfl, spells⟩ := spells
      obtain ⟨header, _, rfl, header_spells, body_spells⟩ := spells_append.mp spells
      obtain ⟨front, rest, rfl, front_spells, later_spells⟩ := spells_append.mp body_spells
      simp only [List.length_cons, List.length_append] at fuel
      have front_fuel : (⟨.word, "catch", word⟩ :: (header ++ front)).length ≤ n := by
        simp only [List.length_cons, List.length_append]
        omega
      have rest_fuel : rest.length ≤ n := by omega
      have rest_plain := (Piece.plain_of_spells (Handler.isSound_piecesOf handlers later)
        later_spells).append plain
      obtain ⟨span', type_span, found, behind', read_eq, strip_eq⟩ := exists_handlerWith
        identifier body_structured (reads _ List.mem_cons_self)
        ⟨word, header ++ front, rfl, spells_append.mpr ⟨header, front, rfl, header_spells,
          front_spells⟩⟩ front_fuel rest_plain behind
      obtain ⟨others, behind'', repeats, others_strip⟩ := induction later
        (fun other member => reads other (List.mem_cons_of_mem _ member)) later_spells rest_fuel
        behind'
      refine ⟨.mk span' [⟨type.text, type_span⟩] name found :: others, behind'', ?_,
        by simp [Handler.stripAll, TypeRef.strip, strip_eq, others_strip]⟩
      simp only [List.cons_append, List.append_assoc] at read_eq ⊢
      refine .next read_eq ?_ repeats
      simp
      omega

/-- Reads a `finally` clause, if there is one. -/
def cleanupWith (stmt : Parser Stmt) : Parser (Option Block) := do
  if ← acceptWord "finally" then some <$> blockWith stmt else pure none

theorem tryWith_eq (stmt : Parser Stmt) (start : Nat) : tryWith stmt start = (do
    advance 1
    let spans ← resources
    let body ← blockWith stmt
    let handlers ← many (handlerWith stmt)
    let cleanup ← cleanupWith stmt
    return .tries (← spanFrom start) spans body handlers cleanup) := by
  funext cursor
  simp only [tryWith, cleanupWith, bind_apply]
  split_ifs <;> rfl

/-- The block of a `finally` clause is read, if there is one. -/
theorem exists_cleanup {cleanup : Option Block} (structured : Block.CleanupStructured cleanup)
    (reads : ∀ block ∈ cleanup, ReadsBlock block) {tokens tail : List Token}
    (spells : Spells (Block.cleanupPieces cleanup) tokens) {n : Nat} (fuel : tokens.length ≤ n)
    (resumes : Resumes false tail) :
    (AllPlain (tokens ++ tail) ∧
      ∀ behind, Cursor.isAtWord ⟨tokens ++ tail, behind⟩ "catch" = false) ∧
    Reads Block.stripCleanup (cleanupWith (stmtUpTo n)) cleanup tokens tail := by
  have plain := (Piece.plain_of_spells (Block.isSound_cleanupPieces cleanup structured)
    spells).append resumes.plain
  cases cleanup with
  | none =>
      obtain rfl : tokens = [] := spells
      refine ⟨⟨plain, resumes.no_handler⟩, fun behind => ⟨none, behind, ?_, rfl⟩⟩
      simp [cleanupWith, acceptWord_apply, resumes.no_cleanup]
  | some block =>
      obtain ⟨word, rest, rfl, body_spells⟩ := spells
      refine ⟨⟨plain, fun _ => rfl⟩, fun behind => ?_⟩
      have body_fuel : rest.length ≤ n + 1 := by simp at fuel; omega
      obtain ⟨found, behind', read_eq, strip_eq⟩ :=
        reads block rfl rest body_spells n body_fuel tail resumes.plain word.stop
      refine ⟨some found, behind', ?_, by simp [Block.stripCleanup, strip_eq]⟩
      simp [cleanupWith, acceptWord_apply, Token.isWord, read_eq]

theorem readsStmt_tries {span : Span} {resources : List Span} {body : Block}
    {handlers : List Handler} {cleanup : Option Block}
    (structured : (Stmt.tries span resources body handlers cleanup).IsStructured)
    (reads : ReadsBlock body) (reads_handlers : ∀ handler ∈ handlers, ReadsBlock handler.body)
    (reads_cleanup : ∀ block ∈ cleanup, ReadsBlock block) :
    ReadsStmt (.tries span resources body handlers cleanup) := by
  obtain ⟨rfl, body_structured, handlers_structured, cleanup_structured⟩ := structured
  rintro _ ⟨word, _, rfl, spells⟩ n fuel tail resumes behind
  obtain ⟨front, _, rfl, front_spells, later_spells⟩ := spells_append.mp spells
  obtain ⟨middle, back, rfl, middle_spells, back_spells⟩ := spells_append.mp later_spells
  simp only [List.length_cons, List.length_append] at fuel
  obtain ⟨n, rfl⟩ : ∃ m, n = m + 1 := ⟨n - 1, by omega⟩
  have front_fuel : front.length ≤ n + 1 := by omega
  have middle_fuel : middle.length ≤ n := by omega
  have back_fuel : back.length ≤ n := by omega
  obtain ⟨⟨back_plain, no_handler⟩, cleans⟩ := exists_cleanup cleanup_structured reads_cleanup
    back_spells back_fuel (resumes.mono nofun)
  have middle_plain := (Piece.plain_of_spells (Handler.isSound_piecesOf handlers
    handlers_structured) middle_spells).append back_plain
  obtain ⟨found, behind', read_eq, strip_eq⟩ :=
    reads front front_spells n front_fuel _ middle_plain word.stop
  obtain ⟨clauses, behind'', repeats, clauses_strip⟩ := repeats_handlers back_plain no_handler
    handlers_structured reads_handlers middle_spells middle_fuel behind'
  obtain ⟨last, ended, last_eq, last_strip⟩ := cleans behind''
  refine ⟨.tries (Cursor.spanFrom ⟨tail, ended⟩ word.start) [] found clauses last, ended, ?_,
    by simp [Stmt.strip, strip_eq, clauses_strip, last_strip]⟩
  obtain ⟨opening, more, rfl⟩ : ∃ opening more, front = ⟨.openBrace, "\x7b", opening⟩ :: more := by
    obtain ⟨span, statements⟩ := body
    obtain ⟨opening, more, rfl, -⟩ := front_spells
    exact ⟨opening, more, rfl⟩
  rw [List.cons_append] at read_eq
  simp [stmtUpTo_succ_cons, stmtAtWith, tryWith_eq, resources, accept_apply, read_eq,
    repeats.many_eq, last_eq]

/-! ## All of them -/

mutual

/-- Every structured statement is read from its tokens. -/
theorem readsStmt_of_structured : ∀ stmt : Stmt, stmt.IsStructured → ReadsStmt stmt
  | .expr _ _, statement => readsStmt_expr statement
  | .jump .., structured => readsStmt_jump structured
  | .returns .., structured => readsStmt_returns structured
  | .throws .., writable => readsStmt_throws writable
  | .conditional _ _ whenTrue none, structured =>
      readsStmt_if structured (readsStmt_of_structured whenTrue structured.2)
  | .conditional _ _ whenTrue (some whenFalse), structured =>
      readsStmt_ifElse structured (readsStmt_of_structured whenTrue structured.2.1.1)
        (readsStmt_of_structured whenFalse structured.2.2)
  | .whileLoop _ _ body, structured =>
      readsStmt_whileLoop structured (readsStmt_of_structured body structured.2)
  | .doLoop _ body _, structured =>
      readsStmt_doLoop structured (readsStmt_of_structured body structured.1)
  | .forLoop _ _ _ _ body, structured =>
      readsStmt_forLoop structured (readsStmt_of_structured body structured.2.2.2)
  | .switch _ _ groups, structured =>
      readsStmt_switch structured (readsGroups_of_structured groups structured.2)
  | .synchronized _ _ body, structured =>
      readsStmt_synchronized structured (readsBlock_of_structured body structured.2)
  | .tries _ _ body handlers cleanup, structured =>
      readsStmt_tries structured (readsBlock_of_structured body structured.2.1)
        (readsHandlers_of_structured handlers structured.2.2.1)
        (readsCleanup_of_structured cleanup structured.2.2.2)
  | .labeled _ _ body, structured =>
      readsStmt_labeled structured (readsStmt_of_structured body structured.2)
  | .block inner, structured => readsStmt_block (readsBlock_of_structured inner structured)
  | .empty _, _ => readsStmt_empty

theorem readsStmts_of_structured : ∀ stmts : List Stmt, Stmt.AllStructured stmts →
    ∀ stmt ∈ stmts, ReadsStmt stmt
  | [], _ => nofun
  | stmt :: stmts, structured => List.forall_mem_cons.mpr
      ⟨readsStmt_of_structured stmt structured.1, readsStmts_of_structured stmts structured.2⟩

theorem readsBlock_of_structured : ∀ block : Block, block.IsStructured → ReadsBlock block
  | .mk _ statements, structured =>
      readsBlock_mk structured (readsStmts_of_structured statements structured)

theorem readsGroups_of_structured : ∀ groups : List SwitchGroup,
    SwitchGroup.AllStructured groups → ∀ group ∈ groups, ∀ stmt ∈ group.statements, ReadsStmt stmt
  | [], _ => nofun
  | .mk _ _ _ statements :: groups, structured => List.forall_mem_cons.mpr
      ⟨readsStmts_of_structured statements structured.1.2.2.2.1,
        readsGroups_of_structured groups structured.2⟩

theorem readsHandlers_of_structured : ∀ handlers : List Handler, Handler.AllStructured handlers →
    ∀ handler ∈ handlers, ReadsBlock handler.body
  | [], _ => nofun
  | .mk _ _ _ body :: handlers, structured => List.forall_mem_cons.mpr
      ⟨readsBlock_of_structured body structured.1.2.2,
        readsHandlers_of_structured handlers structured.2⟩

theorem readsCleanup_of_structured : ∀ cleanup : Option Block, Block.CleanupStructured cleanup →
    ∀ block ∈ cleanup, ReadsBlock block
  | none, _ => nofun
  | some block, structured => fun other member => by
      obtain rfl := Option.mem_some.mp member
      exact readsBlock_of_structured block structured

end

end Parser

/-! ## Programs -/

/-- The text of structured statements in braces is cut into the tokens of these. -/
theorem Stmt.exists_scan_bodyText (source : Source) {stmts : List Stmt}
    (structured : Stmt.AllStructured stmts) :
    ∃ text tokens, Stmt.bodyText source stmts = .ok text ∧ Token.scan 0 text.toList = tokens ∧
      Spells (Block.mk default stmts).pieces tokens := by
  obtain ⟨text, text_eq, scans⟩ :=
    Piece.exists_spells_renderAll source (Stmt.isSound_piecesOf stmts structured)
  have brace : Token.Scans "\x7b" (fun _ => True) (Token.spelled [(.openBrace, "\x7b")]) :=
    fun _ _ _ => ⟨[⟨_, _, _⟩], ⟨rfl, .singleton _⟩, rfl⟩
  have opens : Token.Scans "\x7b " (fun _ => True) (Token.spelled [(.openBrace, "\x7b")]) :=
    brace.append_blank fun _ => trivial
  obtain ⟨_, ⟨_, opening_mem, tokens, spells, rfl⟩, scan_eq⟩ :=
    (opens.append scans fun _ _ => trivial) 0 ['\x7d'] trivial
  obtain ⟨opening, rfl⟩ := Token.mem_spelled_singleton.mp opening_mem
  obtain ⟨closing, closing_eq⟩ : ∃ closing,
      Token.scanFrom 0 (0 + byteLength ("\x7b " ++ text).toList) ['\x7d'] =
        [⟨.closeBrace, "\x7d", closing⟩] := ⟨_, rfl⟩
  refine ⟨"\x7b " ++ text ++ "\x7d", _, by rw [Stmt.bodyText, text_eq]; rfl, rfl, ?_⟩
  have whole_eq : Token.scan 0 ("\x7b " ++ text ++ "\x7d").toList =
      ⟨.openBrace, "\x7b", opening⟩ :: (tokens ++ [⟨.closeBrace, "\x7d", closing⟩]) := by
    have end_eq : "\x7d".toList = ['\x7d'] := rfl
    rw [Token.scan, String.toList_append, end_eq, scan_eq, closing_eq]
    simp
  rw [whole_eq]
  exact ⟨opening, _, rfl, spells_append.mpr ⟨tokens, _, rfl, spells, closing, [], rfl, rfl⟩⟩

/-- Reading is correct on structured programs. Structured statements have a text, with a space
between their tokens, and the block that is read from it has these statements, without their spans
and the parentheses of their expressions. -/
theorem Block.read_bodyText (source : Source) {stmts : List Stmt}
    (structured : Stmt.AllStructured stmts) :
    ∃ text, Stmt.bodyText source stmts = .ok text ∧
      (byteLength text.toList < offsetBound → ∃ span found,
        Block.read (.ofString text) 0 = .ok (.mk span found) ∧
          Stmt.stripAll found = Stmt.stripAll stmts) := by
  obtain ⟨text, tokens, text_eq, scan_eq, spells⟩ := Stmt.exists_scan_bodyText source structured
  refine ⟨text, text_eq, fun bounded => ?_⟩
  obtain ⟨⟨span, found⟩, behind, read_eq, strip_eq⟩ :=
    Parser.readsBlock_of_structured (.mk default stmts) structured tokens spells
      (tokens.length + 1) (by omega) [] nofun (Cursor.start tokens).behind
  refine ⟨span, found, ?_, by simpa [Block.strip] using strip_eq⟩
  rw [List.append_nil] at read_eq
  have scanned : Token.scan? 0 (Source.ofString text).chars = .ok tokens :=
    scan_eq ▸ Token.scan?_eq_ok bounded
  have block_eq : (Parser.block (.start tokens)).1 = .mk span found := congrArg Prod.fst read_eq
  rw [Block.read, scanned, ← block_eq]
  rfl

/-- A loop with a label that is left from inside. -/
def searchBody : List Stmt :=
  [.labeled default ⟨"a", default⟩ (.doLoop default
    (.conditional default (.name default "b") (.expr default (.call default ⟨"c", default⟩ []))
      (some (.jump default .break (some ⟨"a", default⟩))))
    (.binary default .less (.name default "d") (.name default "e")))]

theorem Block.read_searchBody : ∃ span found,
    Block.read (.ofString
        "\x7b a : do if ( b ) c ( ) ; else break a ; while ( (d < e) ) ; \x7d") 0 =
      .ok (.mk span found) ∧ Stmt.stripAll found = Stmt.stripAll searchBody := by
  have identifiers : ∀ text ∈ ["a", "b", "c", "d", "e"], isIdentifier text = true := by decide
  have structured : Stmt.AllStructured searchBody := by
    refine ⟨⟨identifiers "a" (by simp), ⟨identifiers "b" (by simp),
      ⟨⟨identifiers "c" (by simp), rfl⟩, rfl⟩, ?_⟩, identifiers "d" (by simp),
      identifiers "e" (by simp)⟩, trivial⟩
    rintro _ ⟨rfl⟩
    exact identifiers "a" (by simp)
  obtain ⟨text, text_eq, read⟩ := Block.read_bodyText (.ofString "") structured
  obtain rfl : "\x7b a : do if ( b ) c ( ) ; else break a ; while ( (d < e) ) ; \x7d" = text :=
    Except.ok.inj text_eq
  exact read (by decide)

end JavaOutline
