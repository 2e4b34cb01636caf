import JavaOutline.Java.Stmt
import JavaOutline.Proofs.Java.Writable

/-!
# Statements that can be written and read again

A structured statement is built by the statement forms of the language from conditions and values
that are writable. It is written with a space between its tokens, each of its expressions as its
rendering. Neither spans nor the parentheses of expressions can be told from what is written, so
that statements are compared stripped of both.
-/

namespace JavaOutline

open Token (Lexeme Scans Ends spelled)

/-! ## Pieces -/

/-- What stands between two spaces of a written statement. -/
inductive Piece where
  /-- A token. -/
  | lexeme (kind : TokenKind) (text : String)
  /-- An expression, which is written as its rendering. -/
  | expr (value : Expr)

namespace Piece

/-- A word. -/
def word (text : String) : Piece := .lexeme .word text

/-- The semicolon. -/
def semicolon : Piece := .lexeme .semicolon ";"

/-- The colon. -/
def colon : Piece := .lexeme .colon ":"

/-- Some pieces in parentheses. -/
def inParens (pieces : List Piece) : List Piece :=
  .lexeme .openParen "(" :: (pieces ++ [.lexeme .closeParen ")"])

/-- Some pieces in braces. -/
def inBraces (pieces : List Piece) : List Piece :=
  .lexeme .openBrace "\x7b" :: (pieces ++ [.lexeme .closeBrace "\x7d"])

/-- The text of a piece. -/
def render (source : Source) : Piece → Except Unrenderable String
  | .lexeme _ text => .ok text
  | .expr value => value.render source

/-- The text of some pieces, with a space behind each of them. -/
def renderAll (source : Source) : List Piece → Except Unrenderable String
  | [] => .ok ""
  | piece :: pieces => do
    let text ← piece.render source
    let texts ← renderAll source pieces
    return text ++ " " ++ texts

/-- Whether tokens are those of some pieces. -/
def Spells : List Piece → List Token → Prop
  | [], tokens => tokens = []
  | .lexeme kind text :: pieces, tokens =>
    ∃ span rest, tokens = ⟨kind, text, span⟩ :: rest ∧ Spells pieces rest
  | .expr value :: pieces, tokens =>
    ∃ front rest, tokens = front ++ rest ∧ front ∈ value.spelling ∧ Spells pieces rest

theorem spells_append {left right : List Piece} {tokens : List Token} :
    Spells (left ++ right) tokens ↔
      ∃ front back, tokens = front ++ back ∧ Spells left front ∧ Spells right back := by
  induction left generalizing tokens with
  | nil => simp [Spells]
  | cons piece left induction =>
      cases piece with
      | lexeme kind text =>
          simp only [List.cons_append, Spells, induction]
          constructor
          · rintro ⟨span, _, rfl, front, back, rfl, spells, spells'⟩
            exact ⟨⟨kind, text, span⟩ :: front, back, rfl, ⟨span, front, rfl, spells⟩, spells'⟩
          · rintro ⟨_, back, rfl, ⟨span, front, rfl, spells⟩, spells'⟩
            exact ⟨span, front ++ back, rfl, front, back, rfl, spells, spells'⟩
      | expr value =>
          simp only [List.cons_append, Spells, induction]
          constructor
          · rintro ⟨first, _, rfl, member, front, back, rfl, spells, spells'⟩
            exact ⟨first ++ front, back, by rw [List.append_assoc],
              ⟨first, front, rfl, member, spells⟩, spells'⟩
          · rintro ⟨_, back, rfl, ⟨first, front, rfl, member, spells⟩, spells'⟩
            exact ⟨first, front ++ back, by rw [List.append_assoc], member, front, back, rfl,
              spells, spells'⟩

/-- The punctuation marks of structured statements. -/
def marks : List Lexeme :=
  [(.openParen, "("), (.closeParen, ")"), (.openBrace, "\x7b"), (.closeBrace, "\x7d"),
    (.semicolon, ";"), (.colon, ":"), (.assign, "=")]

/-- Whether a piece is a word, a punctuation mark, or a writable expression. -/
def IsSound : Piece → Prop
  | .lexeme kind text => kind = .word ∧ Token.isWordText text ∨ (kind, text) ∈ marks
  | .expr value => value.Writable

theorem scans_mark {kind : TokenKind} {text : String} (mark : (kind, text) ∈ marks) :
    Scans text BeginsBlank (spelled [(kind, text)]) := by
  rintro offset _ ⟨more, rfl⟩
  simp only [marks, List.mem_cons, Prod.mk.injEq, List.not_mem_nil, or_false] at mark
  rcases mark with ⟨rfl, rfl⟩ | ⟨rfl, rfl⟩ | ⟨rfl, rfl⟩ | ⟨rfl, rfl⟩ | ⟨rfl, rfl⟩ | ⟨rfl, rfl⟩ |
    ⟨rfl, rfl⟩ <;>
    exact ⟨[⟨_, _, _⟩], ⟨rfl, .singleton _⟩, rfl⟩

/-- The text of sound pieces is cut into their tokens, whatever follows. -/
theorem exists_spells_renderAll (source : Source) {pieces : List Piece}
    (sound : ∀ piece ∈ pieces, piece.IsSound) :
    ∃ text, renderAll source pieces = .ok text ∧
      Scans text (fun _ => True) {tokens | Spells pieces tokens} := by
  induction pieces with
  | nil => exact ⟨"", rfl, fun _ _ _ => ⟨[], rfl, rfl⟩⟩
  | cons piece pieces induction =>
      obtain ⟨later, later_eq, later_scans⟩ := induction fun other member =>
        sound other (List.mem_cons_of_mem piece member)
      have first_sound := sound piece List.mem_cons_self
      cases piece with
      | lexeme kind text =>
          refine ⟨text ++ " " ++ later, by rw [renderAll, later_eq]; rfl, fun offset rest _ => ?_⟩
          have scans : Scans text BeginsBlank (spelled [(kind, text)]) := by
            rcases first_sound with ⟨rfl, word⟩ | mark
            · exact (Token.scans_word word).mono fun rest ⟨more, rest_eq⟩ =>
                rest_eq ▸ Ends.before (by decide) more
            · exact scans_mark mark
          obtain ⟨_, ⟨first, first_mem, tokens, spells, rfl⟩, scan_eq⟩ :=
            ((scans.append_blank fun rest => ⟨rest, rfl⟩).append later_scans fun _ _ => trivial)
              offset rest trivial
          obtain ⟨span, rfl⟩ := Token.mem_spelled_singleton.mp first_mem
          exact ⟨_, ⟨span, tokens, rfl, spells⟩, scan_eq⟩
      | expr value =>
          obtain ⟨text, text_eq, scans⟩ := value.exists_scans_render source first_sound
          refine ⟨text ++ " " ++ later, ?_, fun offset rest _ => ?_⟩
          · rw [renderAll, render, text_eq, later_eq]
            rfl
          obtain ⟨_, ⟨first, first_mem, tokens, spells, rfl⟩, scan_eq⟩ :=
            ((scans.append_blank (Ends.before (by decide))).append later_scans fun _ _ => trivial)
              offset rest trivial
          exact ⟨_, ⟨first, tokens, rfl, first_mem, spells⟩, scan_eq⟩

end Piece

/-! ## Labels and clauses -/

/-- Whether a label of a `switch` is `default`, or has one value that is writable. -/
def SwitchLabel.IsStructured : SwitchLabel → Prop
  | .case _ [value] => value.Writable
  | .case .. => False
  | .default _ => True

/-- The pieces of a label. -/
def SwitchLabel.pieces : SwitchLabel → List Piece
  | .case _ values => .word "case" :: (values.map .expr ++ [.colon])
  | .default _ => [.word "default", .colon]

/-- A label without its spans. -/
def SwitchLabel.strip : SwitchLabel → SwitchLabel
  | .case _ values => .case Inhabited.default (Expr.stripAll values)
  | .default _ => .default Inhabited.default

/-- A name without its span. -/
def Name.strip (name : Name) : Name := ⟨name.text, default⟩

/-- A type without its span. -/
def TypeRef.strip (type : TypeRef) : TypeRef := ⟨type.text, default⟩

/-- A declaration of variables without its spans. -/
def Variables.strip (declaration : Variables) : Variables :=
  ⟨default, declaration.type.strip, declaration.declarators.map fun declarator =>
    ⟨default, declarator.name.strip, declarator.value.map Expr.strip⟩⟩

/-- The first part of a `for` header without its spans. -/
def ForInit.strip : ForInit → ForInit
  | .nothing => .nothing
  | .locals declaration => .locals declaration.strip
  | .exprs values => .exprs (Expr.stripAll values)

/-- A variable without its spans. -/
def Parameter.strip (parameter : Parameter) : Parameter :=
  ⟨default, parameter.type.strip, parameter.name.strip⟩

/-! ## Statements -/

/-- Whether an expression is a call of a method without arguments or an assignment to a variable. -/
def Expr.IsStatement : Expr → Prop
  | call _ method arguments => isIdentifier method.text ∧ arguments = []
  | assignment _ op target value =>
    op = .assign ∧ (∃ span name, target = .name span name ∧ isIdentifier name) ∧ value.Writable
  | _ => False

/-- The pieces of an expression that is a statement. -/
def Expr.statementPieces : Expr → List Piece
  | call _ method _ => .word method.text :: Piece.inParens []
  | assignment _ _ (.name _ text) value => [.word text, .lexeme .assign "=", .expr value]
  | _ => []

/-- Whether an `else` behind a statement would belong to it. -/
def Stmt.endsOpen : Stmt → Bool
  | .conditional _ _ _ none => true
  | .conditional _ _ _ (some whenFalse) => whenFalse.endsOpen
  | .whileLoop _ _ body | .forLoop _ _ _ _ body | .forEach _ _ _ body | .labeled _ _ body =>
    body.endsOpen
  | _ => false

mutual

/-- Whether a statement is a call of a method without arguments, an assignment to a variable, an
empty statement, a block, an `if`, a loop with a condition, a jump, a `return`, a `throw`, a
`synchronized`, a `switch` without arrows or a `try` without resources, or such a statement with a
label. An `if` with an `else` has no `if` without one at the end of its first branch. -/
def Stmt.IsStructured : Stmt → Prop
  | .expr _ value => value.IsStatement
  | .jump _ _ label => ∀ name ∈ label, isIdentifier name.text
  | .returns _ value => ∀ expr ∈ value, expr.Writable
  | .throws _ value => value.Writable
  | .conditional _ condition whenTrue none => condition.Writable ∧ whenTrue.IsStructured
  | .conditional _ condition whenTrue (some whenFalse) =>
    condition.Writable ∧ (whenTrue.IsStructured ∧ whenTrue.endsOpen = false) ∧
      whenFalse.IsStructured
  | .whileLoop _ condition body => condition.Writable ∧ body.IsStructured
  | .doLoop _ body condition => body.IsStructured ∧ condition.Writable
  | .forLoop _ init condition update body =>
    init = .nothing ∧ (∃ expr, condition = some expr ∧ expr.Writable) ∧ update = [] ∧
      body.IsStructured
  | .switch _ selector groups => selector.Writable ∧ SwitchGroup.AllStructured groups
  | .synchronized _ lock body => lock.Writable ∧ body.IsStructured
  | .tries _ resources body handlers cleanup =>
    resources = [] ∧ body.IsStructured ∧ Handler.AllStructured handlers ∧
      Block.CleanupStructured cleanup
  | .labeled _ label body => isIdentifier label.text ∧ body.IsStructured
  | .block inner => inner.IsStructured
  | .empty _ => True
  | .locals _ | .localType .. | .constructorCall .. | .assertion .. | .forEach .. | .unparsed _ =>
    False

/-- Whether some statements are structured. -/
def Stmt.AllStructured : List Stmt → Prop
  | [] => True
  | stmt :: stmts => stmt.IsStructured ∧ Stmt.AllStructured stmts

/-- Whether the statements of a block are structured. -/
def Block.IsStructured : Block → Prop
  | .mk _ statements => Stmt.AllStructured statements

/-- Whether the groups of a `switch` have labels and structured statements; only the last of them
may have no statements. -/
def SwitchGroup.AllStructured : List SwitchGroup → Prop
  | [] => True
  | .mk _ arrow labels statements :: groups =>
    (arrow = false ∧ labels ≠ [] ∧ (∀ label ∈ labels, label.IsStructured) ∧
      Stmt.AllStructured statements ∧ (statements = [] → groups = [])) ∧
        SwitchGroup.AllStructured groups

/-- Whether some `catch` clauses name one type each and have structured statements. -/
def Handler.AllStructured : List Handler → Prop
  | [] => True
  | .mk _ types name body :: handlers =>
    ((∃ type, types = [type] ∧ isIdentifier type.text) ∧ isIdentifier name ∧ body.IsStructured) ∧
      Handler.AllStructured handlers

/-- Whether the block of a `finally` clause, if there is one, is structured. -/
def Block.CleanupStructured : Option Block → Prop
  | none => True
  | some body => body.IsStructured

end

/-- The word of a jump. -/
def JumpKind.word : JumpKind → String
  | .break => "break"
  | .continue => "continue"

mutual

/-- The pieces of a structured statement. -/
def Stmt.pieces : Stmt → List Piece
  | .expr _ value => value.statementPieces ++ [.semicolon]
  | .jump _ kind label => .word kind.word :: (label.toList.map (.word ·.text) ++ [.semicolon])
  | .returns _ value => .word "return" :: (value.toList.map .expr ++ [.semicolon])
  | .throws _ value => [.word "throw", .expr value, .semicolon]
  | .conditional _ condition whenTrue none =>
    .word "if" :: (Piece.inParens [.expr condition] ++ whenTrue.pieces)
  | .conditional _ condition whenTrue (some whenFalse) =>
    .word "if" :: (Piece.inParens [.expr condition] ++ (whenTrue.pieces ++
      .word "else" :: whenFalse.pieces))
  | .whileLoop _ condition body =>
    .word "while" :: (Piece.inParens [.expr condition] ++ body.pieces)
  | .doLoop _ body condition =>
    .word "do" :: (body.pieces ++ .word "while" ::
      (Piece.inParens [.expr condition] ++ [.semicolon]))
  | .forLoop _ _ condition _ body =>
    .word "for" :: (Piece.inParens
      (.semicolon :: (condition.toList.map .expr ++ [.semicolon])) ++ body.pieces)
  | .switch _ selector groups =>
    .word "switch" :: (Piece.inParens [.expr selector] ++
      Piece.inBraces (SwitchGroup.piecesOf groups))
  | .synchronized _ lock body =>
    .word "synchronized" :: (Piece.inParens [.expr lock] ++ body.pieces)
  | .tries _ _ body handlers cleanup =>
    .word "try" :: (body.pieces ++ (Handler.piecesOf handlers ++ Block.cleanupPieces cleanup))
  | .labeled _ label body => .word label.text :: .colon :: body.pieces
  | .block inner => inner.pieces
  | .empty _ => [.semicolon]
  | .locals _ | .localType .. | .constructorCall .. | .assertion .. | .forEach .. | .unparsed _ =>
    []

/-- The pieces of some structured statements. -/
def Stmt.piecesOf : List Stmt → List Piece
  | [] => []
  | stmt :: stmts => stmt.pieces ++ Stmt.piecesOf stmts

/-- The pieces of a block of structured statements. -/
def Block.pieces : Block → List Piece
  | .mk _ statements => Piece.inBraces (Stmt.piecesOf statements)

/-- The pieces of some groups. -/
def SwitchGroup.piecesOf : List SwitchGroup → List Piece
  | [] => []
  | .mk _ _ labels statements :: groups =>
    labels.flatMap SwitchLabel.pieces ++ (Stmt.piecesOf statements ++ SwitchGroup.piecesOf groups)

/-- The pieces of some `catch` clauses. -/
def Handler.piecesOf : List Handler → List Piece
  | [] => []
  | .mk _ types name body :: handlers =>
    .word "catch" :: (Piece.inParens (types.map (.word ·.text) ++ [.word name]) ++
      (body.pieces ++ Handler.piecesOf handlers))

/-- The pieces of a `finally` clause, if there is one. -/
def Block.cleanupPieces : Option Block → List Piece
  | none => []
  | some body => .word "finally" :: body.pieces

end

mutual

/-- A statement without its spans and the parentheses of its expressions. -/
@[simp] def Stmt.strip : Stmt → Stmt
  | .locals declaration => .locals declaration.strip
  | .localType _ kind name => .localType default kind name
  | .expr _ value => .expr default value.strip
  | .constructorCall _ target outer arguments =>
    .constructorCall default target (outer.map Expr.strip) (Expr.stripAll arguments)
  | .assertion _ condition message => .assertion default condition.strip (message.map Expr.strip)
  | .jump _ kind label => .jump default kind (label.map Name.strip)
  | .returns _ value => .returns default (value.map Expr.strip)
  | .throws _ value => .throws default value.strip
  | .conditional _ condition whenTrue none =>
    .conditional default condition.strip whenTrue.strip none
  | .conditional _ condition whenTrue (some whenFalse) =>
    .conditional default condition.strip whenTrue.strip (some whenFalse.strip)
  | .whileLoop _ condition body => .whileLoop default condition.strip body.strip
  | .doLoop _ body condition => .doLoop default body.strip condition.strip
  | .forLoop _ init condition update body =>
    .forLoop default init.strip (condition.map Expr.strip) (Expr.stripAll update) body.strip
  | .forEach _ element collection body =>
    .forEach default element.strip collection.strip body.strip
  | .switch _ selector groups => .switch default selector.strip (SwitchGroup.stripAll groups)
  | .synchronized _ lock body => .synchronized default lock.strip body.strip
  | .tries _ resources body handlers cleanup =>
    .tries default (resources.map fun _ => default) body.strip (Handler.stripAll handlers)
      (Block.stripCleanup cleanup)
  | .labeled _ label body => .labeled default label.strip body.strip
  | .block inner => .block inner.strip
  | .empty _ => .empty default
  | .unparsed _ => .unparsed default

/-- Some statements without their spans and the parentheses of their expressions. -/
@[simp] def Stmt.stripAll : List Stmt → List Stmt
  | [] => []
  | stmt :: stmts => stmt.strip :: Stmt.stripAll stmts

/-- A block without its spans and the parentheses of its expressions. -/
@[simp] def Block.strip : Block → Block
  | .mk _ statements => .mk default (Stmt.stripAll statements)

/-- Some groups without their spans and the parentheses of their expressions. -/
@[simp] def SwitchGroup.stripAll : List SwitchGroup → List SwitchGroup
  | [] => []
  | .mk _ arrow labels statements :: groups =>
    .mk default arrow (labels.map SwitchLabel.strip) (Stmt.stripAll statements) ::
      SwitchGroup.stripAll groups

/-- Some `catch` clauses without their spans and the parentheses of their expressions. -/
@[simp] def Handler.stripAll : List Handler → List Handler
  | [] => []
  | .mk _ types name body :: handlers =>
    .mk default (types.map TypeRef.strip) name body.strip :: Handler.stripAll handlers

/-- The block of a `finally` clause, if there is one, without its spans and the parentheses of its
expressions. -/
@[simp] def Block.stripCleanup : Option Block → Option Block
  | none => none
  | some body => some body.strip

end

/-! ## The pieces of structured statements are sound -/

namespace Piece

theorem isSound_word {text : String} (word : Token.isWordText text = true) :
    (Piece.word text).IsSound :=
  .inl ⟨rfl, word⟩

theorem isSound_identifier {text : String} (identifier : isIdentifier text = true) :
    (Piece.word text).IsSound :=
  isSound_word (isWordText_of_isIdentifier identifier)

theorem isSound_inParens {pieces : List Piece} (sound : ∀ piece ∈ pieces, piece.IsSound) :
    ∀ piece ∈ inParens pieces, piece.IsSound := by
  simp only [inParens, List.forall_mem_cons, List.forall_mem_append]
  exact ⟨.inr (by decide), sound, .inr (by decide), nofun⟩

theorem isSound_condition {condition : Expr} (writable : condition.Writable) :
    ∀ piece ∈ inParens [.expr condition], piece.IsSound :=
  isSound_inParens (List.forall_mem_singleton.mpr writable)

theorem isSound_inBraces {pieces : List Piece} (sound : ∀ piece ∈ pieces, piece.IsSound) :
    ∀ piece ∈ inBraces pieces, piece.IsSound := by
  simp only [inBraces, List.forall_mem_cons, List.forall_mem_append]
  exact ⟨.inr (by decide), sound, .inr (by decide), nofun⟩

theorem isSound_semicolon : semicolon.IsSound := .inr (by decide)

theorem isSound_colon : colon.IsSound := .inr (by decide)

end Piece

open Piece

theorem SwitchLabel.isSound_pieces {label : SwitchLabel} (structured : label.IsStructured) :
    ∀ piece ∈ label.pieces, piece.IsSound := by
  cases label with
  | case span values =>
      obtain _ | ⟨value, _ | ⟨other, values⟩⟩ := values
      · exact structured.elim
      · simp only [pieces, List.map_cons, List.map_nil, List.cons_append, List.nil_append,
          List.forall_mem_cons]
        exact ⟨isSound_word (by decide), structured, isSound_colon, nofun⟩
      · exact structured.elim
  | default span =>
      simp only [pieces, List.forall_mem_cons]
      exact ⟨isSound_word (by decide), isSound_colon, nofun⟩

theorem Expr.isSound_statementPieces {value : Expr} (statement : value.IsStatement) :
    ∀ piece ∈ value.statementPieces, piece.IsSound := by
  cases value with
  | call span method arguments =>
      exact List.forall_mem_cons.mpr
        ⟨isSound_identifier statement.1, isSound_inParens nofun⟩
  | assignment span op target value =>
      obtain ⟨-, ⟨span', name, rfl, identifier⟩, writable⟩ := statement
      simp only [statementPieces, List.forall_mem_cons]
      exact ⟨isSound_identifier identifier, .inr (by decide), writable, nofun⟩
  | _ => exact statement.elim

mutual

theorem Stmt.isSound_pieces (stmt : Stmt) (structured : stmt.IsStructured) :
    ∀ piece ∈ stmt.pieces, piece.IsSound := by
  cases stmt with
  | expr span value =>
      simp only [Stmt.pieces, List.forall_mem_append]
      exact ⟨Expr.isSound_statementPieces structured,
        List.forall_mem_singleton.mpr isSound_semicolon⟩
  | jump span kind label =>
      have word : Token.isWordText kind.word = true := by cases kind <;> decide
      simp only [Stmt.pieces, List.forall_mem_cons, List.forall_mem_append, List.forall_mem_map]
      refine ⟨isSound_word word, fun name member => ?_, isSound_semicolon, nofun⟩
      exact isSound_identifier (structured name (Option.mem_toList.mp member))
  | returns span value =>
      simp only [Stmt.pieces, List.forall_mem_cons, List.forall_mem_append, List.forall_mem_map]
      refine ⟨isSound_word (by decide), fun expr member => ?_, isSound_semicolon, nofun⟩
      exact structured expr (Option.mem_toList.mp member)
  | throws span value =>
      simp only [Stmt.pieces, List.forall_mem_cons]
      exact ⟨isSound_word (by decide), structured, isSound_semicolon, nofun⟩
  | conditional span condition whenTrue whenFalse =>
      cases whenFalse with
      | none =>
          simp only [Stmt.pieces, List.forall_mem_cons, List.forall_mem_append]
          exact ⟨isSound_word (by decide), isSound_condition structured.1,
            Stmt.isSound_pieces whenTrue structured.2⟩
      | some whenFalse =>
          simp only [Stmt.pieces, List.forall_mem_cons, List.forall_mem_append]
          exact ⟨isSound_word (by decide), isSound_condition structured.1,
            Stmt.isSound_pieces whenTrue structured.2.1.1, isSound_word (by decide),
            Stmt.isSound_pieces whenFalse structured.2.2⟩
  | whileLoop span condition body =>
      simp only [Stmt.pieces, List.forall_mem_cons, List.forall_mem_append]
      exact ⟨isSound_word (by decide), isSound_condition structured.1,
        Stmt.isSound_pieces body structured.2⟩
  | doLoop span body condition =>
      simp only [Stmt.pieces, List.forall_mem_cons, List.forall_mem_append]
      exact ⟨isSound_word (by decide), Stmt.isSound_pieces body structured.1,
        isSound_word (by decide), isSound_condition structured.2, isSound_semicolon, nofun⟩
  | forLoop span init condition update body =>
      obtain ⟨-, ⟨expr, rfl, writable⟩, -, structured⟩ := structured
      simp only [Stmt.pieces, List.forall_mem_cons, List.forall_mem_append]
      refine ⟨isSound_word (by decide), isSound_inParens ?_, Stmt.isSound_pieces body structured⟩
      exact List.forall_mem_cons.mpr ⟨isSound_semicolon, List.forall_mem_cons.mpr
        ⟨writable, List.forall_mem_cons.mpr ⟨isSound_semicolon, nofun⟩⟩⟩
  | switch span selector groups =>
      simp only [Stmt.pieces, List.forall_mem_cons, List.forall_mem_append]
      exact ⟨isSound_word (by decide), isSound_condition structured.1,
        isSound_inBraces (SwitchGroup.isSound_piecesOf groups structured.2)⟩
  | synchronized span lock body =>
      simp only [Stmt.pieces, List.forall_mem_cons, List.forall_mem_append]
      exact ⟨isSound_word (by decide), isSound_condition structured.1,
        Block.isSound_pieces body structured.2⟩
  | tries span resources body handlers cleanup =>
      obtain ⟨-, structured, structured_handlers, structured_cleanup⟩ := structured
      simp only [Stmt.pieces, List.forall_mem_cons, List.forall_mem_append]
      exact ⟨isSound_word (by decide), Block.isSound_pieces body structured,
        Handler.isSound_piecesOf handlers structured_handlers,
        Block.isSound_cleanupPieces cleanup structured_cleanup⟩
  | labeled span label body =>
      simp only [Stmt.pieces, List.forall_mem_cons]
      exact ⟨isSound_identifier structured.1, isSound_colon, Stmt.isSound_pieces body structured.2⟩
  | block inner => exact Block.isSound_pieces inner structured
  | empty span => exact List.forall_mem_singleton.mpr isSound_semicolon
  | _ => exact structured.elim

theorem Stmt.isSound_piecesOf (stmts : List Stmt) (structured : Stmt.AllStructured stmts) :
    ∀ piece ∈ Stmt.piecesOf stmts, piece.IsSound := by
  cases stmts with
  | nil => exact nofun
  | cons stmt stmts =>
      exact List.forall_mem_append.mpr
        ⟨Stmt.isSound_pieces stmt structured.1, Stmt.isSound_piecesOf stmts structured.2⟩

theorem Block.isSound_pieces (block : Block) (structured : block.IsStructured) :
    ∀ piece ∈ block.pieces, piece.IsSound := by
  obtain ⟨span, statements⟩ := block
  exact isSound_inBraces (Stmt.isSound_piecesOf statements structured)

theorem SwitchGroup.isSound_piecesOf (groups : List SwitchGroup)
    (structured : SwitchGroup.AllStructured groups) :
    ∀ piece ∈ SwitchGroup.piecesOf groups, piece.IsSound := by
  cases groups with
  | nil => exact nofun
  | cons group groups =>
      obtain ⟨span, arrow, labels, statements⟩ := group
      obtain ⟨⟨-, -, structured_labels, structured_statements, -⟩, later⟩ := structured
      simp only [SwitchGroup.piecesOf, List.forall_mem_append, List.forall_mem_flatMap]
      exact ⟨fun label member => SwitchLabel.isSound_pieces (structured_labels label member),
        Stmt.isSound_piecesOf statements structured_statements,
        SwitchGroup.isSound_piecesOf groups later⟩

theorem Handler.isSound_piecesOf (handlers : List Handler)
    (structured : Handler.AllStructured handlers) :
    ∀ piece ∈ Handler.piecesOf handlers, piece.IsSound := by
  cases handlers with
  | nil => exact nofun
  | cons handler handlers =>
      obtain ⟨span, types, name, body⟩ := handler
      obtain ⟨⟨⟨type, rfl, identifier⟩, named, structured_body⟩, later⟩ := structured
      simp only [Handler.piecesOf, List.forall_mem_cons, List.forall_mem_append]
      refine ⟨isSound_word (by decide), isSound_inParens ?_,
        Block.isSound_pieces body structured_body, Handler.isSound_piecesOf handlers later⟩
      exact List.forall_mem_cons.mpr
        ⟨isSound_identifier identifier, List.forall_mem_singleton.mpr (isSound_identifier named)⟩

theorem Block.isSound_cleanupPieces (cleanup : Option Block)
    (structured : Block.CleanupStructured cleanup) :
    ∀ piece ∈ Block.cleanupPieces cleanup, piece.IsSound := by
  cases cleanup with
  | none => exact nofun
  | some body =>
      exact List.forall_mem_cons.mpr
        ⟨isSound_word (by decide), Block.isSound_pieces body structured⟩

end

/-! ## How statements begin -/

/-- Whether a statement may begin with a token of a kind with a text. -/
def TokenKind.beginsStmt (kind : TokenKind) (text : String) : Bool :=
  match kind with
  | .semicolon | .openBrace => true
  | .word => !(["case", "default", "else", "catch", "finally"].contains text)
  | _ => false

theorem TokenKind.beginsStmt_of_isIdentifier {text : String}
    (identifier : isIdentifier text = true) : TokenKind.word.beginsStmt text = true := by
  have reserved : ∀ word ∈ ["case", "default", "else", "catch", "finally"],
      isReserved word = true := by
    decide
  simp only [beginsStmt, Bool.not_eq_true', List.contains_eq_mem, decide_eq_false_iff_not]
  intro member
  simp [isIdentifier, reserved text member] at identifier

/-- The first piece of a structured statement is a token that a statement may begin with. -/
theorem Stmt.exists_pieces_eq_cons {stmt : Stmt} (structured : stmt.IsStructured) :
    ∃ kind text pieces, stmt.pieces = .lexeme kind text :: pieces ∧
      kind.beginsStmt text = true := by
  cases stmt with
  | expr span value =>
      cases value with
      | call span method arguments =>
          exact ⟨_, _, _, rfl, TokenKind.beginsStmt_of_isIdentifier structured.1⟩
      | assignment span op target value =>
          obtain ⟨-, ⟨span', name, rfl, identifier⟩, -⟩ := structured
          exact ⟨_, _, _, rfl, TokenKind.beginsStmt_of_isIdentifier identifier⟩
      | _ => exact structured.elim
  | jump span kind label => cases kind <;> exact ⟨_, _, _, rfl, by decide⟩
  | conditional span condition whenTrue whenFalse =>
      cases whenFalse <;> exact ⟨_, _, _, rfl, by decide⟩
  | labeled span label body =>
      exact ⟨_, _, _, rfl, TokenKind.beginsStmt_of_isIdentifier structured.1⟩
  | block inner =>
      obtain ⟨span, statements⟩ := inner
      exact ⟨_, _, _, rfl, rfl⟩
  | locals | localType | constructorCall | assertion | forEach | unparsed => exact structured.elim
  | _ => exact ⟨_, _, _, rfl, by decide⟩

theorem Stmt.exists_cons_of_spells {stmt : Stmt} (structured : stmt.IsStructured)
    {tokens : List Token} (spells : Spells stmt.pieces tokens) :
    ∃ first rest, tokens = first :: rest ∧ first.kind.beginsStmt first.text = true := by
  obtain ⟨kind, text, pieces, pieces_eq, begins⟩ := exists_pieces_eq_cons structured
  rw [pieces_eq] at spells
  obtain ⟨span, rest, rfl, -⟩ := spells
  exact ⟨_, rest, rfl, begins⟩

/-- The text of some statements in braces, with a space between their tokens. -/
def Stmt.bodyText (source : Source) (stmts : List Stmt) : Except Unrenderable String := do
  let text ← Piece.renderAll source (Stmt.piecesOf stmts)
  return "\x7b " ++ text ++ "\x7d"

end JavaOutline
