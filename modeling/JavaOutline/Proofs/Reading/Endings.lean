import Mathlib
import JavaOutline.Proofs.Reading.Accounts
import JavaOutline.Proofs.Reading.LabelTokens
import JavaOutline.Proofs.Reading.Termination

/-!
# Where expressions end

The grammar reads an expression as far as it goes: the tokens behind it do not go on with it. That
shows in the last token read. A loop over selectors or operators ends where there is none, and the
operand that was read last passes this on to the whole expression. Where an operand is missing, the
last token read is one that no operand ends with.
-/

set_option mvcgen.warning false

open Std.Do
open scoped Computability

namespace JavaOutline

namespace Cursor

variable {origin before middle after : Cursor}

/-! ## The last token read -/

/-- Whether something is true of the tokens read from one place to another and the last of them, if
any were read. -/
def ReadTo (P : List Token → Token → Prop) (before after : Cursor) : Prop :=
  ∀ read, before.rest = read ++ after.rest → ∀ last ∈ read.getLast?, P read last

/-- What holds of the tokens read since some place holds of those read before it as well, if more
of them do not matter. -/
theorem ReadTo.join {P : List Token → Token → Prop}
    (append : ∀ front read last, P read last → P (front ++ read) last)
    (first : before.Reaches middle) (second : middle.Reaches after)
    (stays : after = middle → ReadTo P before after) (later : ReadTo P middle after) :
    ReadTo P before after := by
  intro read rest_eq last found
  obtain ⟨front, front_eq, -⟩ := first.exists_append
  obtain ⟨back, back_eq, none_read, -⟩ := second.exists_append
  have read_eq : read = front ++ back := by
    refine List.append_cancel_right (rest_eq.symm.trans ?_)
    rw [front_eq, back_eq, List.append_assoc]
  cases back with
  | nil => exact stays (none_read rfl) read rest_eq last found
  | cons token back =>
      subst read_eq
      rw [List.getLast?_append_of_ne_nil _ (List.cons_ne_nil token back)] at found
      exact append front _ last (later _ back_eq last found)

/-- Whether something is true of the last token read between two places, if one was read, and the
tokens behind it. -/
def LastRead (P : Token → List Token → Prop) (before after : Cursor) : Prop :=
  before.Reaches after ∧ ReadTo (fun _ last => P last after.rest) before after

namespace LastRead

variable {P Q : Token → List Token → Prop}

theorem refl : LastRead P before before := by
  refine ⟨.refl, fun read rest_eq last found => ?_⟩
  obtain rfl := List.self_eq_append_left.mp rest_eq
  cases found

theorem trans (first : LastRead P before middle) (second : LastRead P middle after) :
    LastRead P before after := by
  refine ⟨first.1.trans second.1, .join (fun _ _ _ => id) first.1 second.1 ?_ second.2⟩
  rintro rfl
  exact first.2

/-- What was read before does not matter, if a token was read since. -/
theorem widen (reaches : before.Reaches middle) (reachesOn : middle.ReachesOn after)
    (later : LastRead P middle after) : LastRead P before after :=
  ⟨reaches.trans later.1, .join (fun _ _ _ => id) reaches later.1
    (fun same => absurd same reachesOn.ne) later.2⟩

theorem tail {token : Token} {rest : List Token} (reaches : before.Reaches middle)
    (head : middle.rest = token :: rest) (holds : P token rest) :
    LastRead P before middle.tail := by
  refine widen reaches (reachesOn_tail head) ⟨.tail .refl, fun read rest_eq last found => ?_⟩
  obtain rfl := List.append_cancel_right (rest_eq.symm.trans (rest_eq_append_tail head))
  obtain rfl : token = last := Option.some.inj found
  rwa [rest_tail head]

theorem of_isAt {kind : TokenKind} (reaches : before.Reaches middle) (found : middle.isAt kind)
    (holds : ∀ token rest, token.kind = kind → P token rest) : LastRead P before middle.tail := by
  obtain ⟨_ | ⟨token, rest⟩, behind⟩ := middle
  · cases found
  · exact tail reaches rfl (holds token rest (by simpa [isAt] using found))

theorem of_nil (reaches : before.Reaches after) (none : after.rest = [])
    (holds : ∀ token, P token []) : LastRead P before after :=
  ⟨reaches, fun _ _ last _ => none ▸ holds last⟩

theorem mono (holds : LastRead P before after) (le : ∀ last rest, P last rest → Q last rest) :
    LastRead Q before after :=
  ⟨holds.1, fun read rest_eq last found => le _ _ (holds.2 read rest_eq last found)⟩

end LastRead

/-- Whether the last token read between two places, if one was read, is none that an operand ends
with. -/
def Loosely : Cursor → Cursor → Prop :=
  LastRead fun last _ => last.kind.endsOperand = false ∧ last.kind ≠ .closeBrace

/-- Whether the last token read between two places, if one was read, is no identifier or the last
of all. -/
def Shut : Cursor → Cursor → Prop :=
  LastRead fun last rest => last.isName = false ∨ rest = []

/-- Whether the last token read between two places, if one was read, is a closing brace or the last
of all. -/
def Braced : Cursor → Cursor → Prop :=
  LastRead fun last rest => last.kind = .closeBrace ∨ rest = []

/-- Where the operand of a cast may begin, no selector does. -/
theorem not_beginsSelector {cursor : Cursor} (begins : cursor.isAtOperand ∨
      cursor.isAhead 0 [.plus, .minus, .increment, .decrement]) :
    ¬cursor.rest.head?.any (·.kind.beginsSelector) = true := by
  obtain ⟨_ | ⟨⟨kind, text, span⟩, rest⟩, behind⟩ := cursor
  · nofun
  · cases kind <;> rcases begins with begins | begins <;> first | cases begins <;> done | nofun

/-- No place at all. -/
def Nowhere : Cursor → Prop := fun _ => False

end Cursor

theorem isReserved_of_isPrimitive {word : String} (primitive : isPrimitive word) :
    isReserved word := by
  have all : ∀ word ∈ primitiveTypes, isReserved word := by decide
  exact all word (List.contains_iff_mem.mp primitive)

theorem Token.isName_eq_false {token : Token} (other : token.kind ≠ .word) :
    token.isName = false := by
  simp [isName, other]

theorem Token.isName_of_reserved {token : Token} (reserved : isReserved token.text) :
    token.isName = false := by
  simp [isName, reserved]

theorem Token.endsOperand_of_isName {token : Token} (found : token.isName) :
    token.kind.endsOperand := by
  obtain ⟨kind_eq, -⟩ : token.kind = .word ∧ _ := by simpa [isName] using found
  rw [kind_eq]
  rfl

namespace Cursor

variable {before middle after : Cursor}

@[grind .]
theorem Loosely.refl : before.Loosely before :=
  LastRead.refl

@[grind →]
theorem Loosely.reaches (loosely : before.Loosely after) : before.Reaches after :=
  loosely.1

@[grind →]
theorem Loosely.trans (first : before.Loosely middle) (second : middle.Loosely after) :
    before.Loosely after :=
  LastRead.trans first second

@[grind →]
theorem Loosely.shut (loosely : before.Loosely after) : before.Shut after := by
  refine LastRead.mono loosely fun last rest ends => .inl ?_
  by_contra identifier
  have operand := Token.endsOperand_of_isName (Bool.of_not_eq_false identifier)
  exact absurd (ends.1.symm.trans operand) Bool.false_ne_true

@[grind →]
theorem Braced.shut (braced : before.Braced after) : before.Shut after :=
  LastRead.mono braced fun _ _ ends => ends.imp_left fun kind_eq =>
    Token.isName_eq_false (by rw [kind_eq]; nofun)

@[grind →]
theorem Shut.reaches (shut : before.Shut after) : before.Reaches after :=
  shut.1

theorem Shut.of_isAt {kind : TokenKind} (reaches : before.Reaches middle)
    (found : middle.isAt kind) (other : kind ≠ .word) : before.Shut middle.tail :=
  LastRead.of_isAt reaches found fun token _ kind_eq =>
    .inl (Token.isName_eq_false (by rwa [kind_eq]))

@[grind →]
theorem shut_tail {token : Token} {rest : List Token} (head : before.rest = token :: rest)
    (other : token.kind ≠ .word) : before.Shut before.tail :=
  .of_isAt .refl (isAt_of_head head) other

@[grind →]
theorem Shut.trans (first : before.Shut middle) (second : middle.Shut after) : before.Shut after :=
  LastRead.trans first second

theorem Shut.widen (reaches : before.Reaches middle) (reachesOn : middle.ReachesOn after)
    (shut : middle.Shut after) : before.Shut after :=
  LastRead.widen reaches reachesOn shut

grind_pattern Shut.widen => middle.Shut after, before.Shut after

end Cursor

namespace Expr

open Cursor (ReadTo)

variable {ahead : Cursor → Prop} {expr expr' : Expr} {before middle after : Cursor}

/-! ## What does not go on with an expression -/

/-- Whether the name of an expression that was read from some tokens is hidden: another word may be
the last one. -/
def HidesName (expr : Expr) (read : List Token) : Prop :=
  expr.endsInName = false ∧ ∃ token ∈ read, token.isWord "instanceof" ∨ token.kind = .doubleColon

/-- Whether none of some kinds of tokens goes on with an expression that was read up to a place. -/
structure StopsBehind (ahead : Cursor → Prop) (after : Cursor) (expr : Expr) (read : List Token)
    (last : Token) : Prop where
  operator : expr.IsOperandEnd last → ¬ahead after
  selector : expr.IsOperandEnd last → after.rest.head?.any (·.kind.beginsSelector) →
    expr.MayTest read
  update : expr.IsOperandEnd last → after.updateOp?.isSome →
    expr.MayTest read ∨ expr.endsOpen ∧ last.kind = .closeParen
  call : last.isName → after.isAt .openParen → expr.HidesName read

/-- Whether some tokens between two places were read as an expression, and none of some kinds of
tokens goes on with it. -/
def Stops (ahead : Cursor → Prop) (expr : Expr) (before after : Cursor) : Prop :=
  before.ReachesOn after ∧ ReadTo (expr.StopsBehind ahead after) before after

/-- Whether some tokens between two places were read as an operand, and no call goes on with it. -/
def Uncalled (expr : Expr) (before after : Cursor) : Prop :=
  before.ReachesOn after ∧
    ReadTo (fun read last => last.isName → after.isAt .openParen → expr.HidesName read)
      before after

theorem MayTest.append {read : List Token} (may : expr.MayTest read) (front : List Token) :
    expr.MayTest (front ++ read) := by
  obtain ⟨ends, token, member, is_word⟩ := may
  exact ⟨ends, token, List.mem_append_right front member, is_word⟩

theorem HidesName.append {read : List Token} (hides : expr.HidesName read) (front : List Token) :
    expr.HidesName (front ++ read) := by
  obtain ⟨unnamed, token, member, hides⟩ := hides
  exact ⟨unnamed, token, List.mem_append_right front member, hides⟩

namespace StopsBehind

variable {read : List Token} {last : Token}

theorem congr (stops : expr.StopsBehind ahead after read last)
    (same : expr'.lastOperand = expr.lastOperand) : expr'.StopsBehind ahead after read last := by
  obtain ⟨operator, selector, update, call⟩ := stops
  refine ⟨?_, ?_, ?_, ?_⟩ <;>
    simpa only [IsOperandEnd, MayTest, HidesName, endsInBody, endsInTest, endsInName, endsOpen,
      same] using ‹_›

theorem append (stops : expr.StopsBehind ahead after read last) (front : List Token) :
    expr.StopsBehind ahead after (front ++ read) last where
  operator := stops.operator
  selector ends found := (stops.selector ends found).append front
  update ends found := (stops.update ends found).imp_left (·.append front)
  call identifier found := (stops.call identifier found).append front

/-- What an expression is read as does not matter, if it is not known what it ends with. -/
theorem opened (stops : expr.StopsBehind ahead after read last) (opened : expr'.endsOpen) :
    expr'.StopsBehind ahead after read last := by
  have in_body : expr'.endsInBody = true := by
    unfold endsInBody
    split
    · rfl
    · exact opened
  have ends (found : expr'.IsOperandEnd last) : expr.IsOperandEnd last :=
    found.imp_right fun brace => absurd (in_body.symm.trans brace.2) Bool.true_eq_false.mp
  have unnamed : expr'.endsInName = false := by
    unfold endsOpen at opened
    unfold endsInName
    split at opened <;> simp_all
  refine ⟨fun found => stops.operator (ends found), fun found next => ?_, fun found next => ?_,
    fun identifier next => ⟨unnamed, (stops.call identifier next).2⟩⟩
  · exact ⟨.inr opened, (stops.selector (ends found) next).2⟩
  · rcases stops.update (ends found) next with may | ⟨-, closed⟩
    · exact .inl ⟨.inr opened, may.2⟩
    · exact .inr ⟨opened, closed⟩

/-- Nothing goes on behind a token that no operand ends with. -/
theorem of_no_end (no_end : last.kind.endsOperand = false) (no_brace : last.kind ≠ .closeBrace) :
    expr.StopsBehind ahead after read last := by
  have open_end : ¬expr.IsOperandEnd last := by
    simp [IsOperandEnd, no_end, no_brace]
  refine ⟨(absurd · open_end), (absurd · open_end), (absurd · open_end), fun identifier => ?_⟩
  exact absurd (no_end.symm.trans (Token.endsOperand_of_isName identifier)) Bool.false_ne_true

end StopsBehind

namespace Stops

theorem widen (reaches : before.Reaches middle) (stops : expr.Stops ahead middle after)
    (same : expr'.lastOperand = expr.lastOperand) : expr'.Stops ahead before after :=
  ⟨.of_reaches reaches stops.1, .join (fun front _ _ behind => behind.append front) reaches
    stops.1.reaches (fun same => absurd same stops.1.ne)
    fun read rest_eq last found => (stops.2 read rest_eq last found).congr same⟩

theorem mono {ahead' : Cursor → Prop} (stops : expr.Stops ahead before after)
    (le : ahead' after → ahead after) : expr.Stops ahead' before after :=
  ⟨stops.1, fun read rest_eq last found =>
    have known := stops.2 read rest_eq last found
    { known with operator := fun ends next => known.operator ends (le next) }⟩

theorem of_loosely (reachesOn : before.ReachesOn after) (loosely : before.Loosely after) :
    expr.Stops ahead before after := by
  refine ⟨reachesOn, fun read rest_eq last found => ?_⟩
  obtain ⟨no_end, no_brace⟩ := loosely.2 read rest_eq last found
  exact .of_no_end no_end no_brace

/-- Nothing goes on behind a body. -/
theorem of_braced (reachesOn : before.ReachesOn after) (braced : before.Braced after)
    (in_body : expr.endsInBody) (ends : after.rest = [] → ¬ahead after) :
    expr.Stops ahead before after := by
  refine ⟨reachesOn, fun read rest_eq last found => ?_⟩
  rcases braced.2 read rest_eq last found with brace | no_rest
  · have open_end : ¬expr.IsOperandEnd last := by
      simp [IsOperandEnd, TokenKind.endsOperand, TokenKind.isLiteral, brace, in_body]
    have other : last.isName = false := Token.isName_eq_false (by simp [brace])
    exact ⟨(absurd · open_end), (absurd · open_end), (absurd · open_end), fun identifier =>
      absurd (other.symm.trans identifier) Bool.false_ne_true⟩
  · refine ⟨fun _ => ends no_rest, fun _ next => ?_, fun _ next => ?_, fun _ next => ?_⟩ <;>
      simp [no_rest, Cursor.updateOp?, Cursor.kindAhead?, Cursor.ahead?, Cursor.isAt] at next

theorem opened (stops : expr.Stops ahead before after) (opened : expr'.endsOpen) :
    expr'.Stops ahead before after :=
  ⟨stops.1, fun read rest_eq last found => (stops.2 read rest_eq last found).opened opened⟩

/-- Behind an expression, tokens may be read that no operand ends with. -/
theorem then_loosely (stops : expr.Stops ahead before middle) (loosely : middle.Loosely after)
    (opened : expr'.endsOpen) : expr'.Stops ahead before after := by
  refine ⟨stops.1.trans loosely.1, .join (fun front _ _ behind => behind.append front)
    stops.1.reaches loosely.1 ?_ fun read rest_eq last found => ?_⟩
  · rintro rfl
    exact (stops.opened opened).2
  · obtain ⟨no_end, no_brace⟩ := loosely.2 read rest_eq last found
    exact .of_no_end no_end no_brace

theorem uncalled (stops : expr.Stops ahead before after) : expr.Uncalled before after :=
  ⟨stops.1, fun read rest_eq last found => (stops.2 read rest_eq last found).call⟩

end Stops

namespace Uncalled

theorem widen (reaches : before.Reaches middle) (uncalled : expr.Uncalled middle after) :
    expr.Uncalled before after :=
  ⟨.of_reaches reaches uncalled.1,
    .join (fun front _ _ hides identifier next => (hides identifier next).append front) reaches
      uncalled.1.reaches (fun same => absurd same uncalled.1.ne) uncalled.2⟩

@[grind .]
theorem of_shut (reachesOn : before.ReachesOn after) (shut : before.Shut after) :
    expr.Uncalled before after := by
  refine ⟨reachesOn, fun read rest_eq last found identifier next => ?_⟩
  rcases shut.2 read rest_eq last found with other | no_rest
  · exact absurd (other.symm.trans identifier) Bool.false_ne_true
  · simp [Cursor.isAt, no_rest] at next

@[grind .]
theorem of_not_call (reachesOn : before.ReachesOn after) (other : after.isAt .openParen = false) :
    expr.Uncalled before after :=
  ⟨reachesOn, fun _ _ _ _ _ next => absurd (other.symm.trans next) Bool.false_ne_true⟩

theorem then_shut (uncalled : expr.Uncalled before middle) (shut : middle.Shut after) :
    expr.Uncalled before after := by
  refine ⟨uncalled.1.trans shut.1, .join
    (fun front _ _ hides identifier next => (hides identifier next).append front)
    uncalled.1.reaches shut.1 ?_ fun read rest_eq last found identifier next => ?_⟩
  · rintro rfl
    exact uncalled.2
  · rcases shut.2 read rest_eq last found with other | no_rest
    · exact absurd (other.symm.trans identifier) Bool.false_ne_true
    · simp [Cursor.isAt, no_rest] at next

grind_pattern widen => expr.Uncalled middle after, expr.Uncalled before after
grind_pattern then_shut => middle.Shut after, expr.Uncalled before after

/-- A method reference ends with a name that cannot be called. -/
theorem reference (found : before.isAt .doubleColon) (reaches : before.tail.Reaches after)
    (unnamed : expr.endsInName = false) : expr.Uncalled before after := by
  refine ⟨(Cursor.reachesOn_tail_of_isAt found).trans reaches, fun read rest_eq last _ _ _ => ?_⟩
  obtain ⟨_ | ⟨colons, rest⟩, behind⟩ := before
  · cases found
  obtain ⟨later, rest_eq', -⟩ := reaches.exists_append
  have read_eq : read = colons :: later := List.append_cancel_right
    (rest_eq.symm.trans (congrArg (colons :: ·) rest_eq'))
  exact ⟨unnamed, colons, read_eq ▸ List.mem_cons_self, .inr (by simpa [Cursor.isAt] using found)⟩

@[grind →]
theorem reachesOn (uncalled : expr.Uncalled before after) : before.ReachesOn after :=
  uncalled.1

/-- Where brackets are not closed, what is in them is read last. -/
theorem of_stops (stops : expr.Stops ahead before after) (unnamed : expr'.endsInName = false) :
    expr'.Uncalled before after :=
  ⟨stops.1, fun read rest_eq last found identifier next =>
    ⟨unnamed, ((stops.2 read rest_eq last found).call identifier next).2⟩⟩

end Uncalled

/-- An operand ends where no call and no selector goes on with it. -/
theorem Stops.of_uncalled (uncalled : expr.Uncalled before after) (operator : ¬ahead after)
    (selector : after.kindAhead? 0 ≠ some .dot ∧ after.kindAhead? 0 ≠ some .openBracket ∧
      after.kindAhead? 0 ≠ some .doubleColon)
    (update : after.updateOp? = none) : expr.Stops ahead before after := by
  have no_selector : ¬after.rest.head?.any (·.kind.beginsSelector) = true := by
    obtain ⟨_ | ⟨⟨kind, text, span⟩, rest⟩, behind⟩ := after
    · nofun
    · cases kind <;> simp_all [TokenKind.beginsSelector, Cursor.kindAhead?, Cursor.ahead?]
  exact ⟨uncalled.1, fun read rest_eq last found =>
    { operator := fun _ => operator
      selector := fun _ next => absurd next no_selector
      update := fun _ next => by rw [update] at next; cases next
      call := uncalled.2 read rest_eq last found }⟩

grind_pattern Stops.of_uncalled => expr.Uncalled before after, expr.Stops ahead before after

/-- An operand ends in front of tokens that no operand ends with. -/
theorem Uncalled.then_loosely (uncalled : expr.Uncalled before middle)
    (reachesOn : middle.ReachesOn after) (loosely : middle.Loosely after) :
    expr.Stops ahead before after :=
  .of_loosely (uncalled.1.trans reachesOn.reaches)
    (Cursor.LastRead.widen uncalled.1.reaches reachesOn loosely)

grind_pattern Uncalled.then_loosely => middle.Loosely after, expr.Stops ahead before after

/-- A type test ends before what would go on with the operand of a test. -/
theorem Stops.instanceOf {span : Span} {operand : Expr} {type : TypeRef} {binding : Option String}
    (found : before.isAtWord "instanceof") (reaches : before.tail.Reaches after) :
    (Expr.instanceOf span operand type binding).Stops Cursor.Nowhere before after := by
  refine ⟨(Cursor.reachesOn_tail_of_isAtWord found).trans reaches, fun read rest_eq last _ => ?_⟩
  obtain ⟨_ | ⟨word, rest⟩, behind⟩ := before
  · cases found
  obtain ⟨later, rest_eq', -⟩ := reaches.exists_append
  have read_eq : read = word :: later := List.append_cancel_right
    (rest_eq.symm.trans (congrArg (word :: ·) rest_eq'))
  have member : word ∈ read := read_eq ▸ List.mem_cons_self
  have is_word : word.isWord "instanceof" := found
  have tests : MayTest (.instanceOf span operand type binding) read :=
    ⟨.inl rfl, word, member, is_word⟩
  exact ⟨fun _ => id, fun _ _ => tests, fun _ _ => .inl tests,
    fun _ _ => ⟨rfl, word, member, .inl is_word⟩⟩

grind_pattern Stops.instanceOf => before.isAtWord "instanceof",
  (Expr.instanceOf span operand type binding).Stops Cursor.Nowhere before after

/-- Whether what was read between two places is an expression that ends there, or nothing that an
operand ends with was read and the expression is missing. -/
def StopsOrMissing (ahead : Cursor → Prop) (expr : Expr) (before after : Cursor) : Prop :=
  expr.Stops ahead before after ∨ expr = .missing expr.span ∧ before.Loosely after

namespace StopsOrMissing

@[grind →]
theorem reaches (part : expr.StopsOrMissing ahead before after) : before.Reaches after :=
  part.elim (·.1.reaches) (·.2.1)

theorem bracketed {opening closing : TokenKind} (opens : before.isAt opening)
    (part : expr.StopsOrMissing ahead before.tail middle) (closes : middle.Passes closing after)
    (no_word : opening ≠ .word ∧ closing ≠ .word) (unnamed : expr'.endsInName = false) :
    expr'.Uncalled before after := by
  have opening := Cursor.reachesOn_tail_of_isAt opens
  rcases closes with rfl | ⟨closed, rfl⟩
  · rcases part with stops | ⟨-, loosely⟩
    · exact (Uncalled.of_stops stops unnamed).widen opening.reaches
    · exact .of_shut (opening.trans loosely.reaches)
        ((Cursor.Shut.of_isAt .refl opens no_word.1).trans loosely.shut)
  · have reachesOn := opening.trans part.reaches
    exact .of_shut (reachesOn.trans (.tail .refl)) (.of_isAt reachesOn.reaches closed no_word.2)

@[grind .]
theorem parenthesized {span : Span} (opens : before.isAt .openParen)
    (part : expr.StopsOrMissing ahead before.tail middle)
    (closes : middle.Passes .closeParen after) :
    (Expr.parenthesized span expr).Uncalled before after :=
  bracketed opens part closes ⟨nofun, nofun⟩ rfl

@[grind .]
theorem arrayAccess {span : Span} {array : Expr} (opens : before.isAt .openBracket)
    (part : expr.StopsOrMissing ahead before.tail middle)
    (closes : middle.Passes .closeBracket after) :
    (Expr.arrayAccess span array expr).Uncalled before after :=
  bracketed opens part closes ⟨nofun, nofun⟩ rfl

/-- What is read last decides. -/
theorem behind (reachesOn : before.ReachesOn middle) (loosely : before.Loosely middle)
    (part : expr.StopsOrMissing ahead middle after) (same : expr'.lastOperand = expr.lastOperand) :
    expr'.Stops ahead before after := by
  rcases part with stops | ⟨-, loosely'⟩
  · exact stops.widen reachesOn.reaches same
  · exact .of_loosely (reachesOn.trans loosely'.1) (loosely.trans loosely')

@[grind →]
theorem of_stops (stops : expr.Stops ahead before after) :
    expr.StopsOrMissing ahead before after :=
  .inl stops

@[grind .]
theorem unary {span : Span} {op : UnaryOp} (reachesOn : before.ReachesOn middle)
    (loosely : before.Loosely middle) (part : expr.StopsOrMissing ahead middle after) :
    (Expr.unary span op expr).Stops ahead before after :=
  part.behind reachesOn loosely rfl

@[grind .]
theorem binary {span : Span} {op : BinaryOp} {left : Expr} (reachesOn : before.ReachesOn middle)
    (loosely : before.Loosely middle) (part : expr.StopsOrMissing ahead middle after) :
    (Expr.binary span op left expr).Stops ahead before after :=
  part.behind reachesOn loosely rfl

theorem assignment {span : Span} {op : AssignOp} {target : Expr}
    (reachesOn : before.ReachesOn middle) (loosely : before.Loosely middle)
    (part : expr.StopsOrMissing ahead middle after) :
    (Expr.assignment span op target expr).Stops ahead before after :=
  part.behind reachesOn loosely rfl

/-- The operand of a cast may be missing. No selector goes on with the type then, as an operand was
to begin behind it. -/
@[grind .]
theorem cast {span : Span} {type : TypeRef} (reaches : before.Reaches middle)
    (closed : middle.isAt .closeParen)
    (begins : middle.tail.isAtOperand ∨
      middle.tail.isAhead 0 [.plus, .minus, .increment, .decrement])
    (part : expr.StopsOrMissing ahead middle.tail after) :
    (Expr.cast span type expr).Stops Cursor.Nowhere before after := by
  rcases part with stops | ⟨missing, loosely⟩
  · have plain : expr.Stops Cursor.Nowhere middle.tail after := stops.mono False.elim
    exact plain.widen reaches.tail rfl
  have reachesOn : before.ReachesOn middle.tail :=
    .of_reaches reaches (Cursor.reachesOn_tail_of_isAt closed)
  refine ⟨reachesOn.trans loosely.1, .join (fun front _ _ behind => behind.append front)
    reachesOn.reaches loosely.1 ?_ fun read rest_eq last found => ?_⟩
  · rintro rfl read rest_eq last found
    have closing : Cursor.LastRead (fun last _ => last.kind = .closeParen) before middle.tail :=
      .of_isAt reaches closed fun _ _ => id
    have kind_eq := closing.2 read rest_eq last found
    refine ⟨fun _ => id, fun _ next => ?_, fun _ _ => .inr ⟨?_, kind_eq⟩, fun identifier => ?_⟩
    · exact absurd next (Cursor.not_beginsSelector begins)
    · rw [missing]
      rfl
    · rw [Token.isName_eq_false (by rw [kind_eq]; nofun)] at identifier
      cases identifier
  · obtain ⟨no_end, no_brace⟩ := loosely.2 read rest_eq last found
    exact .of_no_end no_end no_brace

end StopsOrMissing

end Expr

end JavaOutline
