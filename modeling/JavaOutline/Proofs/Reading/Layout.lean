import JavaOutline.Java.Stmt
import JavaOutline.Proofs.Reading.Reach

/-!
# Where statements were read

A statement is laid out between two places if its span runs from the next token at the one to the
last token read at the other, and the statements inside it are laid out in between, in their order.
Statements of a block leave no gap: each begins where the one before it ended.
-/

namespace JavaOutline

namespace Cursor

/-- Whether a span runs from the next token at one place to the last token read at another. -/
def Spans (before : Cursor) (span : Span) (after : Cursor) : Prop :=
  before.Reaches after ∧ span = after.spanFrom before.here

/-- Whether something stands somewhere between two places. -/
def Between (before : Cursor) (stands : Cursor → Cursor → Prop) (after : Cursor) : Prop :=
  ∃ first last, before.Reaches first ∧ stands first last ∧ last.Reaches after

end Cursor

/-- Whether some labels were read between two places, one after the other. -/
def SwitchLabel.AllLaidOut : List SwitchLabel → Cursor → Cursor → Prop
  | [], before, after => after = before
  | label :: labels, before, after =>
    ∃ middle, before.Spans label.span middle ∧ SwitchLabel.AllLaidOut labels middle after

mutual

/-- Whether a statement was read between two places. -/
def Stmt.LaidOut : Stmt → Cursor → Cursor → Prop
  | .locals declaration, before, after => before.Spans declaration.span after
  | .localType span _ _, before, after | .expr span _, before, after
  | .constructorCall span _ _ _, before, after | .assertion span _ _, before, after
  | .jump span _ _, before, after | .returns span _, before, after
  | .throws span _, before, after => before.Spans span after
  | .conditional span _ whenTrue none, before, after =>
    before.Spans span after ∧ before.Between whenTrue.LaidOut after
  | .conditional span _ whenTrue (some whenFalse), before, after =>
    before.Spans span after ∧ before.Between whenTrue.LaidOut after ∧
      before.Between whenFalse.LaidOut after
  | .whileLoop span _ body, before, after | .doLoop span body _, before, after
  | .forLoop span _ _ _ body, before, after | .forEach span _ _ body, before, after
  | .labeled span _ body, before, after =>
    before.Spans span after ∧ before.Between body.LaidOut after
  | .switch span _ groups, before, after =>
    before.Spans span after ∧ before.Between (SwitchGroup.AllLaidOut groups) after
  | .synchronized span _ body, before, after =>
    before.Spans span after ∧ before.Between body.LaidOut after
  | .tries span _ body handlers cleanup, before, after =>
    before.Spans span after ∧ ∃ middle last, before.Between body.LaidOut middle ∧
      Handler.AllLaidOut handlers middle last ∧ Block.CleanupLaidOut cleanup last after
  | .block inner, before, after => inner.LaidOut before after
  | .empty _, before, after => before.Passes .semicolon after
  -- An unparsed statement is never outlined, so nothing is said about its span.
  | .unparsed _, before, after => before.Reaches after

/-- Whether some statements were read between two places, one after the other. -/
def Stmt.AllLaidOut : List Stmt → Cursor → Cursor → Prop
  | [], before, after => after = before
  | stmt :: stmts, before, after =>
    ∃ middle, stmt.LaidOut before middle ∧ Stmt.AllLaidOut stmts middle after

/-- Whether a block was read between two places: an opening brace, statements and a closing brace,
where either brace may be missing. -/
def Block.LaidOut : Block → Cursor → Cursor → Prop
  | .mk span statements, before, after =>
    before.Spans span after ∧ ∃ first last, before.Passes .openBrace first ∧
      Stmt.AllLaidOut statements first last ∧ last.Passes .closeBrace after

/-- Whether a group was read between two places: labels and then statements. -/
def SwitchGroup.LaidOut : SwitchGroup → Cursor → Cursor → Prop
  | .mk _ _ labels statements, before, after =>
    ∃ middle, SwitchLabel.AllLaidOut labels before middle ∧
      Stmt.AllLaidOut statements middle after

/-- Whether some groups were read between two places, one after the other. -/
def SwitchGroup.AllLaidOut : List SwitchGroup → Cursor → Cursor → Prop
  | [], before, after => after = before
  | group :: groups, before, after =>
    ∃ middle, group.LaidOut before middle ∧ SwitchGroup.AllLaidOut groups middle after

/-- Whether a `catch` clause was read between two places. -/
def Handler.LaidOut : Handler → Cursor → Cursor → Prop
  | .mk span _ _ body, before, after =>
    before.Spans span after ∧ before.Between body.LaidOut after

/-- Whether some `catch` clauses were read between two places, one after the other. -/
def Handler.AllLaidOut : List Handler → Cursor → Cursor → Prop
  | [], before, after => after = before
  | handler :: handlers, before, after =>
    ∃ middle, handler.LaidOut before middle ∧ Handler.AllLaidOut handlers middle after

/-- Whether the block of a `finally` clause, if there is one, was read between two places. -/
def Block.CleanupLaidOut : Option Block → Cursor → Cursor → Prop
  | none, before, after => before.Reaches after
  | some body, before, after => before.Between body.LaidOut after

end

section Reaches

variable {before after : Cursor}

@[grind →]
theorem Cursor.Spans.reaches {span : Span} (spans : before.Spans span after) :
    before.Reaches after :=
  spans.1

/-- A span that is not empty begins at the next token of the one place and ends where the last token
read at the other does. -/
theorem Cursor.Spans.bounds {span : Span} (spans : before.Spans span after)
    (nonempty : span.start < span.stop) :
    span.start = before.here ∧ span.stop = after.behind := by
  obtain ⟨_, rfl⟩ := spans
  refine ⟨rfl, ?_⟩
  simp only [Cursor.spanFrom] at nonempty ⊢
  omega

@[grind →]
theorem Block.LaidOut.reaches {block : Block} (laidOut : block.LaidOut before after) :
    before.Reaches after := by
  cases block with
  | mk span statements => exact laidOut.1.reaches

@[grind →]
theorem Stmt.LaidOut.reaches {stmt : Stmt} (laidOut : stmt.LaidOut before after) :
    before.Reaches after := by
  cases stmt with
  | conditional span condition whenTrue whenFalse =>
      cases whenFalse with
      | none => exact laidOut.1.reaches
      | some whenFalse => exact laidOut.1.reaches
  | locals | localType | expr | constructorCall | assertion | jump | returns | throws =>
      exact Cursor.Spans.reaches laidOut
  | block inner => exact Block.LaidOut.reaches laidOut
  | empty => exact Cursor.Passes.reaches laidOut
  | unparsed => exact laidOut
  | _ => exact laidOut.1.reaches

@[grind →]
theorem Stmt.AllLaidOut.reaches {stmts : List Stmt} (laidOut : Stmt.AllLaidOut stmts before after) :
    before.Reaches after := by
  induction stmts generalizing before with
  | nil =>
      obtain rfl := laidOut
      exact .refl
  | cons stmt stmts induction =>
      obtain ⟨middle, first, later⟩ := laidOut
      exact first.reaches.trans (induction later)

@[grind →]
theorem SwitchLabel.AllLaidOut.reaches {labels : List SwitchLabel}
    (laidOut : SwitchLabel.AllLaidOut labels before after) : before.Reaches after := by
  induction labels generalizing before with
  | nil =>
      obtain rfl := laidOut
      exact .refl
  | cons label labels induction =>
      obtain ⟨middle, spans, later⟩ := laidOut
      exact spans.reaches.trans (induction later)

@[grind →]
theorem SwitchGroup.LaidOut.reaches {group : SwitchGroup} (laidOut : group.LaidOut before after) :
    before.Reaches after := by
  cases group with
  | mk span arrow labels statements =>
      obtain ⟨middle, labelled, inner⟩ := laidOut
      exact labelled.reaches.trans inner.reaches

@[grind →]
theorem SwitchGroup.AllLaidOut.reaches {groups : List SwitchGroup}
    (laidOut : SwitchGroup.AllLaidOut groups before after) : before.Reaches after := by
  induction groups generalizing before with
  | nil =>
      obtain rfl := laidOut
      exact .refl
  | cons group groups induction =>
      obtain ⟨middle, first, later⟩ := laidOut
      exact first.reaches.trans (induction later)

theorem Handler.LaidOut.spans {handler : Handler} (laidOut : handler.LaidOut before after) :
    before.Spans handler.span after := by
  cases handler with
  | mk span types name body => exact laidOut.1

@[grind →]
theorem Handler.LaidOut.reaches {handler : Handler} (laidOut : handler.LaidOut before after) :
    before.Reaches after :=
  laidOut.spans.reaches

@[grind →]
theorem Handler.AllLaidOut.reaches {handlers : List Handler}
    (laidOut : Handler.AllLaidOut handlers before after) : before.Reaches after := by
  induction handlers generalizing before with
  | nil =>
      obtain rfl := laidOut
      exact .refl
  | cons handler handlers induction =>
      obtain ⟨middle, first, later⟩ := laidOut
      exact first.reaches.trans (induction later)

theorem Cursor.Between.reaches {stands : Cursor → Cursor → Prop}
    (stood : before.Between stands after)
    (reaches_of : ∀ {first last : Cursor}, stands first last → first.Reaches last) :
    before.Reaches after := by
  obtain ⟨first, last, reaches, stood, later⟩ := stood
  exact reaches.trans ((reaches_of stood).trans later)

theorem Block.CleanupLaidOut.reaches {cleanup : Option Block}
    (laidOut : Block.CleanupLaidOut cleanup before after) : before.Reaches after := by
  cases cleanup with
  | none => exact laidOut
  | some body => exact Cursor.Between.reaches laidOut Block.LaidOut.reaches

end Reaches

/-- The statements of a block stand between its braces. -/
theorem Block.LaidOut.between {span : Span} {statements : List Stmt} {before after : Cursor}
    (laidOut : (Block.mk span statements).LaidOut before after) :
    before.Between (Stmt.AllLaidOut statements) after := by
  obtain ⟨_, first, last, opened, inner, closed⟩ := laidOut
  exact ⟨first, last, opened.reaches, inner, closed.reaches⟩

theorem SwitchLabel.AllLaidOut.append {labels : List SwitchLabel} {label : SwitchLabel}
    {before middle after : Cursor} (front : SwitchLabel.AllLaidOut labels before middle)
    (spans : middle.Spans label.span after) :
    SwitchLabel.AllLaidOut (labels ++ [label]) before after := by
  induction labels generalizing before with
  | nil =>
      obtain rfl := front
      exact ⟨after, spans, rfl⟩
  | cons first labels induction =>
      obtain ⟨next, first_spans, later⟩ := front
      exact ⟨next, first_spans, induction later⟩

end JavaOutline
