import JavaOutline.Entity.Basic
import JavaOutline.Source.Lines
import JavaOutline.Text.Quoted

/-!
# Rejections

The reasons for which the statements of a body are not outlined. A body is outlined as a whole or
not at all.
-/

namespace JavaOutline

/-- Why a body is not outlined. -/
inductive Rejection where
  /-- A statement or expression has no place in an outline. -/
  | unsupported (title : String) (span : Span) (position : Position)
  /-- A span is empty or does not fit the source. -/
  | malformedRange (span : Span) (size : Nat)
  /-- The value of a verbatim entity is not its source text. -/
  | rangeMismatch (kind : EntityKind) (expected actual : String)
  deriving DecidableEq, Repr

/-- The wording of a rejection. -/
def Rejection.message : Rejection → Except Fault String
  | .unsupported title _ position => do
    let position ← position.text
    return s!"unsupported {title} at {position}"
  | .malformedRange span size =>
    return s!"malformed source range {span.start}..{span.stop} in a source of {size} bytes"
  | .rangeMismatch kind expected actual =>
    return kind.name ++ " value " ++ quoted expected ++ " does not match its source text "
      ++ quoted actual

end JavaOutline
