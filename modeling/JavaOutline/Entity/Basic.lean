import JavaOutline.Entity.Kind
import JavaOutline.Source.Span

/-!
# Entities

An entity is a labelled fragment of a method: its kind, its text and the bytes it was taken from.
-/

namespace JavaOutline

/-- A labelled fragment of a method. -/
structure Entity where
  /-- The text of the fragment. -/
  value : String
  /-- What the fragment is. -/
  kind : EntityKind
  /-- The bytes of the fragment. -/
  extent : Extent
  deriving DecidableEq, Repr

end JavaOutline
