import JavaOutline.Decimal.Shortest
import JavaOutline.Text.Quoted

/-!
# TOML values

The values of a TOML document. Tables keep their entries in order. Dates and times are checked when
they are read, and their parts are not kept.
-/

namespace JavaOutline

/-- A TOML value. -/
inductive Toml where
  | string (text : String)
  | integer (value : Int)
  | float (value : FloatValue)
  | boolean (value : Bool)
  /-- A date, a time, or both. -/
  | datetime
  | array (items : List Toml)
  | table (entries : List (String × Toml))
  deriving Repr, Inhabited

/-- What a value is called where another kind of value is expected. -/
def Toml.title : Toml → String
  | .string text => "string " ++ quoted text
  | .integer value => "integer `" ++ toString value ++ "`"
  | .float value => "floating point `" ++ value.text ++ "`"
  | .boolean value => if value then "boolean `true`" else "boolean `false`"
  | .datetime => "map"
  | .array _ => "sequence"
  | .table _ => "map"

end JavaOutline
