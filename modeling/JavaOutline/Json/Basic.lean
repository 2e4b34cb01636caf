/-!
# JSON values

Objects keep their members in order, repeated keys included. A string is a list of code points and
not a text, because an escape can name a surrogate, which no text holds. Numbers are told apart as
far as they are used: a plain natural number, or any other number as it is written.
-/

namespace JavaOutline

/-- A JSON value. -/
inductive Json where
  | null
  | bool (value : Bool)
  | natural (value : Nat)
  /-- A number with a sign, a fraction or an exponent, as it is written. -/
  | numeral (digits : List Char)
  | string (codePoints : List Nat)
  | array (items : List Json)
  | object (members : List (List Nat × Json))
  deriving Repr, Inhabited

namespace Json

/-- The code points of a text. -/
def codePoints (text : String) : List Nat :=
  text.toList.map Char.toNat

/-- The text of some code points; `none` if one of them is a surrogate. -/
def text? (codePoints : List Nat) : Option String :=
  (codePoints.mapM fun n => if Nat.isValidChar n then some (Char.ofNat n) else none).map
    String.ofList

/-- A text as a JSON value. -/
def ofString (text : String) : Json :=
  .string (codePoints text)

/-- An object with the given texts as keys. -/
def ofMembers (members : List (String × Json)) : Json :=
  .object (members.map fun (key, value) => (codePoints key, value))

end Json

end JavaOutline
