import JavaOutline.Text.Digits
import JavaOutline.Text.Printable

/-!
# Quoted text

Text in double quotes on one line. Quotes and backslashes are escaped by a backslash; tabs, line
ends and the null character have letters of their own; other characters without a visible form are
written by their code point in braces. An apostrophe stands as it is.
-/

namespace JavaOutline

/-- A character as quoted text writes it. -/
def quotedChar (c : Char) : List Char :=
  if c = Char.ofNat 0 then ['\\', '0']
  else if c = '\t' then ['\\', 't']
  else if c = '\r' then ['\\', 'r']
  else if c = '\n' then ['\\', 'n']
  else if c = '"' then ['\\', '"']
  else if c = '\\' then ['\\', '\\']
  else if isPrintable c then [c]
  else ['\\', 'u', '\x7b'] ++ hexDigits c.toNat ++ ['\x7d']

/-- A text in double quotes. -/
def quoted (text : String) : String :=
  String.ofList ('"' :: text.toList.flatMap quotedChar ++ ['"'])

end JavaOutline
