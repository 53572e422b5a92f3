import Covenant.Text.Hex
import Covenant.Text.Printable

/-!
# Quoted text

Text as messages show it: between quotes, with everything that cannot be printed escaped. The
quote is the single one, unless the text holds a single quote and no double one.
-/

set_option autoImplicit false

namespace Covenant.Text

/-- The quote that delimits a text. -/
def delimiter (text : List Char) : Char :=
  if text.contains '\'' && !text.contains '"' then '"' else '\''

/-- How one character stands between the given quotes. -/
def quotedChar (quote c : Char) : List Char :=
  if c == '\\' || c == quote then ['\\', c]
  else if c == '\t' then ['\\', 't']
  else if c == '\n' then ['\\', 'n']
  else if c == '\r' then ['\\', 'r']
  else if isPrintable c then [c]
  else if c.toNat < 0x100 then '\\' :: 'x' :: hex 2 c.toNat
  else if c.toNat < 0x10000 then '\\' :: 'u' :: hex 4 c.toNat
  else '\\' :: 'U' :: hex 8 c.toNat

/-- A text in quotes. -/
def quoted (text : String) : String :=
  let chars := text.toList
  let quote := delimiter chars
  String.ofList (quote :: chars.flatMap (quotedChar quote) ++ [quote])

/-- A list of texts in quotes, between brackets. -/
def quotedList (texts : List String) : String :=
  "[" ++ String.intercalate ", " (texts.map quoted) ++ "]"

end Covenant.Text
