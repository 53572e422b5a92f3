import Covenant.Text.Casing

/-!
# Names

A symbol has one name in three renderings: `Pascal`, `camel` and `snake`. All three are built
from the same parts; the first two join parts by casing, the third by underscores and keeps
their case.
-/

set_option autoImplicit false

namespace Covenant

/-- One symbol in three renderings. -/
structure Name where
  pascal : String
  camel : String
  snake : String
  deriving DecidableEq, Repr

/-- A part of a name: a word or a number. -/
inductive Part where
  | word (text : String)
  | index (value : Int)
  deriving DecidableEq, Repr

/-- The text of a part; numbers are written in decimal. -/
def Part.text : Part → String
  | word text => text
  | index value => toString value

namespace Name

/-- Parts joined by casing. -/
def cased (parts : List Part) : String :=
  String.join (parts.map fun part => Text.upperFirst part.text)

/-- A first text and parts joined by underscores. -/
def underscored (base : String) (parts : List Part) : String :=
  String.intercalate "_" (base :: parts.map Part.text)

/-- The name made of a base and parts. -/
def ofParts (base : String) (parts : List Part) : Name where
  pascal := Text.upperFirst base ++ cased parts
  camel := Text.lowerFirst base ++ cased parts
  snake := underscored base parts

/-- A name with further parts; each rendering keeps what it has. -/
def extend (name : Name) (parts : List Part) : Name where
  pascal := name.pascal ++ cased parts
  camel := name.camel ++ cased parts
  snake := underscored name.snake parts

/-- The name of a clause: its category, and the name it declares. The category is one word, so
it is capitalized in the first rendering and in lower case in the second. -/
def ofClause (category localName : String) : Name where
  pascal := Text.capitalize category ++ Text.upperFirst localName
  camel := Text.lowerAll category ++ Text.upperFirst localName
  snake := category ++ "_" ++ localName

end Name

end Covenant
