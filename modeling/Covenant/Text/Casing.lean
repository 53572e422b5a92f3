import Covenant.Text.Casing.Context
import Covenant.Text.Casing.Lower
import Covenant.Text.Casing.Title
import Covenant.Text.Casing.Upper

/-!
# Casing of texts

Four ways to change the case of a text. Two touch its first character only. Lower-casing a whole
text writes a capital sigma as the final form `ς` when it ends a word: a cased character stands
before it and none after it, case-ignorable characters not counted.
-/

set_option autoImplicit false

namespace Covenant.Text

/-- The first character in upper case, the rest as it is. -/
def upperFirst (text : String) : String :=
  match text.toList with
  | [] => ""
  | c :: rest => String.ofList (upper c ++ rest)

/-- The first character in lower case, the rest as it is. -/
def lowerFirst (text : String) : String :=
  match text.toList with
  | [] => ""
  | c :: rest => String.ofList (lower c ++ rest)

/-- The nearest character that is not ignored is cased. -/
def meetsCased (text : List Char) : Bool :=
  match text.dropWhile isCaseIgnorable with
  | [] => false
  | c :: _ => isCased c

/-- The lower-case form of a character between what stands before it (nearest first) and after
it. -/
def lowerBetween (before : List Char) (c : Char) (after : List Char) : List Char :=
  if c == 'Σ' then
    if meetsCased before && !meetsCased after then ['ς'] else ['σ']
  else lower c

/-- Lower-cases a text that follows the characters `before`, nearest first. -/
def lowerAfter (before : List Char) : (text : List Char) → List Char
  | [] => []
  | c :: rest => lowerBetween before c rest ++ lowerAfter (c :: before) rest

/-- The whole text in lower case. -/
def lowerAll (text : String) : String :=
  String.ofList (lowerAfter [] text.toList)

/-- The first character in title case and the rest in lower case. -/
def capitalize (text : String) : String :=
  match text.toList with
  | [] => ""
  | c :: rest => String.ofList (title c ++ lowerAfter [c] rest)

end Covenant.Text
