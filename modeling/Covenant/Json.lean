import Covenant.Order
import Covenant.Text.Hex

/-!
# Canonical JSON

JSON values and the one text that each of them has: members in the order of their keys, no
blanks, and ASCII only. Numbers are integers of any size; the floats that have no JSON form
(infinities and not a number) can occur in a value, and then it has no canonical text. The digits of
an integer may be bounded, and then longer integers have no text either.
-/

set_option autoImplicit false

namespace Covenant

/-- A JSON value. Members stand in the order in which they were given. -/
inductive Json where
  | null
  | bool (value : Bool)
  | int (value : Int)
  | nonFinite
  | str (text : String)
  | arr (items : List Json)
  | obj (members : List (String × Json))
  deriving Inhabited, Repr

namespace Json

/-! ## Strings -/

/-- A code unit as an escape. -/
def unitEscape (unit : Nat) : List Char :=
  '\\' :: 'u' :: Text.hex 4 unit

/-- A character inside a string. All but printable ASCII is escaped; a character beyond the
basic plane is written as its two UTF-16 units. -/
def escapeChar (c : Char) : List Char :=
  if c == '"' then ['\\', '"']
  else if c == '\\' then ['\\', '\\']
  else if c == '\n' then ['\\', 'n']
  else if c == '\r' then ['\\', 'r']
  else if c == '\t' then ['\\', 't']
  else if c.toNat == 0x08 then ['\\', 'b']
  else if c.toNat == 0x0c then ['\\', 'f']
  else if 0x20 ≤ c.toNat && c.toNat ≤ 0x7e then [c]
  else if c.toNat < 0x10000 then unitEscape c.toNat
  else
    unitEscape (0xd800 + (c.toNat - 0x10000) / 0x400)
      ++ unitEscape (0xdc00 + (c.toNat - 0x10000) % 0x400)

/-- A string between its quotes. -/
def writeString (text : String) : List Char :=
  '"' :: text.toList.flatMap escapeChar ++ ['"']

/-! ## Values -/

/-- Texts with commas between them. -/
def commaSeparated : List (List Char) → List Char
  | [] => []
  | [text] => text
  | text :: rest => text ++ ',' :: commaSeparated rest

/-- A member: its key, a colon, its value. -/
def writeMember (member : String × List Char) : List Char :=
  writeString member.1 ++ ':' :: member.2

/-- Members in the order of their keys. -/
def sortMembers (members : List (String × List Char)) : List (String × List Char) :=
  sortBy (fun a b => decide (a.1 ≤ b.1)) members

mutual

/-- The text of a value. Where a value has no canonical text, the floats are written as `NaN`.
-/
def write : Json → List Char
  | null => "null".toList
  | bool true => "true".toList
  | bool false => "false".toList
  | int value => (toString value).toList
  | nonFinite => "NaN".toList
  | str text => writeString text
  | arr items => '[' :: commaSeparated (writeItems items) ++ [']']
  | obj members =>
      '\x7b' :: commaSeparated ((sortMembers (writeMembers members)).map writeMember) ++ ['\x7d']

/-- The texts of several values. -/
def writeItems : List Json → List (List Char)
  | [] => []
  | item :: rest => item.write :: writeItems rest

/-- Keys with the texts of their values. -/
def writeMembers : List (String × Json) → List (String × List Char)
  | [] => []
  | (key, value) :: rest => (key, value.write) :: writeMembers rest

end

/-! ## Values without a text -/

/-- Why a value has no canonical text: a float that JSON cannot write, or an integer that is longer
than the bound on digits allows. -/
inductive WriteError where
  | outOfRange
  | tooManyDigits (bound : Nat)
  deriving DecidableEq, Repr

/-- The report on a value without a JSON text. -/
def WriteError.message : WriteError → String
  | outOfRange => "Out of range float values are not JSON compliant"
  | tooManyDigits bound =>
      "Exceeds the limit (" ++ toString bound ++ " digits) for integer string conversion; " ++
        "use sys.set_int_max_str_digits() to increase the limit"

/-- The number of decimal digits of an integer, without its sign. -/
def digitCount (value : Int) : Nat :=
  (Nat.toDigits 10 value.natAbs).length

/-- The bound on digits that is in force unless another one is set. -/
def digitBound : Nat := 4300

/-- What a value alone, without those inside it, has against being written. Integers of any size
are written if there is no bound. -/
def fault? (bound : Option Nat) : Json → Option WriteError
  | int value => (bound.filter (· < digitCount value)).map .tooManyDigits
  | nonFinite => some .outOfRange
  | _ => none

mutual

/-- What stands against writing a value, in the order of writing. -/
def faults (bound : Option Nat) : Json → List WriteError
  | arr items => itemFaults bound items
  | obj members =>
      (sortBy (fun a b => decide (a.1 ≤ b.1)) (memberFaults bound members)).flatMap Prod.snd
  | value => (value.fault? bound).toList

/-- The same for several values. -/
def itemFaults (bound : Option Nat) : List Json → List WriteError
  | [] => []
  | item :: rest => item.faults bound ++ itemFaults bound rest

/-- Keys with what stands against writing their values. -/
def memberFaults (bound : Option Nat) : List (String × Json) → List (String × List WriteError)
  | [] => []
  | (key, value) :: rest => (key, value.faults bound) :: memberFaults bound rest

end

/-- The canonical text of a value, or what was met first that has none. -/
def canonical (value : Json) (bound : Option Nat := some digitBound) : Except WriteError String :=
  match value.faults bound with
  | [] => .ok (String.ofList value.write)
  | fault :: _ => .error fault

end Json

end Covenant
