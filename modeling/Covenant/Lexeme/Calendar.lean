import Covenant.Lexeme.Basic
import Covenant.Text.DecimalDigit

/-!
# Dates

A date is a year of four digits, a month and a day of two, divided by hyphens; a date with a
time adds a space or a `T` and hours, minutes and seconds divided by colons. Digits are those of
any script, and the numbers are not checked against a calendar.
-/

set_option autoImplicit false

namespace Covenant.Lexeme

/-- So many digits. -/
def digitClasses (count : Nat) : List (Char → Bool) :=
  List.replicate count Text.isDecimalDigit

/-- The places of a date. -/
def dateClasses : List (Char → Bool) :=
  digitClasses 4 ++ [(· == '-')] ++ digitClasses 2 ++ [(· == '-')] ++ digitClasses 2

/-- The places of a time. -/
def timeClasses : List (Char → Bool) :=
  digitClasses 2 ++ [(· == ':')] ++ digitClasses 2 ++ [(· == ':')] ++ digitClasses 2

/-- The date at the head of the text. -/
def date (text : List Char) : Option Cut :=
  following dateClasses text

/-- The date with a time at the head of the text. -/
def datetime (text : List Char) : Option Cut :=
  following (dateClasses ++ [fun c => c == ' ' || c == 'T'] ++ timeClasses) text

/-- A date and what follows it make up the text. -/
theorem date_append {text lexeme rest : List Char} (h : date text = some (lexeme, rest)) :
    lexeme ++ rest = text :=
  following_append h

/-- A date with a time and what follows it make up the text. -/
theorem datetime_append {text lexeme rest : List Char}
    (h : datetime text = some (lexeme, rest)) : lexeme ++ rest = text :=
  following_append h

end Covenant.Lexeme
