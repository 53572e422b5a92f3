import Covenant.Text.DecimalDigit
import Covenant.Text.Letter
import Covenant.Text.Numeric

/-!
# Words

A word is a maximal run of word characters: letters, digits and numeric symbols of any script,
and the underscore. Keywords are recognised by comparing a whole word, so that a keyword never
ends inside a longer one.
-/

set_option autoImplicit false

namespace Covenant.Text

/-- A character that continues a word. -/
def isWordChar (c : Char) : Bool :=
  c == '_' || isLetter c || isDecimalDigit c || isNumericSymbol c

/-- The word at the head of a text; empty when the text starts with no word character. -/
def leadingWord (text : List Char) : List Char :=
  text.takeWhile isWordChar

/-- What follows the word at the head of a text. -/
def afterWord (text : List Char) : List Char :=
  text.dropWhile isWordChar

/-- Nothing is lost between the leading word and what follows it. -/
theorem leadingWord_append_afterWord (text : List Char) :
    leadingWord text ++ afterWord text = text :=
  List.takeWhile_append_dropWhile

/-- A character of a plain identifier. -/
def isIdentifierChar (c : Char) : Bool :=
  c == '_' || c.isAlphanum

/-- A character that opens a plain identifier. -/
def isIdentifierStart (c : Char) : Bool :=
  c == '_' || c.isAlpha

/-- Identifier characters are word characters. -/
theorem isWordChar_of_isIdentifierChar {c : Char} (h : isIdentifierChar c = true) :
    isWordChar c = true := by
  simp only [isIdentifierChar, Char.isAlphanum, Bool.or_eq_true] at h
  simp only [isWordChar, Bool.or_eq_true]
  rcases h with h | h | h
  · exact Or.inl (Or.inl (Or.inl h))
  · exact Or.inl (Or.inl (Or.inr (isLetter_of_isAlpha h)))
  · exact Or.inl (Or.inr (isDecimalDigit_of_isDigit h))

/-- A character that opens an identifier also continues one. -/
theorem isIdentifierChar_of_isIdentifierStart {c : Char} (h : isIdentifierStart c = true) :
    isIdentifierChar c = true := by
  simp only [isIdentifierStart, Bool.or_eq_true] at h
  simp only [isIdentifierChar, Char.isAlphanum, Bool.or_eq_true]
  rcases h with h | h
  · exact Or.inl h
  · exact Or.inr (Or.inl h)

end Covenant.Text
