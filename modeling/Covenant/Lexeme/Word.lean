import Covenant.Lexeme.Basic
import Covenant.Vocabulary
import Covenant.Text.Word

/-!
# Keywords and identifiers

A keyword is read where the whole word at the head of the text is one of the expected ones. An
identifier is a run of ASCII letters, digits and underscores that does not open with a digit. It
is refused where the whole word is reserved, so that `rights` and `right2` are identifiers and
`right` is not.
-/

set_option autoImplicit false

namespace Covenant.Lexeme

/-- The word at the head of the text is one of the words. -/
def startsWithWord (words : List String) (text : List Char) : Bool :=
  words.contains (String.ofList (Text.leadingWord text))

/-- The word at the head of the text, if it is one of the words. -/
def keyword (words : List String) (text : List Char) : Option Cut :=
  if startsWithWord words text then some (Text.leadingWord text, Text.afterWord text) else none

/-- The identifier at the head of the text. -/
def identifier (text : List Char) : Option Cut :=
  match text with
  | [] => none
  | c :: rest =>
      if startsWithWord Vocabulary.reserved text then none
      else if Text.isIdentifierStart c then
        some (c :: rest.takeWhile Text.isIdentifierChar, rest.dropWhile Text.isIdentifierChar)
      else none

/-- A keyword and what follows it make up the text. -/
theorem keyword_append {words : List String} {text lexeme rest : List Char}
    (h : keyword words text = some (lexeme, rest)) : lexeme ++ rest = text := by
  unfold keyword at h
  split at h
  · cases h
    exact Text.leadingWord_append_afterWord text
  · cases h

/-- An identifier and what follows it make up the text. -/
theorem identifier_append {text lexeme rest : List Char}
    (h : identifier text = some (lexeme, rest)) : lexeme ++ rest = text := by
  unfold identifier at h
  split at h
  · cases h
  · next c tail =>
      split at h
      · cases h
      · split at h
        · cases h
          exact congrArg (c :: ·) List.takeWhile_append_dropWhile
        · cases h

end Covenant.Lexeme
