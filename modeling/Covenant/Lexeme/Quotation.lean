import Covenant.Lexeme.Basic
import Covenant.Vocabulary

/-!
# Strings

A string runs from a quote to the next quote of the same sort, over line ends too. There are no
escapes.
-/

set_option autoImplicit false

namespace Covenant.Lexeme

/-- The string at the head of the text, quotes included. -/
def quotation (text : List Char) : Option Cut :=
  match text with
  | [] => none
  | quote :: rest =>
      if Vocabulary.quotes.contains quote then
        match rest.dropWhile (· != quote) with
        | [] => none
        | close :: after => some (quote :: rest.takeWhile (· != quote) ++ [close], after)
      else none

/-- The text opens with a quote. -/
def opensQuotation (text : String) : Bool :=
  match text.toList with
  | [] => false
  | c :: _ => Vocabulary.quotes.contains c

/-- A string and what follows it make up the text. -/
theorem quotation_append {text lexeme rest : List Char}
    (h : quotation text = some (lexeme, rest)) : lexeme ++ rest = text := by
  unfold quotation at h
  split at h
  · cases h
  · next quote tail =>
      split at h
      · split at h
        · cases h
        · next close after found =>
            cases h
            have whole := List.takeWhile_append_dropWhile (p := (· != quote)) (l := tail)
            rw [found] at whole
            rw [List.append_assoc, List.cons_append]
            exact congrArg (quote :: ·) whole
      · cases h

end Covenant.Lexeme
