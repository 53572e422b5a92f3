/-!
# Layout

What may stand between two tokens: blanks (tab, line feed, carriage return and space, no other
character) and comments, which run from two slashes to the end of the line.
-/

set_option autoImplicit false

namespace Covenant.Lexeme

/-- One of the four blanks. -/
def isBlank (c : Char) : Bool :=
  c == '\t' || c == '\n' || c == '\r' || c == ' '

/-- Drops layout from a text that starts inside or outside a comment. Only a line feed ends a
comment. -/
def dropLayout : (inComment : Bool) → List Char → List Char
  | _, [] => []
  | true, c :: rest => dropLayout (c != '\n') rest
  | false, '/' :: '/' :: rest => dropLayout true rest
  | false, c :: rest => if isBlank c then dropLayout false rest else c :: rest

/-- The text from its first token on. -/
def skipLayout (text : List Char) : List Char :=
  dropLayout false text

end Covenant.Lexeme
