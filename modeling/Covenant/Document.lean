import Covenant.Document.ParseError
import Covenant.Grammar.Productions

/-!
# Reading a document

`Document.parse` reads the text of a contract into its tree. A text that is no contract is
reported at the furthest place at which a terminal was tried: earlier failures are forgotten,
and of those at that place each is named once, in the order of the attempts.
-/

set_option autoImplicit false

namespace Covenant.Document

/-- The shortest text that was left at an attempt; `start` if there was none. -/
def furthest (start : List Char) (attempts : List Attempt) : List Char :=
  attempts.foldl
    (fun best attempt => if attempt.rest.length < best.length then attempt.rest else best) start

/-- The labels of the attempts before the text, each once. -/
def labelsBefore (rest : List Char) (attempts : List Attempt) : List String :=
  ((attempts.filter fun attempt => attempt.rest.length == rest.length).map
    Attempt.label).eraseDups

/-- Looking for one more comment where the first token should stand, after all layout, is in
vain, and counts as an attempt. -/
def openingAttempt (text : List Char) : Attempt :=
  ⟨Lexeme.skipLayout text, "comment"⟩

/-- The report on a text, from the attempts that were made on it. -/
def report (text : List Char) (attempts : List Attempt) : ParseError :=
  let rest := furthest text attempts
  { before := text.take (text.length - rest.length)
    after := rest
    expected := labelsBefore rest attempts }

/-- The tree of a document. -/
def parse (source : String) : Except ParseError Tree :=
  let text := source.toList
  let scan := Grammar.contract.scan text
  match scan.outcome with
  | some (tree :: _, _) => .ok tree
  | _ => .error (report text (openingAttempt text :: scan.missed))

end Covenant.Document
