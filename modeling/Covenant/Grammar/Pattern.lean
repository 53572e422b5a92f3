import Covenant.Grammar.Terminal

/-!
# Patterns

Patterns are built from terminals by sequence, ordered choice, option and repetition, and a
pattern may gather what it read into a node. A choice takes the first alternative that succeeds
and never comes back to it; options and repetitions take as much as they can.

`Pattern.scan` runs a pattern on a text. Besides the nodes read and the text left, it records
every terminal that was tried in vain, with the text before which it was tried. The records of
alternatives that were given up stay, since the report on a document names all that could have
stood at the furthest place.
-/

set_option autoImplicit false

namespace Covenant

/-- A pattern of a document. -/
inductive Pattern where
  | terminal (terminal : Terminal)
  | sequence (first second : Pattern)
  | choice (first second : Pattern)
  | maybe (pattern : Pattern)
  | many (pattern : Pattern)
  | node (kind : Kind) (pattern : Pattern)
  deriving Repr

/-- A terminal that was tried in vain before the text `rest`. -/
structure Attempt where
  rest : List Char
  label : String
  deriving DecidableEq, Repr

/-- The result of running a pattern. -/
structure Scan where
  /-- The nodes that were read and the text after them, unless the pattern failed. -/
  outcome : Option (List Tree × List Char)
  /-- The terminals tried in vain, in order. -/
  missed : List Attempt
  deriving Repr

namespace Scan

/-- Goes on with the text that is left; the nodes of both parts stand side by side. -/
def andThen (first : Scan) (next : List Char → Scan) : Scan :=
  match first.outcome with
  | none => first
  | some (nodes, rest) =>
      let second := next rest
      { outcome := second.outcome.map fun result => (nodes ++ result.1, result.2)
        missed := first.missed ++ second.missed }

/-- Falls back to another scan of the same text. -/
def orElse (first : Scan) (other : Unit → Scan) : Scan :=
  match first.outcome with
  | some _ => first
  | none =>
      let second := other ()
      { outcome := second.outcome, missed := first.missed ++ second.missed }

/-- Gathers the nodes that were read into one. -/
def gather (kind : Kind) (scan : Scan) : Scan :=
  { scan with outcome := scan.outcome.map fun result => ([Tree.inner kind result.1], result.2) }

/-- Succeeds without reading. -/
def empty (text : List Char) : Scan :=
  { outcome := some ([], text), missed := [] }

/-- Runs a scan as often as it succeeds, at most `limit` times. -/
def repeated (scan : List Char → Scan) : (limit : Nat) → (text : List Char) → Scan
  | 0, text => empty text
  | limit + 1, text => ((scan text).andThen (repeated scan limit)).orElse fun _ => empty text

/-- Reads a terminal after skipping layout. -/
def ofTerminal (terminal : Terminal) (text : List Char) : Scan :=
  let here := Lexeme.skipLayout text
  match terminal.read here with
  | some (lexeme, rest) => { outcome := some (terminal.leaves lexeme, rest), missed := [] }
  | none => { outcome := none, missed := [⟨here, terminal.label⟩] }

end Scan

namespace Pattern

/-- Runs a pattern on a text. A repetition reads at least one character in each round, so it
ends within as many rounds as the text has characters, and one more to see that it is over. -/
def scan : Pattern → List Char → Scan
  | terminal t, text => Scan.ofTerminal t text
  | sequence first second, text => (first.scan text).andThen second.scan
  | choice first second, text => (first.scan text).orElse fun _ => second.scan text
  | maybe pattern, text => (pattern.scan text).orElse fun _ => Scan.empty text
  | many pattern, text => Scan.repeated pattern.scan (text.length + 1) text
  | node kind pattern, text => (pattern.scan text).gather kind

end Pattern

end Covenant
