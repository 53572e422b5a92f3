/-!
# Reports on documents that cannot be read

A report divides the document at the furthest place that was reached and lists what could have
stood there. Line, column, and the excerpt around the place follow from the division.
-/

set_option autoImplicit false

namespace Covenant

/-- Where and why a document could not be read. -/
structure ParseError where
  /-- The document up to the place. -/
  before : List Char
  /-- The document from the place on. -/
  after : List Char
  /-- What could have stood there, in the order in which it was tried. -/
  expected : List String
  deriving DecidableEq, Repr

namespace ParseError

/-- The line of the place, counted from one. Only line feeds end lines. -/
def line (error : ParseError) : Nat :=
  1 + error.before.count '\n'

/-- The column of the place, counted from one. -/
def column (error : ParseError) : Nat :=
  1 + (error.before.reverse.takeWhile (· != '\n')).length

/-- How many characters of the document an excerpt shows on each side of the place. -/
def excerptWidth : Nat := 10

/-- The document around the place, which is marked by a star; line feeds are shown as spaces and
carriage returns not at all. -/
def excerpt (error : ParseError) : List Char :=
  let start := error.before.drop (error.before.length - excerptWidth)
  let shown := start ++ '*' :: error.after.take excerptWidth
  (shown.filter (· != '\r')).map fun c => if c == '\n' then ' ' else c

/-- The report. -/
def message (error : ParseError) : String :=
  "Expected " ++ String.intercalate " or " error.expected
    ++ " at position (" ++ toString error.line ++ ", " ++ toString error.column
    ++ ") => '" ++ String.ofList error.excerpt ++ "'."

end ParseError

end Covenant
