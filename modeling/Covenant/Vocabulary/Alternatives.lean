import Covenant.Order

/-!
# Alternatives by length

Where several words may stand, the longest comes first, so that no word is hidden by one that it
starts with; words of one length stand in the order of their code points.
-/

set_option autoImplicit false

namespace Covenant.Vocabulary

/-- The order of alternatives: longer words first, then by code points. -/
def precedes (a b : String) : Bool :=
  b.length < a.length || (a.length == b.length && decide (a ≤ b))

/-- Words in the order in which they are tried. -/
def alternatives (words : List String) : List String :=
  sortBy precedes words

/-- The alternatives as one pattern, divided by bars. -/
def alternativesText (words : List String) : String :=
  String.intercalate "|" (alternatives words)

/-- No word is added or dropped. -/
theorem mem_alternatives (words : List String) (word : String) :
    word ∈ alternatives words ↔ word ∈ words :=
  mem_sortBy precedes words word

end Covenant.Vocabulary
