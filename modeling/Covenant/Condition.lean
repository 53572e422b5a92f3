import Covenant.Contract
import Covenant.Lexeme.Number
import Covenant.Lexeme.Quotation
import Covenant.Tree.Slots

/-!
# Message conditions

A message condition either tests for the presence of a message or compares two operands. The
comparator alone decides the type of the variables in a comparison. An operand that is a number
stays as it is written; any other text without quotes names a variable; a text in quotes becomes
a variable without a name of its own, which is named after the term and the side.
-/

set_option autoImplicit false

namespace Covenant

/-- A message condition. -/
inductive Condition where
  | presence (flag : Variable)
  | comparison (left : Operand) (comparator : String) (right : Operand)
  deriving DecidableEq, Repr

/-- The type of the variables in a comparison. -/
def comparedType (comparator : String) : String :=
  if comparator ∈ Vocabulary.equalities then Vocabulary.textType else Vocabulary.numberType

/-- The operand that a text stands for, on the given side of the term with the given index. -/
def Operand.ofText (text : String) (index side : Int) (type : String) : Operand :=
  if Lexeme.isNumber text then .literal text
  else if Lexeme.opensQuotation text then
    .reference
      ⟨Name.ofParts Vocabulary.messageContentTag [.index index, .index side], type⟩
  else .reference ⟨Name.ofParts text [], type⟩

namespace Condition

/-- The operands of a comparison, left to right. -/
def operands : Condition → List Operand
  | presence _ => []
  | comparison left _ right => [left, right]

/-- The comparator of a comparison. -/
def comparator? : Condition → Option String
  | presence _ => none
  | comparison _ comparator _ => some comparator

/-- The variables that a condition introduces, left to right. -/
def inputs : Condition → List Variable
  | presence flag => [flag]
  | comparison left _ right => [left, right].filterMap Operand.reference?

/-- The condition of a message content node, as the term with the given index of its clause. -/
def ofTree (tree : Tree) (index : Int) : Except Fault Condition := do
  if ← tree.testsPresence then
    return .presence
      ⟨Name.ofParts Vocabulary.messageContentTag [.index index], Vocabulary.booleanType⟩
  let comparator ← tree.comparatorText
  let type := comparedType comparator
  let left ← tree.sideAt 1
  let right ← tree.sideAt 2
  return .comparison (.ofText left.text index 1 type) comparator
    (.ofText right.text index 2 type)

end Condition

end Covenant
