import Covenant.Vocabulary
import Covenant.Name

/-!
# Contracts

The canonical form of a contract, as generators read it: header texts, clauses in the order of
their declaration, and for each clause its terms and the variables that they introduce.
-/

set_option autoImplicit false

namespace Covenant

/-- A typed input of a clause. -/
structure Variable where
  name : Name
  type : String
  deriving DecidableEq, Repr

/-- A side of a comparison: a number as it is written, or a variable. -/
inductive Operand where
  | literal (text : String)
  | reference (target : Variable)
  deriving DecidableEq, Repr

/-- The variable of an operand. -/
def Operand.reference? : Operand → Option Variable
  | .literal _ => none
  | .reference v => some v

/-- A term of a clause. A message condition without comparator is a presence check. -/
inductive Term where
  | timeout (name : Name) (value : String)
  | messageContent (name : Name) (inputs : List Variable) (comparator : Option String)
      (operands : List Operand)
  deriving DecidableEq, Repr

namespace Term

/-- The name of a term. -/
def name : Term → Name
  | timeout name _ => name
  | messageContent name _ _ _ => name

/-- The variables that a term introduces. -/
def inputs : Term → List Variable
  | timeout _ _ => []
  | messageContent _ inputs _ _ => inputs

/-- Whether a message condition tests for presence only; nothing is said of a timeout. -/
def isPresenceCheck? : Term → Option Bool
  | timeout _ _ => none
  | messageContent _ _ comparator _ => some comparator.isNone

end Term

/-- What a clause reports. -/
structure Messages where
  error : String := ""
  success : String := ""
  deriving DecidableEq, Repr

/-- A clause. -/
structure Clause where
  name : Name
  category : String
  rolePlayer : String
  operation : String
  inputs : List Variable
  terms : List Term
  messages : Messages
  deriving DecidableEq, Repr

/-- A contract. -/
structure Contract where
  name : String
  beginDate : String
  dueDate : String
  application : String
  process : String
  clauses : List Clause
  inputs : List Variable := []
  deriving DecidableEq, Repr

end Covenant
