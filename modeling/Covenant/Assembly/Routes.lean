import Covenant.Routing

/-!
# What is assembled

Three routings, one for each place where children are looked at: below the contract, below a
clause, and below a term. Kinds without a route are ignored there.
-/

set_option autoImplicit false

namespace Covenant.Assembly

/-- Blocks of a contract. -/
inductive Block where
  | variableBlock
  | dates
  | parties
  | clauses
  deriving DecidableEq, Repr

/-- Parts of a clause that follow its header. -/
inductive ClausePart where
  | breach
  | terms
  deriving DecidableEq, Repr

/-- Operations of a term. -/
inductive Operation where
  | timeout
  | messageContent
  deriving DecidableEq, Repr

/-- Children of a contract. -/
def contractRouting : Routing Block :=
  .covering "contract"
    [(.variableBlock, .variableBlock), (.dates, .dates), (.parties, .parties),
      (.clauses, .clauses)]

/-- Children of a clause. -/
def clauseRouting : Routing ClausePart :=
  .covering "clause" [(.onBreach, .breach), (.terms, .terms)]

/-- Children of a term. -/
def termRouting : Routing Operation :=
  .covering "term" [(.timeout, .timeout), (.messageContent, .messageContent)]

end Covenant.Assembly
