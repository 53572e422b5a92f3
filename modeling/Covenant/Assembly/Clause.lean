import Covenant.Assembly.Routes
import Covenant.Condition
import Covenant.Inputs
import Covenant.Trace

/-!
# Assembling a clause

The header of a clause gives its category, name and role. The operations in its terms blocks, in
document order, become its terms. A term is named after the clause and its own index, which is
the number of terms before it: a timeout whose operand is no number is left out and takes no
index. The variables of message conditions become the inputs of the clause, and the last breach
statement gives the error message.
-/

set_option autoImplicit false

namespace Covenant.Assembly

/-- What opens a clause. -/
structure Header where
  category : String
  name : Name
  role : String
  deriving DecidableEq, Repr

/-- The header of a clause. The first part that is missing is reported. -/
def header (clause : Tree) : Except Fault Header := do
  let category ← clause.clauseCategory
  let title ← clause.clauseTitle
  let statement ← clause.roleStatement
  let role ← statement.statedRole
  return { category, name := Name.ofClause category title, role }

/-- The operations in a terms block. -/
def blockOperations (terms : Tree) : List (Operation × Tree) :=
  (terms.pick [.termOrWhen]).flatMap fun termOrWhen =>
    (termOrWhen.pick [.term]).flatMap fun term => termRouting.select term.children

/-- The operations in all terms blocks of a clause. -/
def operations (clause : Tree) : List (Operation × Tree) :=
  (clauseRouting.select clause.children).flatMap fun part =>
    match part with
    | (.terms, block) => blockOperations block
    | (.breach, _) => []

/-- The messages of all breach statements of a clause. -/
def breachMessages (clause : Tree) : List String :=
  (clauseRouting.select clause.children).filterMap fun part =>
    match part with
    | (.breach, statement) => some statement.loggedText
    | (.terms, _) => none

/-- The terms assembled so far, with their variables. -/
structure Progress where
  terms : List Term := []
  inputs : Inputs := .empty

namespace Progress

/-- The index of the next term. -/
def index (progress : Progress) : Nat := progress.terms.length

/-- Adds a term at the end. -/
def push (progress : Progress) (term : Term) : Progress :=
  { progress with terms := progress.terms ++ [term] }

end Progress

/-- Stores a variable, and reports it if it replaces a different one. -/
def store (inputs : Inputs) (v : Variable) : Traced Fault Inputs := do
  match inputs.get? v.key with
  | some stored =>
      if stored ≠ v then Traced.note (.variableRedefined v.key stored.type v.type)
  | none => pure ()
  return inputs.insert v

/-- Assembles a timeout. -/
def timeout (name : Name) (progress : Progress) (node : Tree) : Traced Fault Progress := do
  let operand ← Traced.ofExcept node.duration
  if Lexeme.isNumber operand.text then
    return progress.push <|
      .timeout (name.extend [.word Vocabulary.timeoutTag, .index progress.index]) operand.text
  else
    Traced.note (.timeoutSkipped name.camel operand.text)
    return progress

/-- Assembles a message condition. -/
def messageContent (name : Name) (progress : Progress) (node : Tree) :
    Traced Fault Progress := do
  let condition ← Traced.ofExcept (Condition.ofTree node progress.index)
  let inputs ← condition.inputs.foldlM store progress.inputs
  let term : Term :=
    .messageContent (name.extend [.word Vocabulary.messageContentTag, .index progress.index])
      condition.inputs condition.comparator? condition.operands
  return { progress.push term with inputs }

/-- Assembles an operation of the clause of the given name. -/
def operation (name : Name) (progress : Progress) :
    Operation × Tree → Traced Fault Progress
  | (.timeout, node) => timeout name progress node
  | (.messageContent, node) => messageContent name progress node

/-- Assembles a clause. -/
def clause (tree : Tree) : Traced Fault Clause := do
  let header ← Traced.ofExcept (header tree)
  let progress ← (operations tree).foldlM (operation header.name) {}
  Traced.note (.clauseAssembled header.name.camel progress.terms.length progress.inputs.size)
  return {
    name := header.name
    category := header.category
    rolePlayer := header.role
    operation := header.role
    inputs := progress.inputs.toList
    terms := progress.terms
    messages := { error := (breachMessages tree).getLast?.getD "" } }

end Covenant.Assembly

namespace Covenant

/-- The clause of a tree. -/
def Clause.ofTree (tree : Tree) : Except Fault Clause :=
  (Assembly.clause tree).result .quiet

end Covenant
