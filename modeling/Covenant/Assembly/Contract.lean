import Covenant.Assembly.Clause

/-!
# Assembling a contract

The children of a contract are visited once, in document order. Dates and parties are kept as
they are written, a later one replacing an earlier one; clauses are assembled in turn; named
terms are passed over. Any other child is skipped with everything below it.
-/

set_option autoImplicit false

namespace Covenant.Assembly

/-- What has been read of a contract. -/
structure Draft where
  beginDate : String := ""
  dueDate : String := ""
  application : String := ""
  process : String := ""
  clauses : List Clause := []
  deriving DecidableEq, Repr

/-- The last of the dates below a statement, or what was known before. -/
def lastDate (known : String) (statement : Tree) : String :=
  match statement.dateNodes.getLast? with
  | some date => date.text
  | none => known

/-- Reads an entry of a dates block. -/
def dateEntry (draft : Draft) (entry : Tree) : Draft :=
  match entry.kind with
  | .beginDate => { draft with beginDate := lastDate draft.beginDate entry }
  | .dueDate => { draft with dueDate := lastDate draft.dueDate entry }
  | _ => draft

/-- Reads an entry of a parties block. -/
def partyEntry (draft : Draft) (entry : Tree) : Draft :=
  match entry.kind with
  | .application => { draft with application := entry.partyText }
  | .process => { draft with process := entry.partyText }
  | _ => draft

/-- Reads a child of a contract. -/
def contractChild (draft : Draft) (child : Tree) : Traced Fault Draft := do
  match contractRouting.handler? child.kind with
  | some .variableBlock =>
      (child.pick [.variableStatement]).forM fun statement =>
        Traced.note (.statementPassed statement.text)
      return draft
  | some .dates => return child.children.foldl dateEntry draft
  | some .parties => return child.children.foldl partyEntry draft
  | some .clauses =>
      let clauses ← (child.pick [.clause]).mapM clause
      return { draft with clauses := draft.clauses ++ clauses }
  | none =>
      if child.kind.level ≠ .leaf then Traced.note (.nodeSkipped child.kind)
      return draft

/-- Assembles a contract. -/
def contract (tree : Tree) : Traced Fault Contract := do
  if tree.kind ≠ .contract then Traced.ofExcept (.error (.notContract tree.kind))
  let name ← Traced.ofExcept tree.contractTitle
  let draft ← tree.children.foldlM contractChild {}
  return {
    name
    beginDate := draft.beginDate
    dueDate := draft.dueDate
    application := draft.application
    process := draft.process
    clauses := draft.clauses }

end Covenant.Assembly

namespace Covenant

/-- The contract of a tree. -/
def Contract.ofTree (tree : Tree) : Except Fault Contract :=
  (Assembly.contract tree).result .quiet

end Covenant
