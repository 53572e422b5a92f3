import Covenant.Contract
import Covenant.Json

/-!
# Contracts as JSON

The plain structured form of a contract and its parts. A message condition shows comparator and
operands only if it has a comparator.
-/

set_option autoImplicit false

namespace Covenant

/-- A name by its renderings. -/
def Name.toJson (name : Name) : Json :=
  .obj [("pascal", .str name.pascal), ("camel", .str name.camel), ("snake", .str name.snake)]

/-- A variable with its type. -/
def Variable.toJson (v : Variable) : Json :=
  .obj [("name", v.name.toJson), ("type", .str v.type)]

/-- An operand: a literal, or a variable in its own form. -/
def Operand.toJson : Operand → Json
  | .literal text => .obj [("literal", .str text)]
  | .reference v => v.toJson

/-- A term with its tag. -/
def Term.toJson : Term → Json
  | .timeout name value =>
      .obj [("name", name.toJson), ("type", .str Vocabulary.timeoutTag), ("value", .str value)]
  | .messageContent name inputs comparator operands =>
      let common :=
        [("name", name.toJson), ("type", .str Vocabulary.messageContentTag),
          ("variables", .arr (inputs.map Variable.toJson))]
      match comparator with
      | none => .obj common
      | some sign =>
          .obj (common ++
            [("comparator", .str sign), ("operands", .arr (operands.map Operand.toJson))])

/-- The messages of a clause. -/
def Messages.toJson (messages : Messages) : Json :=
  .obj [("error", .str messages.error), ("success", .str messages.success)]

/-- A clause. -/
def Clause.toJson (clause : Clause) : Json :=
  .obj
    [("name", clause.name.toJson), ("type", .str clause.category),
      ("rolePlayer", .str clause.rolePlayer), ("operation", .str clause.operation),
      ("variables", .arr (clause.inputs.map Variable.toJson)),
      ("terms", .arr (clause.terms.map Term.toJson)), ("messages", clause.messages.toJson)]

namespace Contract

/-- A contract. -/
def toJson (contract : Contract) : Json :=
  .obj
    [("name", .str contract.name), ("beginDate", .str contract.beginDate),
      ("dueDate", .str contract.dueDate), ("application", .str contract.application),
      ("process", .str contract.process),
      ("variables", .arr (contract.inputs.map Variable.toJson)),
      ("clauses", .arr (contract.clauses.map Clause.toJson))]

/-- The canonical JSON text of a contract. -/
def canonicalText (contract : Contract) : String :=
  String.ofList contract.toJson.write

end Contract

end Covenant
