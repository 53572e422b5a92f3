import Covenant.Grammar.Pattern

/-!
# Productions of the contract language

A document is one contract:

    contract Rental {
      variables { deposit = MessageContent(amount >= 500) }
      dates { beginDate = 2024-05-01  dueDate = 2025-04-30 12:00:00 }
      parties { application = "Tenant"  process = landlord }
      clauses {
        obligation payRent {
          rolePlayer = application
          operation = pay
          terms { Timeout(2592000) and MessageContent(currency == "EUR") }
          onBreach(log("Rent is due"))
        }
      }
    }

Each production below that is a node of the tree names its kind; values, options and repetitions
add their nodes to the production around them. Literals ask for no word end, so `contractC{}` is
a contract named `C`.
-/

set_option autoImplicit false

namespace Covenant

/-- `p ++ q` is `p` followed by `q`. -/
instance : Append Pattern := ⟨Pattern.sequence⟩

/-- `p <|> q` is `p`, or else `q`. -/
instance : OrElse Pattern := ⟨fun first second => .choice first (second ())⟩

namespace Grammar

/-- The version of the grammar. -/
def version : String := "1.0.0"

/-- A word or sign that stands in the document as it is written here. -/
def literal (text : String) : Pattern := .terminal (.literal text)

/-- A name. -/
def identifier : Pattern := .terminal .identifier

/-- A number. -/
def number : Pattern := .terminal .number

/-- A string. -/
def string : Pattern := .terminal .string

/-! ## Terms -/

/-- An operand of a comparison. -/
def value : Pattern := number <|> (string <|> identifier)

/-- A timeout in seconds, or under a name. -/
def timeout : Pattern :=
  Pattern.node .timeout
    (literal Vocabulary.timeoutWord ++ literal "(" ++ (number <|> identifier) ++ literal ")")

/-- A condition on a message: a comparison, a value that has to be present, or nothing. -/
def messageContent : Pattern :=
  Pattern.node .messageContent
    (literal Vocabulary.messageContentWord ++ literal "("
      ++ Pattern.maybe ((value ++ .terminal .comparator ++ value) <|> value) ++ literal ")")

/-- A timeout or a message condition. -/
def term : Pattern :=
  Pattern.node .term (timeout <|> messageContent)

/-- A term with the connective before it, if there is one. -/
def termOrWhen : Pattern :=
  Pattern.node .termOrWhen (Pattern.maybe (.terminal .connective) ++ term)

/-- The terms of a clause, at least one. -/
def terms : Pattern :=
  Pattern.node .terms
    (literal "terms" ++ literal "\x7b" ++ termOrWhen ++ Pattern.many termOrWhen ++ literal "\x7d")

/-! ## Clauses -/

/-- The party that a clause binds. -/
def rolePlayer : Pattern :=
  Pattern.node .rolePlayer (literal "rolePlayer" ++ literal "=" ++ .terminal .partyRole)

/-- The operation that a clause is about. -/
def operation : Pattern :=
  Pattern.node .operation (literal "operation" ++ literal "=" ++ identifier)

/-- The message that a breach logs. -/
def onBreach : Pattern :=
  Pattern.node .onBreach
    (literal "onBreach" ++ literal "(" ++ literal "log" ++ literal "(" ++ string ++ literal ")"
      ++ literal ")")

/-- A clause. -/
def clause : Pattern :=
  Pattern.node .clause
    (.terminal .clauseType ++ identifier ++ literal "\x7b" ++ rolePlayer
      ++ Pattern.maybe operation ++ terms ++ Pattern.maybe onBreach ++ literal "\x7d")

/-- A block of clauses. -/
def clauses : Pattern :=
  Pattern.node .clauses
    (literal "clauses" ++ literal "\x7b" ++ Pattern.many clause ++ literal "\x7d")

/-! ## Contract -/

/-- A named term. -/
def variableStatement : Pattern :=
  Pattern.node .variableStatement (identifier ++ literal "=" ++ term)

/-- A block of named terms. -/
def variableBlock : Pattern :=
  Pattern.node .variableBlock
    (literal "variables" ++ literal "\x7b" ++ Pattern.many variableStatement ++ literal "\x7d")

/-- A date, with or without a time. -/
def moment : Pattern := .terminal .datetime <|> .terminal .date

/-- The day on which the contract begins. -/
def beginDate : Pattern :=
  Pattern.node .beginDate (literal "beginDate" ++ literal "=" ++ moment)

/-- The day on which the contract ends. -/
def dueDate : Pattern :=
  Pattern.node .dueDate (literal "dueDate" ++ literal "=" ++ moment)

/-- The block of dates. -/
def dates : Pattern :=
  Pattern.node .dates
    (literal "dates" ++ literal "\x7b" ++ beginDate ++ dueDate ++ literal "\x7d")

/-- The party on the application's side. -/
def application : Pattern :=
  Pattern.node .application (literal "application" ++ literal "=" ++ (string <|> identifier))

/-- The party on the process's side. -/
def process : Pattern :=
  Pattern.node .process (literal "process" ++ literal "=" ++ (string <|> identifier))

/-- The block of parties. -/
def parties : Pattern :=
  Pattern.node .parties
    (literal "parties" ++ literal "\x7b" ++ application ++ process ++ literal "\x7d")

/-- A block of a contract. -/
def block : Pattern := variableBlock <|> (dates <|> (parties <|> clauses))

/-- A whole document. -/
def contract : Pattern :=
  Pattern.node .contract
    (literal "contract" ++ identifier ++ literal "\x7b" ++ Pattern.many block ++ literal "\x7d"
      ++ .terminal .endOfDocument)

end Grammar

end Covenant
