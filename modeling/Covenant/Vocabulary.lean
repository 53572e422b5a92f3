/-!
# Vocabulary

The words and operators of the contract language, the spellings of inferred types and of term
tags, and the base of generated names. The grammar and the assembly of contracts both read them
from here.
-/

set_option autoImplicit false

namespace Covenant.Vocabulary

/-- Words that open a block. -/
def blockWords : List String :=
  ["contract", "variables", "dates", "parties", "clauses", "terms"]

/-- Words that open a statement. -/
def statementWords : List String :=
  ["beginDate", "dueDate", "rolePlayer", "operation", "onBreach", "log"]

/-- The categories of clauses. -/
def categories : List String :=
  ["right", "obligation", "prohibition"]

/-- The roles of the contracting parties. -/
def roles : List String :=
  ["application", "process"]

/-- The word that opens a timeout. -/
def timeoutWord : String := "Timeout"

/-- The word that opens a message condition. -/
def messageContentWord : String := "MessageContent"

/-- Words that open a term. -/
def termWords : List String :=
  [timeoutWord, messageContentWord]

/-- Words that join terms. -/
def connectives : List String :=
  ["and", "or"]

/-- Words that are never identifiers. -/
def reserved : List String :=
  blockWords ++ statementWords ++ categories ++ roles ++ termWords ++ connectives

/-- Comparators of texts. -/
def equalities : List String :=
  ["==", "!="]

/-- Comparators of numbers. -/
def inequalities : List String :=
  ["<=", ">=", "<", ">"]

/-- All comparators. -/
def comparators : List String :=
  equalities ++ inequalities

/-- The quotes that open a string. -/
def quotes : List Char :=
  ['"', '\'']

/-- The type of a variable that a presence check introduces. -/
def booleanType : String := "boolean"

/-- The type of a variable compared as text. -/
def textType : String := "TEXT"

/-- The type of a variable compared as a number. -/
def numberType : String := "NUMBER"

/-- The tag of a timeout term, and the part of its name. -/
def timeoutTag : String := "timeout"

/-- The tag of a message condition, the part of its name, and the base of unnamed variables. -/
def messageContentTag : String := "messageContent"

end Covenant.Vocabulary
