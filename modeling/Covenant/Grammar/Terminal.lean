import Covenant.Lexeme.Calendar
import Covenant.Lexeme.Layout
import Covenant.Lexeme.Number
import Covenant.Lexeme.Quotation
import Covenant.Lexeme.Word
import Covenant.Vocabulary.Alternatives
import Covenant.Tree

/-!
# Terminals

The smallest parts of the grammar. A terminal reads a lexeme, has a label by which a report
names it, and gives the kind of the leaf that stands for it in the tree. The end of the document
leaves no leaf.
-/

set_option autoImplicit false

namespace Covenant

/-- A terminal of the grammar. -/
inductive Terminal where
  | literal (text : String)
  | identifier
  | number
  | string
  | datetime
  | date
  | comparator
  | clauseType
  | partyRole
  | connective
  | endOfDocument
  deriving DecidableEq, Repr

namespace Terminal

/-- The name of the terminal in a report. -/
def label : Terminal → String
  | literal text => "'" ++ text ++ "'"
  | identifier => "variable_name"
  | number => "number"
  | string => "string"
  | datetime => "datetime"
  | date => "date"
  | comparator => "comparator"
  | clauseType => "clause_type"
  | partyRole => "party_role"
  | connective => "connective"
  | endOfDocument => "EOF"

/-- Reads the terminal at the head of a text. -/
def read : Terminal → List Char → Option Cut
  | literal expected, text => Lexeme.exactly expected.toList text
  | identifier, text => Lexeme.identifier text
  | number, text => Lexeme.number text
  | string, text => Lexeme.quotation text
  | datetime, text => Lexeme.datetime text
  | date, text => Lexeme.date text
  | comparator, text => Lexeme.firstOf (Vocabulary.alternatives Vocabulary.comparators) text
  | clauseType, text => Lexeme.keyword Vocabulary.categories text
  | partyRole, text => Lexeme.keyword Vocabulary.roles text
  | connective, text => Lexeme.keyword Vocabulary.connectives text
  | endOfDocument, text => if text.isEmpty then some ([], []) else none

/-- The kind of leaf that a lexeme of the terminal becomes. -/
def leafKind? : Terminal → Option Kind
  | literal _ | connective => some .token
  | identifier | partyRole => some .identifier
  | number => some .number
  | string => some .string
  | datetime => some .datetime
  | date => some .date
  | comparator => some .comparator
  | clauseType => some .clauseType
  | endOfDocument => none

/-- The leaf for a lexeme, or nothing at the end of the document. -/
def leaves (terminal : Terminal) (lexeme : List Char) : List Tree :=
  match terminal.leafKind? with
  | some kind => [Tree.leaf kind (String.ofList lexeme)]
  | none => []

/-- A lexeme and what follows it make up the text. -/
theorem read_append {terminal : Terminal} {text lexeme rest : List Char}
    (h : terminal.read text = some (lexeme, rest)) : lexeme ++ rest = text := by
  cases terminal with
  | literal expected =>
      obtain ⟨same, split⟩ := Lexeme.exactly_eq_some_iff.mp h
      rw [same, split]
  | identifier => exact Lexeme.identifier_append h
  | number => exact Lexeme.number_append h
  | string => exact Lexeme.quotation_append h
  | datetime => exact Lexeme.datetime_append h
  | date => exact Lexeme.date_append h
  | comparator => exact Lexeme.firstOf_append h
  | clauseType => exact Lexeme.keyword_append h
  | partyRole => exact Lexeme.keyword_append h
  | connective => exact Lexeme.keyword_append h
  | endOfDocument =>
      cases text with
      | nil =>
          cases h
          rfl
      | cons c text => cases h

end Terminal

end Covenant
