import Covenant.Text.Quoted

/-!
# Node kinds

The closed set of kinds that a node of a contract tree can have, with their names and the level
of the document to which each belongs. Names identify kinds (`Kind.name_inj`) and are read back
by `Kind.ofName?` (`Kind.ofName?_name`).
-/

set_option autoImplicit false

namespace Covenant

/-- The kind of a node of a contract tree. -/
inductive Kind where
  | contract
  | variableBlock
  | variableStatement
  | dates
  | beginDate
  | dueDate
  | parties
  | application
  | process
  | clauses
  | clause
  | clauseType
  | rolePlayer
  | operation
  | terms
  | onBreach
  | termOrWhen
  | term
  | timeout
  | messageContent
  | date
  | datetime
  | identifier
  | number
  | string
  | comparator
  | token
  deriving DecidableEq, Inhabited, Repr

/-- The part of a document in which a kind stands; the leaves stand anywhere. -/
inductive Level where
  | contract
  | clause
  | term
  | leaf
  deriving DecidableEq, Repr

namespace Kind

/-- All kinds, from the document down to its leaves. -/
def all : List Kind :=
  [contract, variableBlock, variableStatement, dates, beginDate, dueDate, parties, application,
    process, clauses, clause, clauseType, rolePlayer, operation, terms, onBreach, termOrWhen,
    term, timeout, messageContent, date, datetime, identifier, number, string, comparator, token]

/-- The name by which a kind is shown and looked up. -/
def name : Kind → String
  | contract => "contract"
  | variableBlock => "variables"
  | variableStatement => "variable-statement"
  | dates => "dates"
  | beginDate => "begin-date"
  | dueDate => "due-date"
  | parties => "parties"
  | application => "application"
  | process => "process"
  | clauses => "clauses"
  | clause => "clause"
  | clauseType => "clause-type"
  | rolePlayer => "role-player"
  | operation => "operation"
  | terms => "terms"
  | onBreach => "on-breach"
  | termOrWhen => "term-or-when"
  | term => "term"
  | timeout => "timeout"
  | messageContent => "message-content"
  | date => "date"
  | datetime => "datetime"
  | identifier => "identifier"
  | number => "number"
  | string => "string"
  | comparator => "comparator"
  | token => "token"

/-- The level of a kind. -/
def level : Kind → Level
  | contract | variableBlock | variableStatement | dates | beginDate | dueDate | parties
  | application | process | clauses => .contract
  | clause | clauseType | rolePlayer | operation | terms | onBreach => .clause
  | termOrWhen | term | timeout | messageContent => .term
  | date | datetime | identifier | number | string | comparator | token => .leaf

/-- The kinds of one level. -/
def ofLevel (level : Level) : List Kind :=
  all.filter fun kind => kind.level = level

/-- The kind of that name; names are compared exactly. -/
def ofName? (name : String) : Option Kind :=
  all.find? fun kind => kind.name == name

/-- Every kind is listed. -/
@[simp] theorem mem_all (kind : Kind) : kind ∈ all := by
  cases kind <;> decide

/-- A name is read back as the kind it belongs to. -/
@[simp] theorem ofName?_name (kind : Kind) : ofName? kind.name = some kind := by
  cases kind <;> decide

/-- Different kinds have different names. -/
theorem name_inj {a b : Kind} (h : a.name = b.name) : a = b := by
  have read := ofName?_name a
  rw [h, ofName?_name b] at read
  exact (Option.some.inj read).symm

end Kind

/-- A name that belongs to no kind. -/
structure UnknownKind where
  name : String
  deriving DecidableEq, Repr

/-- The report on an unknown kind. -/
def UnknownKind.message (unknown : UnknownKind) : String :=
  Text.quoted unknown.name ++ " is not a valid NodeKind"

/-- The kind of that name, or a report that there is none. -/
def Kind.ofName (name : String) : Except UnknownKind Kind :=
  match ofName? name with
  | some kind => .ok kind
  | none => .error ⟨name⟩

end Covenant
