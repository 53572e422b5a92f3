import Covenant.Proofs.Assembly.Contract
import Covenant.Proofs.Assembly.Terms
import Covenant.Proofs.Name

/-!
# What a contract says

A contract keeps less than its document says. `Summary` lists what it keeps: the texts of the
header, and for each clause its category, name, role and breach message, and its terms, of which a
quoted operand counts as quoted only and a presence check as a presence check only.

A summary is read off a tree by kinds and positions of nodes (`Tree.summary`), and it is rendered
as a contract, with all names and types filled in (`Summary.contract`). Main statement: rendering
loses nothing (`Summary.contract_injective`). The names decide it: the name of a clause gives back
the name that was declared, and a word that is spelled like the name of a quoted operand differs
from it in one of the renderings.
-/

set_option autoImplicit false

namespace Covenant

/-! ## Summaries -/

/-- What is kept of an operand. -/
inductive OperandSummary where
  | number (text : String)
  | name (text : String)
  | quoted
  deriving DecidableEq, Repr

/-- What is kept of a term. -/
inductive TermSummary where
  | timeout (duration : String)
  | presence
  | comparison (left : OperandSummary) (comparator : String) (right : OperandSummary)
  deriving DecidableEq, Repr

/-- What is kept of a clause. -/
structure ClauseSummary where
  category : String
  title : String
  role : String
  breach : String
  terms : List TermSummary
  deriving DecidableEq, Repr

/-- What is kept of a contract. -/
structure Summary where
  name : String
  beginDate : String
  dueDate : String
  application : String
  process : String
  clauses : List ClauseSummary
  deriving DecidableEq, Repr

/-! ## Reading a tree -/

namespace Tree

/-- What is kept of an operand, by the sort of its leaf. -/
def operandSummary (operand : Tree) : OperandSummary :=
  match operand.kind with
  | .number => .number operand.text
  | .string => .quoted
  | _ => .name operand.text

/-- What is kept of an operation. -/
def termSummary (node : Tree) : TermSummary :=
  match node.kind, node.children with
  | .timeout, _ => .timeout (node.textAt 2)
  | _, [_, _, left, sign, right, _] =>
      .comparison left.operandSummary sign.text right.operandSummary
  | _, _ => .presence

/-- Whether an operation is a timeout whose operand is a name. -/
def namesDuration (node : Tree) : Bool :=
  node.kind == .timeout && node.children[2]?.any fun operand => operand.kind == .identifier

/-- The role that a clause gives. -/
def roleText (clause : Tree) : String :=
  lastOf (textAt 2) "" (clause.pick [.rolePlayer])

/-- What is kept of a clause. -/
def clauseSummary (clause : Tree) : ClauseSummary where
  category := clause.textAt 0
  title := clause.textAt 1
  role := clause.roleText
  breach := lastOf (textAt 4) "" (clause.pick [.onBreach])
  terms := (clause.operationNodes.filter fun node => !node.namesDuration).map termSummary

/-- What is kept of a contract. -/
def summary (contract : Tree) : Summary where
  name := contract.textAt 1
  beginDate := lastOf (textAt 2) "" (contract.reach [[.dates], [.beginDate]])
  dueDate := lastOf (textAt 2) "" (contract.reach [[.dates], [.dueDate]])
  application := lastOf (textAt 2) "" (contract.reach [[.parties], [.application]])
  process := lastOf (textAt 2) "" (contract.reach [[.parties], [.process]])
  clauses := contract.clauseNodes.map clauseSummary

end Tree

/-! ## Rendering -/

/-- The operand on a side of the term with the given index. -/
def OperandSummary.operand (index side : Nat) (type : String) : OperandSummary → Operand
  | number text => .literal text
  | name text => .reference ⟨Name.ofParts text [], type⟩
  | quoted =>
      .reference ⟨Name.ofParts Vocabulary.messageContentTag (Name.numbers [index, side]), type⟩

/-- The term of a message condition. -/
def Condition.term (name : Name) (index : Nat) (condition : Condition) : Term :=
  .messageContent (name.extend [.word Vocabulary.messageContentTag, .index index])
    condition.inputs condition.comparator? condition.operands

/-- The term with the given index of the clause of a name. -/
def TermSummary.term (clause : Name) (index : Nat) : TermSummary → Term
  | timeout duration =>
      .timeout (clause.extend [.word Vocabulary.timeoutTag, .index index]) duration
  | presence =>
      Condition.term clause index <| .presence
        ⟨Name.ofParts Vocabulary.messageContentTag (Name.numbers [index]), Vocabulary.booleanType⟩
  | comparison left comparator right =>
      Condition.term clause index <| .comparison
        (left.operand index 1 (comparedType comparator)) comparator
        (right.operand index 2 (comparedType comparator))

/-- The clause of a summary. -/
def ClauseSummary.clause (summary : ClauseSummary) : Clause :=
  let name := Name.ofClause summary.category summary.title
  let terms := summary.terms.mapIdx (TermSummary.term name)
  { name
    category := summary.category
    rolePlayer := summary.role
    operation := summary.role
    inputs := (Inputs.empty.insertAll (terms.flatMap Term.inputs)).toList
    terms
    messages := { error := summary.breach } }

/-- The contract of a summary. -/
def Summary.contract (summary : Summary) : Contract where
  name := summary.name
  beginDate := summary.beginDate
  dueDate := summary.dueDate
  application := summary.application
  process := summary.process
  clauses := summary.clauses.map ClauseSummary.clause

/-! ## Rendering loses nothing -/

/-- On a given side an operand gives back what was kept of it. -/
theorem OperandSummary.operand_injective (index side : Nat) (type : String) :
    Function.Injective (operand index side type) := by
  -- a word may be spelled like the name of a quoted operand in one rendering, not in all
  have named (word : String) : operand index side type (name word)
      ≠ operand index side type quoted := by
    intro same
    have names := congrArg Variable.name (Operand.reference.inj same)
    exact Name.ofParts_nil_ne_index (by decide) word index (Name.numbers [side]) names
  intro a b same
  cases a with
  | number text =>
      cases b with
      | number other => exact congrArg number (Operand.literal.inj same)
      | name word => cases same
      | quoted => cases same
  | name word =>
      cases b with
      | number text => cases same
      | name other =>
          have names := congrArg Variable.name (Operand.reference.inj same)
          have snake : Name.underscored word [] = Name.underscored other [] :=
            congrArg Name.snake names
          rw [Name.underscored_nil, Name.underscored_nil] at snake
          exact congrArg name snake
      | quoted => exact absurd same (named word)
  | quoted =>
      cases b with
      | number text => cases same
      | name word => exact absurd same.symm (named word)
      | quoted => rfl

/-- At a given index of a clause a term gives back what was kept of it. -/
theorem TermSummary.term_injective (clause : Name) (index : Nat) :
    Function.Injective (term clause index) := by
  intro a b same
  cases a with
  | timeout duration =>
      cases b with
      | timeout other => exact congrArg timeout (Term.timeout.inj same).2
      | presence => cases same
      | comparison left comparator right => cases same
  | presence =>
      cases b with
      | timeout duration => cases same
      | presence => rfl
      | comparison left comparator right => cases (Term.messageContent.inj same).2.2.1
  | comparison left comparator right =>
      cases b with
      | timeout duration => cases same
      | presence => cases (Term.messageContent.inj same).2.2.1
      | comparison left' comparator' right' =>
          obtain ⟨-, -, comparators, operands⟩ := Term.messageContent.inj same
          -- the comparator decides the type that both operands carry
          obtain rfl : comparator = comparator' := Option.some.inj comparators
          obtain ⟨lefts, rights⟩ := List.cons.inj operands
          obtain rfl := OperandSummary.operand_injective index 1 _ lefts
          obtain rfl := OperandSummary.operand_injective index 2 _ (List.cons.inj rights).1
          rfl

theorem mapIdx_injective {α β : Type} {f : Nat → α → β}
    (h : ∀ index, Function.Injective (f index)) : Function.Injective (List.mapIdx f) := by
  intro items others same
  apply List.ext_getElem?
  intro index
  have entries := congrArg (·[index]?) same
  simp only [List.getElem?_mapIdx] at entries
  exact Option.map_injective (h index) entries

/-- Items that look the same whatever their index can be looked at before they get it. -/
theorem map_mapIdx {α β γ : Type} {f : Nat → α → β} {g : β → γ} {h : α → γ}
    (same : ∀ index item, g (f index item) = h item) (items : List α) :
    (items.mapIdx f).map g = items.map h := by
  apply List.ext_getElem?
  intro index
  simp only [List.getElem?_map, List.getElem?_mapIdx, Option.map_map]
  exact congrArg (Option.map · _) (funext (same index))

theorem ClauseSummary.clause_injective : Function.Injective clause := by
  rintro ⟨category, title, role, breach, terms⟩ ⟨category', title', role', breach', terms'⟩ same
  obtain rfl : category = category' := congrArg Clause.category same
  obtain rfl : role = role' := congrArg Clause.rolePlayer same
  obtain rfl : breach = breach' := congrArg (·.messages.error) same
  -- only this rendering has the declared name as it was written
  have snake : category ++ "_" ++ title = category ++ "_" ++ title' :=
    congrArg (·.name.snake) same
  obtain rfl := (String.append_right_inj _).mp snake
  obtain rfl := mapIdx_injective (TermSummary.term_injective _) (congrArg Clause.terms same)
  rfl

/-- A contract gives back all that was kept of it. -/
theorem Summary.contract_injective : Function.Injective contract := by
  rintro ⟨name, beginDate, dueDate, application, process, clauses⟩
    ⟨name', beginDate', dueDate', application', process', clauses'⟩ same
  obtain rfl : name = name' := congrArg Contract.name same
  obtain rfl : beginDate = beginDate' := congrArg Contract.beginDate same
  obtain rfl : dueDate = dueDate' := congrArg Contract.dueDate same
  obtain rfl : application = application' := congrArg Contract.application same
  obtain rfl : process = process' := congrArg Contract.process same
  obtain rfl := List.map_injective_iff.mpr ClauseSummary.clause_injective
    (congrArg Contract.clauses same)
  rfl

end Covenant
