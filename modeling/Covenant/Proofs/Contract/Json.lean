import Covenant.Compile
import Covenant.Contract.Json
import Covenant.Proofs.Assembly.Contract
import Covenant.Proofs.Assembly.Terms
import Covenant.Proofs.Json.RoundTrip

/-!
# What the canonical text of a contract says

The structured form of a contract leaves out one thing only: the operands of a message condition
that has no comparator. `Contract.trimmed` empties them. Everything else can be read back, since the
fields of each part are told by their keys, also where a part has several forms: an operand is a
literal or a variable, and a term shows a value, variables only, or variables with comparator and
operands. So two contracts have one canonical text exactly if they are the same when trimmed. An
assembled contract has no such operands, and its canonical text says all of it
(`canonicalText_eq_iff`).
-/

set_option autoImplicit false

namespace Covenant

open Json (exists_member_of_ordered_eq map_eq_of_ordered_eq list_eq_of_ordered_eq)

/-! ## Trimmed contracts -/

/-- The term without operands that no comparator compares. -/
def Term.trimmed : Term → Term
  | messageContent name inputs none _ => messageContent name inputs none []
  | term => term

/-- The clause with trimmed terms. -/
def Clause.trimmed (clause : Clause) : Clause :=
  { clause with terms := clause.terms.map Term.trimmed }

/-- The contract with trimmed clauses. -/
def Contract.trimmed (contract : Contract) : Contract :=
  { contract with clauses := contract.clauses.map Clause.trimmed }

theorem Term.toJson_trimmed (term : Term) : term.trimmed.toJson = term.toJson := by
  cases term with
  | timeout name value => rfl
  | messageContent name inputs comparator operands => cases comparator <;> rfl

theorem Clause.toJson_trimmed (clause : Clause) : clause.trimmed.toJson = clause.toJson := by
  have terms : (clause.terms.map Term.trimmed).map Term.toJson = clause.terms.map Term.toJson := by
    rw [List.map_map]
    exact List.map_congr_left fun term _ => term.toJson_trimmed
  rw [toJson, trimmed, terms, toJson]

theorem Contract.toJson_trimmed (contract : Contract) :
    contract.trimmed.toJson = contract.toJson := by
  have clauses : (contract.clauses.map Clause.trimmed).map Clause.toJson
      = contract.clauses.map Clause.toJson := by
    rw [List.map_map]
    exact List.map_congr_left fun clause _ => clause.toJson_trimmed
  rw [toJson, trimmed, clauses, toJson]

/-! ## Parts are told by their structured forms -/

theorem Name.eq_of_ordered_eq {name other : Name}
    (same : name.toJson.ordered = other.toJson.ordered) : name = other := by
  obtain ⟨pascal, camel, snake⟩ :
      other.pascal = name.pascal ∧ other.camel = name.camel ∧ other.snake = name.snake := by
    simpa using exists_member_of_ordered_eq same
  cases name
  cases other
  simp_all

theorem Variable.eq_of_ordered_eq {v other : Variable}
    (same : v.toJson.ordered = other.toJson.ordered) : v = other := by
  obtain ⟨names, types⟩ :
      other.name.toJson.ordered = v.name.toJson.ordered ∧ other.type = v.type := by
    simpa using exists_member_of_ordered_eq same
  cases v
  cases other
  rw [mk.injEq]
  exact ⟨Name.eq_of_ordered_eq names.symm, types.symm⟩

/-- A literal and a variable have no key in common. -/
theorem Operand.eq_of_ordered_eq {operand other : Operand}
    (same : operand.toJson.ordered = other.toJson.ordered) : operand = other := by
  cases operand with
  | literal text =>
      cases other with
      | literal text' =>
          have texts : text' = text := by simpa using exists_member_of_ordered_eq same
          rw [texts]
      | reference v => exact absurd (exists_member_of_ordered_eq same) (by simp)
  | reference v =>
      cases other with
      | literal text => exact absurd (exists_member_of_ordered_eq same) (by simp)
      | reference other => rw [Variable.eq_of_ordered_eq same]

section Terms

variable {name name' : Name} {inputs inputs' : List Variable} {operands operands' : List Operand}

/-- Without a comparator a message condition shows its name and its variables. -/
theorem Term.presence_eq_of_ordered_eq
    (same : (messageContent name inputs none operands).toJson.ordered
      = (messageContent name' inputs' none operands').toJson.ordered) :
    name = name' ∧ inputs = inputs' := by
  obtain ⟨names, vars⟩ : name'.toJson.ordered = name.toJson.ordered ∧
      (Json.arr (inputs'.map Variable.toJson)).ordered
        = (Json.arr (inputs.map Variable.toJson)).ordered := by
    simpa using exists_member_of_ordered_eq same
  exact ⟨(Name.eq_of_ordered_eq names).symm,
    (list_eq_of_ordered_eq (fun _ _ => Variable.eq_of_ordered_eq) vars).symm⟩

/-- With a comparator it shows all of its parts. -/
theorem Term.comparison_eq_of_ordered_eq {sign sign' : String}
    (same : (messageContent name inputs (some sign) operands).toJson.ordered
      = (messageContent name' inputs' (some sign') operands').toJson.ordered) :
    messageContent name inputs (some sign) operands
      = messageContent name' inputs' (some sign') operands' := by
  obtain ⟨names, vars, signs, compared⟩ :
      name'.toJson.ordered = name.toJson.ordered ∧
      (Json.arr (inputs'.map Variable.toJson)).ordered
        = (Json.arr (inputs.map Variable.toJson)).ordered ∧
      sign' = sign ∧
      (Json.arr (operands'.map Operand.toJson)).ordered
        = (Json.arr (operands.map Operand.toJson)).ordered := by
    simpa using exists_member_of_ordered_eq same
  rw [Name.eq_of_ordered_eq names, signs,
    list_eq_of_ordered_eq (fun _ _ => Variable.eq_of_ordered_eq) vars,
    list_eq_of_ordered_eq (fun _ _ => Operand.eq_of_ordered_eq) compared]

end Terms

/-- The terms are told apart by their tags, and those of a message condition by the key of the
comparator. -/
theorem Term.trimmed_eq_of_ordered_eq {term other : Term}
    (same : term.toJson.ordered = other.toJson.ordered) : term.trimmed = other.trimmed := by
  match term, other with
  | timeout name value, timeout name' value' =>
      obtain ⟨names, values⟩ : name'.toJson.ordered = name.toJson.ordered ∧ value' = value := by
        simpa using exists_member_of_ordered_eq same
      rw [Name.eq_of_ordered_eq names, values]
  | messageContent _ _ none _, messageContent _ _ none _ =>
      obtain ⟨rfl, rfl⟩ := presence_eq_of_ordered_eq same
      rfl
  | messageContent _ _ (some _) _, messageContent _ _ (some _) _ =>
      rw [comparison_eq_of_ordered_eq same]
  -- a member of one form is missing from the other
  | timeout _ _, messageContent _ _ none _ =>
      exact absurd (exists_member_of_ordered_eq same) (by simp)
  | timeout _ _, messageContent _ _ (some _) _ =>
      exact absurd (exists_member_of_ordered_eq same) (by simp)
  | messageContent _ _ none _, timeout _ _ =>
      exact absurd (exists_member_of_ordered_eq same) (by simp)
  | messageContent _ _ (some _) _, timeout _ _ =>
      exact absurd (exists_member_of_ordered_eq same) (by simp)
  | messageContent _ _ none _, messageContent _ _ (some _) _ =>
      exact absurd (exists_member_of_ordered_eq same.symm) (by simp)
  | messageContent _ _ (some _) _, messageContent _ _ none _ =>
      exact absurd (exists_member_of_ordered_eq same) (by simp)

theorem Messages.eq_of_ordered_eq {messages other : Messages}
    (same : messages.toJson.ordered = other.toJson.ordered) : messages = other := by
  obtain ⟨errors, successes⟩ :
      other.error = messages.error ∧ other.success = messages.success := by
    simpa using exists_member_of_ordered_eq same
  cases messages
  cases other
  rw [mk.injEq]
  exact ⟨errors.symm, successes.symm⟩

theorem Clause.trimmed_eq_of_ordered_eq {clause other : Clause}
    (same : clause.toJson.ordered = other.toJson.ordered) : clause.trimmed = other.trimmed := by
  obtain ⟨names, categories, roles, operations, vars, terms, messages⟩ :
      other.name.toJson.ordered = clause.name.toJson.ordered ∧
      other.category = clause.category ∧ other.rolePlayer = clause.rolePlayer ∧
      other.operation = clause.operation ∧
      (Json.arr (other.inputs.map Variable.toJson)).ordered
        = (Json.arr (clause.inputs.map Variable.toJson)).ordered ∧
      (Json.arr (other.terms.map Term.toJson)).ordered
        = (Json.arr (clause.terms.map Term.toJson)).ordered ∧
      other.messages.toJson.ordered = clause.messages.toJson.ordered := by
    simpa using exists_member_of_ordered_eq same
  rw [trimmed, trimmed, Name.eq_of_ordered_eq names, categories, roles, operations,
    list_eq_of_ordered_eq (fun _ _ => Variable.eq_of_ordered_eq) vars,
    map_eq_of_ordered_eq Term.trimmed (fun _ _ => Term.trimmed_eq_of_ordered_eq) terms,
    Messages.eq_of_ordered_eq messages]

theorem Contract.trimmed_eq_of_ordered_eq {contract other : Contract}
    (same : contract.toJson.ordered = other.toJson.ordered) :
    contract.trimmed = other.trimmed := by
  obtain ⟨names, beginDates, dueDates, applications, processes, vars, clauses⟩ :
      other.name = contract.name ∧ other.beginDate = contract.beginDate ∧
      other.dueDate = contract.dueDate ∧ other.application = contract.application ∧
      other.process = contract.process ∧
      (Json.arr (other.inputs.map Variable.toJson)).ordered
        = (Json.arr (contract.inputs.map Variable.toJson)).ordered ∧
      (Json.arr (other.clauses.map Clause.toJson)).ordered
        = (Json.arr (contract.clauses.map Clause.toJson)).ordered := by
    simpa using exists_member_of_ordered_eq same
  rw [trimmed, trimmed, names, beginDates, dueDates, applications, processes,
    list_eq_of_ordered_eq (fun _ _ => Variable.eq_of_ordered_eq) vars,
    map_eq_of_ordered_eq Clause.trimmed (fun _ _ => Clause.trimmed_eq_of_ordered_eq) clauses]

/-! ## Every contract has a canonical text -/

theorem Name.isFinite_toJson (name : Name) : name.toJson.isFinite = true := by
  simp [toJson]

theorem Variable.isFinite_toJson (v : Variable) : v.toJson.isFinite = true := by
  simp [toJson, Name.isFinite_toJson]

theorem Operand.isFinite_toJson (operand : Operand) : operand.toJson.isFinite = true := by
  cases operand with
  | literal text => simp [toJson]
  | reference v => exact v.isFinite_toJson

theorem Term.isFinite_toJson (term : Term) : term.toJson.isFinite = true := by
  cases term with
  | timeout name value => simp [toJson, Name.isFinite_toJson]
  | messageContent name inputs comparator operands =>
      have vars := Json.itemsFinite_map Variable.isFinite_toJson inputs
      have compared := Json.itemsFinite_map Operand.isFinite_toJson operands
      cases comparator <;> simp [toJson, Name.isFinite_toJson, vars, compared]

theorem Clause.isFinite_toJson (clause : Clause) : clause.toJson.isFinite = true := by
  have vars := Json.itemsFinite_map Variable.isFinite_toJson clause.inputs
  have terms := Json.itemsFinite_map Term.isFinite_toJson clause.terms
  simp [toJson, Name.isFinite_toJson, Messages.toJson, vars, terms]

theorem Contract.isFinite_toJson (contract : Contract) : contract.toJson.isFinite = true := by
  have vars := Json.itemsFinite_map Variable.isFinite_toJson contract.inputs
  have clauses := Json.itemsFinite_map Clause.isFinite_toJson contract.clauses
  simp [toJson, vars, clauses]

/-- Contracts have one canonical text exactly if they are the same when trimmed. -/
theorem Contract.canonicalText_eq_iff_trimmed_eq (contract other : Contract) :
    contract.canonicalText = other.canonicalText ↔ contract.trimmed = other.trimmed := by
  constructor
  · intro same
    apply trimmed_eq_of_ordered_eq
    exact Json.ordered_eq_of_write_eq contract.isFinite_toJson other.isFinite_toJson
      (String.ofList_inj.mp same)
  · intro same
    rw [canonicalText, canonicalText, ← contract.toJson_trimmed, same, other.toJson_trimmed]

/-! ## Assembled contracts -/

/-- A term that stands for a node has operands only with a comparator. -/
theorem TermFor.trimmed_eq {name : Name} {index : Nat} {node : Tree} {term : Term}
    (h : TermFor name index node term) : term.trimmed = term := by
  cases h with
  | timeout _ _ => rfl
  | @messageContent condition _ _ => cases condition <;> rfl

theorem Declares.exists_termFor {tree : Tree} {clause : Clause} (declared : Declares tree clause)
    {term : Term} (member : term ∈ clause.terms) :
    ∃ k node, TermFor clause.name k node term := by
  obtain ⟨k, inside, rfl⟩ := List.getElem_of_mem member
  obtain ⟨term, found, stands⟩ := declared.term k _
    (List.getElem?_eq_getElem (declared.count ▸ inside))
  rw [List.getElem?_eq_getElem inside, Option.some.injEq] at found
  rw [found]
  exact ⟨k, _, stands⟩

theorem Clause.trimmed_of_ofTree {tree : Tree} {clause : Clause}
    (h : Clause.ofTree tree = .ok clause) : clause.trimmed = clause := by
  have each : ∀ term ∈ clause.terms, term.trimmed = id term := by
    intro term member
    obtain ⟨_, _, stands⟩ := (Declares.of_ofTree h).exists_termFor member
    exact stands.trimmed_eq
  rw [trimmed, List.map_congr_left each, List.map_id]

/-- Trimming takes nothing from an assembled contract. -/
theorem Contract.trimmed_of_ofTree {tree : Tree} {contract : Contract}
    (h : Contract.ofTree tree = .ok contract) : contract.trimmed = contract := by
  obtain ⟨clauses, assembled, rfl⟩ := exists_clauses_of_ofTree h
  have each : ∀ clause ∈ clauses, clause.trimmed = id clause := by
    intro clause member
    obtain ⟨node, -, made⟩ := exists_of_mem_mapM assembled member
    exact Clause.trimmed_of_ofTree made
  rw [trimmed, withClauses, List.map_congr_left each, List.map_id]

/-- The bytes from which the digest of a contract is computed. -/
def Contract.digestInput (contract : Contract) : ByteArray :=
  contract.canonicalText.toUTF8

/-- Two contracts have one canonical text exactly if they are the same up to operands without a
comparator. Two assembled contracts have one canonical text exactly if they are the same, and their
digests are computed from different bytes exactly if they differ. -/
theorem Contract.canonicalText_eq_iff :
    (∀ contract other : Contract,
      contract.canonicalText = other.canonicalText ↔ contract.trimmed = other.trimmed) ∧
    ∀ (tree tree' : Tree) (contract other : Contract),
      Contract.ofTree tree = .ok contract → Contract.ofTree tree' = .ok other →
        (contract.canonicalText = other.canonicalText ↔ contract = other) ∧
        contract.digest = (Sha256.hash contract.digestInput.toList).hex ∧
        (contract.digestInput ≠ other.digestInput ↔ contract ≠ other) := by
  refine ⟨canonicalText_eq_iff_trimmed_eq, ?_⟩
  intro tree tree' contract other made made'
  -- assembled contracts are trimmed already
  have texts : contract.canonicalText = other.canonicalText ↔ contract = other := by
    rw [canonicalText_eq_iff_trimmed_eq, trimmed_of_ofTree made, trimmed_of_ofTree made']
  refine ⟨texts, rfl, ?_⟩
  rw [Ne, Ne, digestInput, digestInput]
  exact not_congr (String.toByteArray_inj.trans texts)

/-- A contract with a presence check that has operands all the same. -/
def idleContract (operands : List Operand) : Contract where
  name := "c"
  beginDate := ""
  dueDate := ""
  application := ""
  process := ""
  clauses :=
    [{ name := Name.ofClause "right" "r"
       category := "right"
       rolePlayer := "process"
       operation := "process"
       inputs := []
       terms := [.messageContent (Name.ofParts "m" []) [] none operands]
       messages := {} }]

/-- A contract without blocks. -/
def bareContract (title : String) : Tree :=
  .inner .contract [.leaf .token "contract", .leaf .identifier title]

/-- Operands of a presence check are not in the text; the names of two assembled contracts are,
and an escaped character is told from its escape. -/
theorem Contract.canonicalText_eq_iff_idle :
    (idleContract [.literal "1"]).canonicalText = (idleContract []).canonicalText ∧
      ∃ contract other, Contract.ofTree (bareContract "\u2028") = .ok contract ∧
        Contract.ofTree (bareContract "\\u2028") = .ok other ∧
          contract.digestInput ≠ other.digestInput := by
  obtain ⟨texts, assembled⟩ := Contract.canonicalText_eq_iff
  have made : Contract.ofTree (bareContract "\u2028") = .ok _ := rfl
  have made' : Contract.ofTree (bareContract "\\u2028") = .ok _ := rfl
  refine ⟨(texts _ _).mpr rfl, _, _, made, made', ?_⟩
  rw [(assembled _ _ _ _ made made').2.2]
  intro same
  exact absurd (congrArg Contract.name same) (by decide)

end Covenant
