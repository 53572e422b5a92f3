import Covenant.Proofs.Assembly.Contract
import Covenant.Proofs.Assembly.Sites
import Covenant.Proofs.Assembly.Terms

/-!
# The canonical form

Generators take for granted that a contract has a certain form, and `Contract.IsCanonical` is that
form. A timeout waits for a number. A message condition either has one boolean variable, named after
its index, and nothing else; or it has a comparator and two operands, and its variables are those of
the operands, all of the type that the comparator asks for.

The types within a term agree, but terms of one clause may use a name with different types. A clause
has one variable for the name. The last term that mentions it decides (`Variable.TypedByLast`),
since a variable that is stored replaces the one of its name (`Inputs.mem_insertAll_iff`).

Main statement: whatever tree a contract was assembled from, the contract has the canonical form
(`Contract.isCanonical_of_ofTree`).
-/

set_option autoImplicit false

namespace Covenant

/-! ## The form -/

/-- The operand is a numeral, or a variable of the given type. -/
inductive Operand.IsCanonical (type : String) : Operand → Prop
  | literal {text : String} (numeral : Lexeme.IsNumeral text.toList) :
      IsCanonical type (.literal text)
  | reference (name : Name) : IsCanonical type (.reference ⟨name, type⟩)

/-- The form of the term at an index of a clause. -/
inductive Term.IsCanonical (index : Nat) : Term → Prop
  | timeout (name : Name) {value : String} (numeral : Lexeme.IsNumeral value.toList) :
      IsCanonical index (.timeout name value)
  | presence (name : Name) :
      IsCanonical index (.messageContent name
        [⟨Name.ofParts "messageContent" [.index index], "boolean"⟩] none [])
  | comparison (name : Name) {comparator type : String} {left right : Operand}
      (decided : type = if comparator = "==" ∨ comparator = "!=" then "TEXT" else "NUMBER")
      (isLeft : left.IsCanonical type) (isRight : right.IsCanonical type) :
      IsCanonical index (.messageContent name ([left, right].filterMap Operand.reference?)
        (some comparator) [left, right])

/-- The term has a variable of the camel-case name. -/
def Term.Mentions (term : Term) (camel : String) : Prop :=
  ∃ v ∈ term.inputs, v.key = camel

/-- The last of the terms that mention the name of a variable has the variable, and gives no other
type to the name. -/
def Variable.TypedByLast (terms : List Term) (v : Variable) : Prop :=
  ∃ front term back, terms = front ++ term :: back ∧ v ∈ term.inputs ∧
    (∀ w ∈ term.inputs, w.key = v.key → w.type = v.type) ∧
      ∀ later ∈ back, ¬ later.Mentions v.key

/-- The form of a clause. -/
structure Clause.IsCanonical (clause : Clause) : Prop where
  success : clause.messages.success = ""
  operation : clause.rolePlayer = clause.operation
  terms : ∀ (index : Nat) (term : Term),
    clause.terms[index]? = some term → term.IsCanonical index
  mentioned : ∀ camel,
    camel ∈ clause.inputs.map Variable.key ↔ ∃ term ∈ clause.terms, term.Mentions camel
  typed : ∀ v ∈ clause.inputs, v.TypedByLast clause.terms

/-- The form of a contract. -/
structure Contract.IsCanonical (contract : Contract) : Prop where
  inputs : contract.inputs = []
  clauses : ∀ clause ∈ contract.clauses, clause.IsCanonical

/-! ## Terms -/

theorem Operand.isCanonical_ofText (text : String) (index side : Int) (type : String) :
    (ofText text index side type).IsCanonical type := by
  unfold ofText
  by_cases numeric : Lexeme.isNumber text = true
  · rw [if_pos numeric]
    exact .literal (Lexeme.isNumeral_of_isNumber numeric)
  · rw [if_neg numeric]
    split
    · exact .reference _
    · exact .reference _

/-- The variable of a canonical operand has the type asked for. -/
theorem Operand.IsCanonical.type_eq {operand : Operand} {type : String}
    (h : operand.IsCanonical type) {v : Variable} (found : operand.reference? = some v) :
    v.type = type := by
  cases h with
  | literal numeral => cases found
  | reference name =>
      cases found
      rfl

theorem comparedType_eq (comparator : String) :
    comparedType comparator
      = if comparator = "==" ∨ comparator = "!=" then "TEXT" else "NUMBER" := by
  simp only [comparedType, Vocabulary.equalities, List.mem_pair]
  rfl

/-- A condition that can be read gives a canonical term. -/
theorem Condition.isCanonical_term {node : Tree} {index : Nat} {condition : Condition}
    (h : ofTree node index = .ok condition) (name : Name) :
    (Term.messageContent name condition.inputs condition.comparator?
      condition.operands).IsCanonical index := by
  cases tests : node.testsPresence with
  | error fault =>
      rw [ofTree, tests] at h
      cases h
  | ok present =>
      cases present with
      | true =>
          rw [ofTree_of_presence tests] at h
          cases h
          exact .presence name
      | false =>
          obtain ⟨sign, left, right, -, rfl⟩ := exists_comparison tests h
          exact .comparison name (comparedType_eq sign) (Operand.isCanonical_ofText ..)
            (Operand.isCanonical_ofText ..)

/-- What an operation adds is canonical at the index at which it is added. -/
theorem Assembly.isCanonical_of_termOf {name : Name} {index : Nat} {item : Operation × Tree}
    {term : Term} (h : termOf name index item = .ok (some term)) : term.IsCanonical index := by
  obtain ⟨sort, node⟩ := item
  cases sort with
  | timeout =>
      rw [termOf] at h
      obtain ⟨operand, -, made⟩ := bind_eq_ok_iff.mp h
      by_cases numeric : Lexeme.isNumber operand.text = true
      · rw [if_pos numeric] at made
        cases made
        exact .timeout _ (Lexeme.isNumeral_of_isNumber numeric)
      · rw [if_neg numeric] at made
        cases made
  | messageContent =>
      rw [termOf] at h
      obtain ⟨condition, read, made⟩ := bind_eq_ok_iff.mp h
      cases made
      exact Condition.isCanonical_term read _

/-- The variables of a canonical term are all of one type. -/
theorem Term.IsCanonical.type_eq {index : Nat} {term : Term} (h : term.IsCanonical index)
    {v w : Variable} (first : v ∈ term.inputs) (second : w ∈ term.inputs) : w.type = v.type := by
  cases h with
  | timeout name numeral => cases first
  | presence name => rw [List.mem_singleton.mp first, List.mem_singleton.mp second]
  | @comparison name comparator type left right decided isLeft isRight =>
      have asked : ∀ u ∈ [left, right].filterMap Operand.reference?, u.type = type := by
        intro u member
        obtain ⟨operand, listed, found⟩ := List.mem_filterMap.mp member
        rcases List.mem_pair.mp listed with rfl | rfl
        · exact isLeft.type_eq found
        · exact isRight.type_eq found
      rw [asked v first, asked w second]

/-! ## Clauses -/

theorem Term.mem_keys_iff {terms : List Term} {camel : String} :
    camel ∈ (terms.flatMap Term.inputs).map Variable.key ↔ ∃ term ∈ terms, term.Mentions camel := by
  simp only [List.map_flatMap, List.mem_flatMap, List.mem_map, Mentions]

/-- The last variable of a name among those of all terms stands in the last term that mentions the
name. -/
theorem Variable.IsLast.exists_term {terms : List Term} {v : Variable}
    (h : IsLast (terms.flatMap Term.inputs) v) :
    ∃ front term back, terms = front ++ term :: back ∧ v ∈ term.inputs ∧
      ∀ later ∈ back, ¬ later.Mentions v.key := by
  induction terms with
  | nil => exact absurd h not_isLast_nil
  | cons first rest ih =>
      rw [List.flatMap_cons, isLast_append] at h
      rcases h with later | ⟨own, none⟩
      · obtain ⟨front, term, back, rfl, member, others⟩ := ih later
        exact ⟨first :: front, term, back, rfl, member, others⟩
      · refine ⟨[], first, rest, rfl, own.mem, ?_⟩
        rintro term listed ⟨w, member, same⟩
        exact none w (List.mem_flatMap.mpr ⟨term, listed, member⟩) same

/-- A clause that is assembled has the canonical form. -/
theorem Clause.isCanonical {tree : Tree} {clause : Clause}
    (h : Clause.ofTree tree = .ok clause) : clause.IsCanonical := by
  obtain ⟨head, terms, -, assembled, rfl⟩ := Assembly.assembled_of_ofTree h
  have canonical : ∀ (index : Nat) (term : Term),
      terms[index]? = some term → term.IsCanonical index := by
    intro index term found
    obtain ⟨item, -, made⟩ := assembled.exists_item found
    rw [Nat.zero_add] at made
    exact Assembly.isCanonical_of_termOf made
  refine ⟨rfl, rfl, canonical, ?_, ?_⟩
  · intro camel
    rw [Assembly.clauseWith, Inputs.mem_keys_insertAll, Term.mem_keys_iff]
    simp [Inputs.empty]
  · intro v stored
    obtain ⟨front, term, back, rfl, member, others⟩ :=
      (Inputs.mem_insertAll_empty.mp stored).exists_term
    refine ⟨front, term, back, rfl, member, ?_, others⟩
    -- a term may mention a name twice, but then with the same type
    intro w listed _
    have found : (front ++ term :: back)[front.length]? = some term := by simp
    exact (canonical _ _ found).type_eq member listed

/-! ## Contracts -/

/-- A contract that is assembled has the canonical form. -/
theorem Contract.isCanonical_of_ofTree {tree : Tree} {contract : Contract}
    (h : Contract.ofTree tree = .ok contract) : contract.IsCanonical := by
  obtain ⟨clauses, made, rfl⟩ := Contract.exists_clauses_of_ofTree h
  refine ⟨rfl, ?_⟩
  intro clause listed
  obtain ⟨node, -, found⟩ := exists_of_mem_mapM made listed
  exact Clause.isCanonical found

/-- A contract with one clause, which compares `a` as text with `b` first and `A` as a number after
that, and then has a timeout and a presence check. -/
def retypedContract : Tree :=
  let word := Tree.leaf .token
  let entry := fun operation => Tree.inner .termOrWhen [word "and", .inner .term [operation]]
  let message := fun operands =>
    entry (.inner .messageContent ([word "MessageContent", word "("] ++ operands ++ [word ")"]))
  .inner .contract
    [.leaf .identifier "c",
      .inner .clauses [framedClause
        [.inner .terms
          [message [.leaf .identifier "a", .leaf .comparator "==", .leaf .identifier "b"],
            message [.leaf .identifier "A", .leaf .comparator "<", .leaf .number "1"],
            entry (.inner .timeout [word "Timeout", word "(", .leaf .number "2", word ")"]),
            message []]]]]

/-- The clause has one variable for `a` and `A`, in the place of the first and with the type of the
second. -/
theorem Contract.isCanonical_of_ofTree_retyped :
    ∃ contract, Contract.ofTree retypedContract = .ok contract ∧ contract.IsCanonical ∧
      (contract.clauses.flatMap fun clause => clause.inputs.map fun v => (v.key, v.type))
        = [("a", "NUMBER"), ("b", "TEXT"), ("messageContent3", "boolean")] := by
  have made : Contract.ofTree retypedContract = .ok _ := rfl
  exact ⟨_, made, Contract.isCanonical_of_ofTree made, rfl⟩

end Covenant
