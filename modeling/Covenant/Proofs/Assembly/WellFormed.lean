import Covenant.Proofs.Condition
import Covenant.Proofs.Summary

/-!
# Assembly of well-formed trees

The assembly of a contract takes parts of nodes by their position and reports where one is
missing. The productions put the parts where the assembly looks for them. So each reader succeeds
on a well-formed node, and what it gives is what the summary has for this node: headers
(`header_eq`), message conditions (`exists_condition`), terms (`terms_eq`), clauses
(`ofTree_clause`). Main statement: a well-formed contract is assembled, and the result is the
contract of its summary (`ofTree_contract`).
-/

set_option autoImplicit false

namespace Covenant.Tree

variable {tree node : Tree}

/-! ## Nodes below a well-formed node -/

/-- The children of an inner node are those of the production of its kind. -/
theorem WellFormed.production {kind : Kind} (h : tree.WellFormed) (isKind : tree.kind = kind)
    (inner : (Grammar.production kind).isSome = true) : Production kind tree.children := by
  subst isKind
  exact (wellFormed_iff.mp h).1.production inner

theorem WellFormed.of_mem_children (h : tree.WellFormed) {child : Tree}
    (member : child ∈ tree.children) : child.WellFormed :=
  (wellFormed_iff.mp h).2 child member

theorem WellFormed.of_mem_reach (h : tree.WellFormed) {levels : List (List Kind)}
    (member : node ∈ tree.reach levels) : node.WellFormed := by
  induction levels generalizing tree with
  | nil =>
      rw [reach_nil, List.mem_singleton] at member
      rwa [member]
  | cons kinds levels ih =>
      obtain ⟨child, picked, member⟩ := List.mem_flatMap.mp member
      exact ih (h.of_mem_children (List.mem_filter.mp picked).1) member

/-! ## Headers -/

/-- The role player statement of a clause gives its role. -/
theorem WellFormed.statedRole_eq (h : tree.WellFormed) (kind : tree.kind = .rolePlayer) :
    tree.statedRole = .ok (tree.textAt 2) := by
  obtain ⟨role, -, children⟩ := h.production kind rfl
  simp [statedRole, expect, nth, textAt, kind, children]

/-- A clause opens with its category, its name and its role. -/
theorem WellFormed.header_eq (h : tree.WellFormed) (kind : tree.kind = .clause) :
    Assembly.header tree = .ok
      { category := tree.textAt 0
        name := Name.ofClause (tree.textAt 0) (tree.textAt 1)
        role := tree.roleText } := by
  obtain ⟨category, title, role, operation, terms, breach, madeCategory, madeTitle, roleKind,
    operationKind, termsKind, breachKind, children⟩ := h.production kind rfl
  have categoryKind : category.kind = .clauseType := madeCategory.kind_eq rfl
  have titleKind : title.kind = .identifier := madeTitle.kind_eq rfl
  have roleFormed : role.WellFormed := h.of_mem_children (by simp [children])
  -- name and role are looked up by kind; no earlier child is of these kinds
  have categoryRead : tree.clauseCategory = .ok (tree.textAt 0) := by
    simp [clauseCategory, expect, nth, textAt, kind, children]
  have titleRead : tree.clauseTitle = .ok (tree.textAt 1) := by
    simp [clauseTitle, expect, firstOf?, textAt, kind, children, categoryKind, titleKind]
  have roleRead : tree.roleStatement = .ok role := by
    simp [roleStatement, expect, firstOf?, kind, children, categoryKind, titleKind, roleKind,
      token]
  have single : tree.pick [.rolePlayer] = [role] := by
    have noOperation : operation.toList.filter (fun node => [.rolePlayer].contains node.kind)
        = [] := by
      cases operation <;> simp_all
    have noBreach : breach.toList.filter (fun node => [.rolePlayer].contains node.kind) = [] := by
      cases breach <;> simp_all
    simp only [pick, children, List.filter_append, noOperation, noBreach]
    simp [categoryKind, titleKind, roleKind, termsKind, token]
  rw [Assembly.header, categoryRead, titleRead, roleRead]
  simp only [ok_bind, roleFormed.statedRole_eq roleKind, roleText, single, lastOf_singleton]
  rfl

/-- A clause is of one of the categories, and the name it declares is an identifier. -/
theorem WellFormed.clause_words (h : tree.WellFormed) (kind : tree.kind = .clause) :
    tree.textAt 0 ∈ Vocabulary.categories ∧ Lexeme.IsFreeIdentifier (tree.textAt 1).toList := by
  obtain ⟨category, title, _, _, _, _, madeCategory, madeTitle, -, -, -, -, children⟩ :=
    h.production kind rfl
  have listed : String.ofList category.text.toList ∈ Vocabulary.categories :=
    madeCategory.accepts
  have named : Lexeme.IsFreeIdentifier title.text.toList := madeTitle.accepts
  rw [String.ofList_toList] at listed
  rw [textAt, textAt, children]
  exact ⟨listed, named⟩

/-- A date statement holds one date. -/
theorem WellFormed.exists_dateNodes (h : tree.WellFormed)
    (kind : tree.kind = .beginDate ∨ tree.kind = .dueDate) :
    ∃ moment, tree.dateNodes = [moment] ∧ moment.text = tree.textAt 2 := by
  have stated : ∃ word moment, Shape.IsMoment moment ∧
      tree.children = [token word, token "=", moment] := by
    rcases kind with kind | kind
    · exact ⟨_, h.production kind rfl⟩
    · exact ⟨_, h.production kind rfl⟩
  obtain ⟨word, moment, isMoment, children⟩ := stated
  refine ⟨moment, ?_, by simp [textAt, children]⟩
  rw [dateNodes, within, beneath_eq_flatMap, children]
  rcases isMoment with made | made
  · obtain ⟨leafKind, text, found, rfl⟩ := made.exists_leaf
    cases found
    rfl
  · obtain ⟨leafKind, text, found, rfl⟩ := made.exists_leaf
    cases found
    rfl

theorem WellFormed.identifierText_eq (h : tree.WellFormed) (kind : tree.kind = .contract) :
    tree.identifierText = tree.textAt 1 := by
  obtain ⟨name, blocks, made, -, children⟩ := h.production kind rfl
  have nameKind : name.kind = .identifier := made.kind_eq rfl
  simp [identifierText, firstOf?, textAt, children, nameKind, token]

/-! ## Operations -/

/-- The leaf of an operand tells what the operand stands for. -/
theorem ofText_eq_operand (h : Shape.IsValue tree) (index side : Nat) (type : String) :
    Operand.ofText tree.text index side type = tree.operandSummary.operand index side type := by
  rcases h with made | made | made
  · have kind : tree.kind = .number := made.kind_eq rfl
    rw [Operand.ofText_of_number made, operandSummary, kind, OperandSummary.operand]
  · have kind : tree.kind = .string := made.kind_eq rfl
    rw [Operand.ofText_of_string made, operandSummary, kind]
    rfl
  · have kind : tree.kind = .identifier := made.kind_eq rfl
    rw [Operand.ofText_of_identifier made, operandSummary, kind, OperandSummary.operand]

/-- A comparison is read from its sides and its comparator. -/
theorem condition_of_comparison {word opening left sign right closing : Tree}
    (kind : tree.kind = .messageContent)
    (children : tree.children = [word, opening, left, sign, right, closing]) (index : Int) :
    Condition.ofTree tree index = .ok (.comparison
      (.ofText left.text index 1 (comparedType sign.text)) sign.text
      (.ofText right.text index 2 (comparedType sign.text))) := by
  have tests : tree.testsPresence = .ok false := by
    simp [testsPresence, expect, kind, children]
  have signRead : tree.comparatorText = .ok sign.text := by
    simp [comparatorText, expect, nth, kind, children]
  have leftRead : tree.sideAt 1 = .ok left := by
    simp [sideAt, expect, nth, kind, children]
  have rightRead : tree.sideAt 2 = .ok right := by
    simp [sideAt, expect, nth, kind, children]
  rw [Condition.ofTree, tests, signRead, leftRead, rightRead]
  rfl

/-- A message condition is a presence check or a comparison. -/
theorem WellFormed.exists_condition (h : tree.WellFormed) (kind : tree.kind = .messageContent)
    (name : Name) (index : Nat) :
    ∃ condition, Condition.ofTree tree index = .ok condition ∧
      tree.termSummary.term name index = condition.term name index := by
  have presence (tests : tree.testsPresence = .ok true) (said : tree.termSummary = .presence) :
      ∃ condition, Condition.ofTree tree index = .ok condition ∧
        tree.termSummary.term name index = condition.term name index := by
    refine ⟨_, Condition.ofTree_of_presence tests index, ?_⟩
    rw [said]
    rfl
  rcases h.production kind rfl with children | ⟨value, -, children⟩ |
    ⟨left, sign, right, isLeft, -, isRight, children⟩
  · exact presence (by simp [testsPresence, expect, kind, children])
      (by rw [termSummary, kind, children])
  · exact presence (by simp [testsPresence, expect, kind, children])
      (by rw [termSummary, kind, children])
  · refine ⟨_, condition_of_comparison kind children index, ?_⟩
    rw [termSummary, kind, children]
    simp only [TermSummary.term, ← ofText_eq_operand isLeft, ← ofText_eq_operand isRight]
    rfl

/-- A timeout becomes a term exactly if its operand is no name. -/
theorem WellFormed.becomesTerm_eq (h : tree.WellFormed)
    (kind : tree.kind = .timeout ∨ tree.kind = .messageContent) :
    tree.becomesTerm = !tree.namesDuration := by
  rcases kind with kind | kind
  · obtain ⟨operand, isDuration, children⟩ := h.production kind rfl
    rcases isDuration with made | made
    · have operandKind : operand.kind = .number := made.kind_eq rfl
      simp [becomesTerm, namesDuration, kind, children, textAt, operandKind,
        Lexeme.isNumber_of_isNumeral made.accepts]
    · have operandKind : operand.kind = .identifier := made.kind_eq rfl
      obtain ⟨identifier, -⟩ : Lexeme.IsFreeIdentifier operand.text.toList := made.accepts
      simp [becomesTerm, namesDuration, kind, children, textAt, operandKind,
        Lexeme.not_isNumber_of_isIdentifier identifier]
  · rw [becomesTerm, namesDuration, kind]
    rfl

/-- A timeout has its operand. -/
theorem WellFormed.exists_duration (h : tree.WellFormed) (kind : tree.kind = .timeout) :
    ∃ operand, tree.duration = .ok operand ∧ operand.text = tree.textAt 2 := by
  obtain ⟨operand, -, children⟩ := h.production kind rfl
  exact ⟨operand, by simp [duration, expect, nth, kind, children], by simp [textAt, children]⟩

/-- Every operation below a well-formed clause can be read, at whatever index. -/
theorem WellFormed.exists_termOf (h : tree.WellFormed) {item : Assembly.Operation × Tree}
    (member : item ∈ Assembly.operations tree) (name : Name) (index : Nat) :
    ∃ term, Assembly.termOf name index item = .ok term := by
  obtain ⟨block, inTree, termOrWhen, inBlock, term, inTermOrWhen, inTerm, kind⟩ :=
    Assembly.mem_operations member
  have formed : item.2.WellFormed :=
    (((h.of_mem_children inTree).of_mem_children inBlock).of_mem_children
      inTermOrWhen).of_mem_children inTerm
  obtain ⟨sort, node⟩ := item
  cases sort with
  | timeout =>
      obtain ⟨operand, found, -⟩ := formed.exists_duration kind
      exact ⟨_, by rw [Assembly.termOf, found]; rfl⟩
  | messageContent =>
      obtain ⟨condition, found, -⟩ := formed.exists_condition kind name index
      exact ⟨_, by rw [Assembly.termOf, found]; rfl⟩

/-- The term of an operation is that of its summary. -/
theorem WellFormed.termFor_eq (h : tree.WellFormed) {name : Name} {index : Nat} {term : Term}
    (stands : TermFor name index tree term) : term = tree.termSummary.term name index := by
  cases stands with
  | timeout kind read =>
      obtain ⟨operand, found, same⟩ := h.exists_duration kind
      rw [read] at found
      cases found
      rw [termSummary, kind, same]
      rfl
  | messageContent kind read =>
      obtain ⟨condition, found, same⟩ := h.exists_condition kind name index
      rw [read] at found
      cases found
      rw [same]
      rfl

/-! ## Clauses -/

theorem WellFormed.termNodes_eq (h : tree.WellFormed) :
    tree.termNodes = tree.operationNodes.filter fun node => !node.namesDuration := by
  apply List.filter_congr
  intro node member
  have kind := kind_of_mem_reach [[.terms], [.termOrWhen], [.term]] _ member
  exact (h.of_mem_reach member).becomesTerm_eq (by simpa using kind)

/-- The terms of a clause are those of its summary. -/
theorem WellFormed.terms_eq (h : tree.WellFormed) {clause : Clause}
    (declared : Declares tree clause) :
    clause.terms = tree.clauseSummary.terms.mapIdx (TermSummary.term clause.name) := by
  -- position by position; there are as many terms as nodes that become terms
  apply List.ext_getElem?
  intro index
  rw [List.getElem?_mapIdx, clauseSummary, ← h.termNodes_eq, List.getElem?_map]
  cases listed : tree.termNodes[index]? with
  | none =>
      rw [List.getElem?_eq_none_iff, ← declared.count] at listed
      rw [List.getElem?_eq_none_iff.mpr listed]
      rfl
  | some node =>
      obtain ⟨term, found, stands⟩ := declared.term index node listed
      have member := List.mem_of_mem_filter (List.mem_of_getElem? listed)
      rw [found, (h.of_mem_reach member).termFor_eq stands]
      rfl

/-- A well-formed clause is assembled as its summary says. -/
theorem WellFormed.ofTree_clause (h : tree.WellFormed) (kind : tree.kind = .clause) :
    Clause.ofTree tree = .ok tree.clauseSummary.clause := by
  have opened := h.header_eq kind
  obtain ⟨clause, made⟩ := Assembly.exists_ofTree_eq_ok opened fun item member index =>
    h.exists_termOf member _ index
  -- some clause is assembled; what its tree declares says which one
  have declared := Declares.of_ofTree made
  have terms := h.terms_eq declared
  have messages := declared.messages
  obtain ⟨head, assembled, opened', -, rfl⟩ := Assembly.assembled_of_ofTree made
  rw [opened] at opened'
  cases opened'
  simp only [Assembly.clauseWith] at terms messages
  rw [made, Assembly.clauseWith, messages, terms]
  rfl

/-! ## Contracts -/

/-- A well-formed contract is assembled as its summary says. -/
theorem WellFormed.ofTree_contract (h : tree.WellFormed) (kind : tree.kind = .contract) :
    Contract.ofTree tree = .ok tree.summary.contract := by
  have clauses : tree.clauseNodes.mapM Clause.ofTree
      = .ok (tree.clauseNodes.map fun node => node.clauseSummary.clause) := by
    apply mapM_eq_ok_map
    intro node member
    have clauseKind := kind_of_mem_reach [[.clauses]] _ member
    exact (h.of_mem_reach member).ofTree_clause (by simpa using clauseKind)
  have dates (stated : Kind) (isDate : stated = .beginDate ∨ stated = .dueDate) :
      ∀ node ∈ tree.reach [[.dates], [stated]],
        ∃ moment, node.dateNodes = [moment] ∧ moment.text = node.textAt 2 := by
    intro node member
    have dateKind := kind_of_mem_reach [[.dates]] _ member
    obtain rfl : node.kind = stated := by simpa using dateKind
    exact (h.of_mem_reach member).exists_dateNodes isDate
  rw [Contract.ofTree_eq kind, clauses]
  simp only [Except.map, Contract.withClauses, h.identifierText_eq kind,
    lastOf_flatMap (dates .beginDate (Or.inl rfl)), lastOf_flatMap (dates .dueDate (Or.inr rfl)),
    Summary.contract, summary, List.map_map]
  rfl

end Covenant.Tree
