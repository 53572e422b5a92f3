import Covenant.Proofs.Assembly.Blocks
import Covenant.Proofs.Leaves
import Mathlib.Data.List.Perm.Basic

/-!
# Nothing is left out

The assembly comes to clauses and operations by one way down, and takes children of fixed kinds
only. In a document that is read this misses nothing: its clauses are all nodes of that kind, at
whatever depth (`WellFormed.within_clause`), and the operations of a clause are all timeouts and
message conditions below it (`WellFormed.within_operations`). Which of them become terms is seen
from the kinds of their leaves (`Tree.givesTerm`).

The other operations of a document stand in its blocks of variables (`WellFormed.perm_operations`),
and what these hold does not matter. Main statement: the clauses of the compiled contract belong to
the clause nodes one to one and in order, and so do their terms to the operations below each
(`Document.covers_of_parse`).
-/

set_option autoImplicit false

namespace Covenant

/-! ## Kinds without clauses or operations below them -/

namespace Grammar

/-- The kinds of nodes that are no clauses and have none below them. -/
def clauseless : List Kind :=
  Kind.all.filter fun kind => kind ∉ [Kind.contract, .clauses, .clause]

/-- The kinds of nodes that are no operations and have none below them. -/
def operationless : List Kind :=
  Kind.ofLevel .leaf ++ [.dates, .beginDate, .dueDate, .parties, .application, .process,
    .clauseType, .rolePlayer, .operation, .onBreach]

theorem confines_clauseless : confines clauseless = true := by decide +kernel

theorem confines_operationless : confines operationless = true := by decide +kernel

end Grammar

namespace Tree

/-- The kinds of operations. -/
def operationKinds : List Kind := [.timeout, .messageContent]

variable {tree node : Tree}

/-! ## Clauses and operations, wherever they stand -/

theorem WellFormed.occurrences_clause_eq_nil (h : tree.WellFormed)
    (listed : tree.kind ∈ Grammar.clauseless) : tree.occurrences [.clause] = [] :=
  h.occurrences_eq_nil Grammar.confines_clauseless (by decide) listed

theorem WellFormed.occurrences_operationKinds_eq_nil (h : tree.WellFormed)
    (listed : tree.kind ∈ Grammar.operationless) : tree.occurrences operationKinds = [] :=
  h.occurrences_eq_nil Grammar.confines_operationless (by decide) listed

/-- The clauses of a contract are all the clauses in it. -/
theorem WellFormed.within_clause (h : tree.WellFormed) (kind : tree.kind = .contract) :
    tree.within [.clause] = tree.clauseNodes := by
  refine h.within_eq_reach Grammar.confines_clauseless (by decide) ?_ (by simp)
  rw [kind]
  decide +kernel

/-- The operations of a clause are all the operations in it. -/
theorem WellFormed.within_operations (h : tree.WellFormed) (kind : tree.kind = .clause) :
    tree.within operationKinds = tree.operationNodes := by
  refine h.within_eq_reach Grammar.confines_operationless (by decide) ?_ (by simp [operationKinds])
  rw [kind]
  decide +kernel

/-- A child of a contract has its operations in its clauses, or is a block of variables. -/
theorem WellFormed.occurrences_operationKinds (h : tree.WellFormed)
    (listed : tree.kind ∈ Grammar.parts .contract) :
    tree.occurrences operationKinds
      = (tree.occurrences [.clause]).flatMap (within operationKinds)
        ++ if [Kind.variableBlock].contains tree.kind then tree.within operationKinds else [] := by
  have sorts : ∀ kind ∈ Grammar.parts .contract, kind = .clauses ∨ kind = .variableBlock ∨
      kind ∈ Grammar.clauseless ∧ kind ∈ Grammar.operationless ∧ kind ≠ .variableBlock := by
    decide +kernel
  rcases sorts _ listed with block | block | ⟨noClause, noOperation, other⟩
  · have clauses : tree.occurrences [.clause] = tree.reach [[.clause]] := by
      refine h.occurrences_eq_reach Grammar.confines_clauseless (by decide) ?_
      rw [block]
      decide +kernel
    have operations : tree.occurrences operationKinds
        = tree.reach [[.clause], [.terms], [.termOrWhen], [.term], operationKinds] := by
      refine h.occurrences_eq_reach Grammar.confines_operationless (by decide) ?_
      rw [block]
      decide +kernel
    have each : ∀ clause ∈ tree.reach [[.clause]],
        clause.operationNodes = clause.within operationKinds := by
      intro clause member
      have kind := kind_of_mem_reach [] [.clause] member
      exact ((h.of_mem_reach member).within_operations (List.mem_singleton.mp kind)).symm
    rw [clauses, operations, ← List.flatMap_congr each, block, reach_singleton]
    exact (List.append_nil _).symm
  · have none : tree.occurrences [.clause] = [] :=
      h.occurrences_clause_eq_nil (by rw [block]; decide)
    rw [none, occurrences_eq, within_eq_flatMap (by simp [operationKinds]), block]
    rfl
  · rw [h.occurrences_clause_eq_nil noClause, h.occurrences_operationKinds_eq_nil noOperation]
    simp [other]

/-- Every operation of a contract stands in one of its clauses or in a block of variables, and is
counted once. -/
theorem WellFormed.perm_operations (h : tree.WellFormed) (kind : tree.kind = .contract) :
    (tree.within operationKinds).Perm
      ((tree.within [.clause]).flatMap (within operationKinds)
        ++ (tree.pick [.variableBlock]).flatMap (within operationKinds)) := by
  obtain ⟨conforms, formed⟩ := wellFormed_iff.mp h
  have each : ∀ child ∈ tree.children, child.occurrences operationKinds
      = (child.occurrences [.clause]).flatMap (within operationKinds)
        ++ if [Kind.variableBlock].contains child.kind then child.within operationKinds
          else [] := by
    intro child member
    exact (formed child member).occurrences_operationKinds (kind ▸ conforms.kind_mem_parts member)
  rw [within_eq_flatMap (by simp [operationKinds]) tree, List.flatMap_congr each,
    within_eq_flatMap (by simp) tree, List.flatMap_assoc, pick, flatMap_filter]
  exact (List.flatMap_append_perm _ _ _).symm

/-! ## Operations that become terms -/

/-- Whether an operation becomes a term, by the kind of its leaf: every message condition, and a
timeout with a number as its operand. -/
def givesTerm (node : Tree) : Bool :=
  node.kind == .messageContent || node.statesDuration

theorem WellFormed.becomesTerm_eq_givesTerm (h : node.WellFormed)
    (kind : node.kind ∈ operationKinds) : node.becomesTerm = node.givesTerm := by
  rcases List.mem_pair.mp kind with kind | kind
  · rw [h.becomesTerm_eq (Or.inl kind)]
    obtain ⟨operand, isDuration, children⟩ := h.production kind rfl
    rcases isDuration with made | made
    · have sort : operand.kind = .number := made.kind_eq rfl
      simp [givesTerm, namesDuration, statesDuration, kind, children, sort]
    · have sort : operand.kind = .identifier := made.kind_eq rfl
      simp [givesTerm, namesDuration, statesDuration, kind, children, sort]
  · simp [becomesTerm, givesTerm, kind]

/-- The operations of a clause that become terms are those anywhere in it that give terms. -/
theorem WellFormed.termNodes_eq_filter (h : tree.WellFormed) (kind : tree.kind = .clause) :
    tree.termNodes = (tree.within operationKinds).filter givesTerm := by
  rw [termNodes, h.within_operations kind]
  apply List.filter_congr
  intro node member
  have listed := kind_of_mem_reach [[.terms], [.termOrWhen], [.term]] _ member
  exact (h.of_mem_reach member).becomesTerm_eq_givesTerm listed

end Tree

/-! ## Documents -/

/-- The terms that a tree declares belong to its operations one to one and in order. -/
theorem Declares.forall₂_termFor {tree : Tree} {clause : Clause} (h : Declares tree clause) :
    List.Forall₂ (fun place term => TermFor clause.name place.2 place.1 term)
      tree.termNodes.zipIdx clause.terms := by
  rw [List.forall₂_iff_get]
  refine ⟨by rw [List.length_zipIdx, h.count], fun k inNodes inTerms => ?_⟩
  rw [List.length_zipIdx] at inNodes
  obtain ⟨term, found, stands⟩ := h.term k _ (List.getElem?_eq_getElem inNodes)
  obtain ⟨_, rfl⟩ := List.getElem?_eq_some_iff.mp found
  simpa using stands

/-- The clause is the one of the node, and its terms belong one to one and in order to the
operations anywhere below the node: to all message conditions, and to the timeouts with a number. -/
structure Covers (node : Tree) (clause : Clause) : Prop where
  assembled : Clause.ofTree node = .ok clause
  terms : List.Forall₂ (fun place term => TermFor clause.name place.2 place.1 term)
    ((node.within Tree.operationKinds).filter Tree.givesTerm).zipIdx clause.terms

theorem Tree.WellFormed.covers {node : Tree} {clause : Clause} (h : node.WellFormed)
    (kind : node.kind = .clause) (assembled : Clause.ofTree node = .ok clause) :
    Covers node clause := by
  refine ⟨assembled, ?_⟩
  rw [← h.termNodes_eq_filter kind]
  exact (Declares.of_ofTree assembled).forall₂_termFor

/-- In a document that is read, every clause counts and every operation in a clause counts, once and
in its place. All other operations stand in blocks of variables, and whatever these hold, the
contract is the same. -/
theorem Document.covers_of_parse {source : String} {tree : Tree}
    (h : Document.parse source = .ok tree) :
    ∃ contract, compile (.text source) = .ok contract ∧
      List.Forall₂ Covers (tree.within [.clause]) contract.clauses ∧
      (tree.within Tree.operationKinds).Perm
        ((tree.within [.clause]).flatMap (Tree.within Tree.operationKinds)
          ++ (tree.pick [.variableBlock]).flatMap (Tree.within Tree.operationKinds)) ∧
      ∀ other : Tree, other.kind = .contract →
        (other.children.filter fun child => child.kind != .variableBlock)
          = (tree.children.filter fun child => child.kind != .variableBlock) →
        Contract.ofTree other = .ok contract := by
  obtain ⟨kind, formed⟩ := Pattern.derives_contract_iff.mp (derives_of_parse h)
  obtain ⟨contract, assembled, compiled⟩ := exists_compile_of_parse h
  refine ⟨contract, compiled, ?_, formed.perm_operations kind, ?_⟩
  · obtain ⟨clauses, made, rfl⟩ := Contract.exists_clauses_of_ofTree assembled
    have each : ∀ node ∈ tree.clauseNodes, node.WellFormed ∧ node.kind = .clause := by
      intro node member
      have listed := Tree.kind_of_mem_reach [[.clauses]] [.clause] member
      exact ⟨formed.of_mem_reach member, List.mem_singleton.mp listed⟩
    rw [formed.within_clause kind]
    refine ((List.forall₂_and_left _ _).mpr ⟨each, forall₂_of_mapM made⟩).imp ?_
    rintro node clause ⟨⟨formedNode, isClause⟩, made⟩
    exact formedNode.covers isClause made
  · intro other isContract same
    rw [← assembled]
    apply Contract.ofTree_congr kind isContract
    apply Tree.SameReading.of_pick
    intro sort listed
    refine Tree.pick_eq_of_filter_ne ?_ same
    rintro rfl
    exact absurd listed (by decide)

/-- Two blocks of clauses, the second one empty, and a block of variables. The clause has a timeout
under a name, one in seconds, and a presence check; another timeout is a variable. -/
def coveredSource : String :=
  "contract c\x7bvariables\x7bv=Timeout(5)\x7dclauses\x7bright r\x7brolePlayer=process terms\x7b" ++
    "Timeout(s)Timeout(7)MessageContent()\x7d\x7d\x7dclauses\x7b\x7d\x7d"

/-- Of the four operations of the document three stand in the clause and two of these are terms. -/
theorem Document.covers_of_parse_variables :
    ∃ tree contract, Document.parse coveredSource = .ok tree ∧
      compile (.text coveredSource) = .ok contract ∧
      List.Forall₂ Covers (tree.within [.clause]) contract.clauses ∧
      (tree.within [.clause]).map (fun node =>
          ((node.within Tree.operationKinds).length,
            ((node.within Tree.operationKinds).filter Tree.givesTerm).length)) = [(3, 2)] ∧
      (tree.within Tree.operationKinds).length = 4 ∧
      Contract.ofTree (.inner .contract
        (tree.children.filter fun child => child.kind != .variableBlock)) = .ok contract := by
  obtain ⟨tree, read, seen⟩ := exists_parse_of_view
    (show (Document.parse coveredSource).toOption.map (fun tree =>
        ((tree.within [.clause]).map (fun node =>
          ((node.within Tree.operationKinds).length,
            ((node.within Tree.operationKinds).filter Tree.givesTerm).length)),
        (tree.within Tree.operationKinds).length)) = some ([(3, 2)], 4) by decide +kernel)
  obtain ⟨clauses, operations⟩ := Prod.mk.inj seen
  obtain ⟨contract, compiled, covered, -, other⟩ := Document.covers_of_parse read
  refine ⟨tree, contract, read, compiled, covered, clauses, operations, other _ rfl ?_⟩
  rw [Tree.children_inner, List.filter_filter]
  simp

end Covenant
