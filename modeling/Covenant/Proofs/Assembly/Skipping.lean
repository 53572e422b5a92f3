import Covenant.Proofs.Assembly.Blocks
import Covenant.Proofs.Assembly.Terms

/-!
# What is passed over

The assembly goes down from a contract to its operations and takes, from the children of each node
that it comes to, those of some kinds (`Tree.takenAt`). A child of any other kind is passed over
with everything below it, however that is built.

`Tree.Inserts` puts one more node among the children of a node that is given by the way down to it.
What is reached by some way does not change if the two ways part, or if the new node is not of a
kind that is taken where it stands (`Tree.Spares`, `Tree.Inserts.reach_eq`). A contract is read by
such ways, and so is a clause, apart from its first child (`Clause.ofTree_congr`). Main statement:
a node that is not taken where it stands has no influence, neither on a contract that is assembled
nor on the fault of one that is not (`Contract.ofTree_eq_of_inserts`).
-/

set_option autoImplicit false

namespace Covenant

namespace Tree

variable {extra tree padded child child' : Tree} {kinds : List Kind} {levels : List (List Kind)}

/-! ## Inserting a node -/

/-- The second tree is the first one with a further node among the children of one of its nodes,
which is found by going down through children of the kinds on the way. The first child of a clause
gives its category, whatever its kind: nothing is put before it or into it. -/
inductive Inserts (extra : Tree) : (way : List Kind) → Tree → Tree → Prop
  | here {kind : Kind} {value : Option String} {front back : List Tree} :
      (kind = .clause → front ≠ []) →
      Inserts extra [] (mk kind value (front ++ back)) (mk kind value (front ++ extra :: back))
  | inside {kind step : Kind} {value : Option String} {front back : List Tree} {child child' : Tree}
      {way : List Kind} :
      (kind = .clause → front ≠ []) → child.kind = step → Inserts extra way child child' →
      Inserts extra (step :: way) (mk kind value (front ++ child :: back))
        (mk kind value (front ++ child' :: back))

theorem Inserts.kind_eq {way : List Kind} (h : Inserts extra way tree padded) :
    padded.kind = tree.kind := by
  cases h <;> rfl

/-- A clause keeps its first child. -/
theorem Inserts.head?_eq {way : List Kind} (h : Inserts extra way tree padded)
    (clause : tree.kind = .clause) : padded.children.head? = tree.children.head? := by
  cases h with
  | here guarded =>
      obtain ⟨first, rest, rfl⟩ := List.exists_cons_of_ne_nil (guarded clause)
      rfl
  | inside guarded =>
      obtain ⟨first, rest, rfl⟩ := List.exists_cons_of_ne_nil (guarded clause)
      rfl

/-! ## Ways that do not come to it -/

/-- A node of the kind at the end of a way does not get into what is reached by the levels: the two
part, or the kind is not taken where the node stands. -/
def Spares (kind : Kind) : (way : List Kind) → (levels : List (List Kind)) → Prop
  | _, [] => False
  | [], kinds :: _ => kind ∉ kinds
  | step :: way, kinds :: levels => step ∈ kinds → Spares kind way levels

/-- Nodes reached through several siblings, seen through a function, stay the same if one of the
siblings is replaced by another of its kind below which they do. -/
theorem map_among_replace {α : Type} {f : Tree → α} (front back : List Tree)
    (same : child'.kind = child.kind)
    (agree : child.kind ∈ kinds → (child'.reach levels).map f = (child.reach levels).map f) :
    (among kinds levels (front ++ child' :: back)).map f
      = (among kinds levels (front ++ child :: back)).map f := by
  have single : (among kinds levels [child']).map f = (among kinds levels [child]).map f := by
    by_cases taken : child.kind ∈ kinds
    · rw [among_singleton_of_mem taken, among_singleton_of_mem (same ▸ taken), agree taken]
    · rw [among_singleton_of_not_mem taken, among_singleton_of_not_mem (same ▸ taken)]
  rw [among_append, among_append, among_cons, among_cons child]
  simp only [List.map_append, single]

/-- What is reached by another way is still there, and nothing else. -/
theorem Inserts.reach_eq {way : List Kind} (h : Inserts extra way tree padded)
    (spared : Spares extra.kind way levels) : padded.reach levels = tree.reach levels := by
  induction h generalizing levels with
  | here _ =>
      cases levels with
      | nil => exact absurd spared id
      | cons kinds levels =>
          rw [reach_cons, reach_cons, children_mk, children_mk, among_append, among_append,
            among_cons, among_singleton_of_not_mem spared, List.nil_append]
  | @inside _ _ _ front back _ _ _ _ isStep inserted ih =>
      cases levels with
      | nil => exact absurd spared id
      | cons kinds levels =>
          have replaced := map_among_replace (f := id) front back inserted.kind_eq
            fun (taken : _ ∈ kinds) => congrArg (List.map id) (ih (spared (isStep ▸ taken)))
          rwa [List.map_id, List.map_id] at replaced

/-- The clauses of a contract, seen through a function, stay the same if the function does not tell
the one clause that changes from what it was. -/
theorem Inserts.map_clauseNodes {α : Type} {f : Tree → α} {way : List Kind}
    (h : Inserts extra (.clauses :: .clause :: way) tree padded)
    (agree : ∀ clause clause', clause.kind = .clause → Inserts extra way clause clause' →
      f clause' = f clause) :
    padded.clauseNodes.map f = tree.clauseNodes.map f := by
  cases h with
  | inside _ _ insideBlock =>
      refine map_among_replace _ _ insideBlock.kind_eq fun _ => ?_
      cases insideBlock with
      | inside _ isClause insideClause =>
          refine map_among_replace _ _ insideClause.kind_eq fun _ => ?_
          rw [reach_nil, reach_nil, List.map_singleton, List.map_singleton,
            agree _ _ isClause insideClause]

end Tree

/-! ## What is read of a clause -/

namespace Assembly

variable {tree other : Tree}

/-- The operations of a clause are those of the nodes at the end of the way down. -/
theorem select_operationNodes (tree : Tree) :
    termRouting.select tree.operationNodes = operations tree := by
  rw [← map_snd_operations, Routing.select, List.filterMap_map]
  refine (List.filterMap_congr fun item member => ?_).trans List.filterMap_some
  have kind := kind_of_mem_operations member
  rw [Function.comp_apply, handler?_termRouting_iff.mpr kind]
  rfl

end Assembly

namespace Tree

/-- The ways from a clause to its name, its role, its operations and its breach statements. -/
def clauseWays : List (List (List Kind)) :=
  [[[.identifier]], [[.rolePlayer]], [[.onBreach]],
    [[.terms], [.termOrWhen], [.term], [.timeout, .messageContent]]]

end Tree

/-- Clauses with the same first child, in which the same nodes stand at the ends of the ways, have
the same outcome. -/
theorem Clause.ofTree_congr {tree other : Tree} (kind : other.kind = tree.kind)
    (first : other.children.head? = tree.children.head?)
    (parts : ∀ way ∈ Tree.clauseWays, other.reach way = tree.reach way) :
    Clause.ofTree other = Clause.ofTree tree := by
  simp only [Tree.clauseWays, List.forall_mem_cons] at parts
  obtain ⟨title, role, breach, operations, -⟩ := parts
  have category : other.clauseCategory = tree.clauseCategory := by
    rw [Tree.clauseCategory, Tree.clauseCategory, Tree.nth, Tree.nth, Tree.expect, Tree.expect,
      ← List.head?_eq_getElem?, ← List.head?_eq_getElem?, kind, first]
  have header : Assembly.header other = Assembly.header tree := by
    apply Assembly.header_congr kind category
    · rw [Tree.firstOf?_eq_head?_reach, Tree.firstOf?_eq_head?_reach, title]
    · rw [Tree.firstOf?_eq_head?_reach, Tree.firstOf?_eq_head?_reach, role]
  have messages : Assembly.breachMessages other = Assembly.breachMessages tree := by
    rw [Assembly.breachMessages_eq, Assembly.breachMessages_eq, ← Tree.reach_singleton,
      ← Tree.reach_singleton, breach]
  have items : Assembly.operations other = Assembly.operations tree := by
    rw [← Assembly.select_operationNodes, ← Assembly.select_operationNodes, Tree.operationNodes,
      Tree.operationNodes, operations]
  rw [Assembly.ofTree_eq, Assembly.ofTree_eq, header, messages, items]

/-! ## Nodes that are not taken -/

namespace Tree

variable {extra tree padded : Tree} {way kinds : List Kind}

/-- The kinds that the assembly takes from among the children of a node, by the way from the
contract down to the node. There are none where it does not come. -/
def takenAt : (way : List Kind) → Option (List Kind)
  | [] => some [.identifier, .dates, .parties, .clauses]
  | [.dates] => some [.beginDate, .dueDate]
  | [.parties] => some [.application, .process]
  | [.clauses] => some [.clause]
  | [.clauses, .clause] => some [.identifier, .rolePlayer, .terms, .onBreach]
  | [.clauses, .clause, .terms] => some [.termOrWhen]
  | [.clauses, .clause, .terms, .termOrWhen] => some [.term]
  | [.clauses, .clause, .terms, .termOrWhen, .term] => some [.timeout, .messageContent]
  | _ => none

theorem spares_of_takenAt {kind : Kind} (visited : takenAt way = some kinds)
    (skipped : kind ∉ kinds) :
    (∀ levels ∈ headingWays, Spares kind way levels) ∧
      (Spares kind way [[.clauses], [.clause]] ∨
        ∃ rest, way = .clauses :: .clause :: rest ∧
          ∀ levels ∈ clauseWays, Spares kind rest levels) := by
  -- one case for each line of the table
  unfold takenAt at visited
  split at visited
  all_goals cases visited
  all_goals simp_all [headingWays, clauseWays, Spares]

end Tree

/-- A node that is not of a kind that is taken where it stands is passed over with all that is below
it: with it and without it the contract is the same, and so is the fault. -/
theorem Contract.ofTree_eq_of_inserts {extra tree padded : Tree} {way kinds : List Kind}
    (root : tree.kind = .contract) (inserted : Tree.Inserts extra way tree padded)
    (visited : Tree.takenAt way = some kinds) (skipped : extra.kind ∉ kinds) :
    Contract.ofTree padded = Contract.ofTree tree := by
  obtain ⟨headings, clauses⟩ := Tree.spares_of_takenAt visited skipped
  have same : tree.SameReading padded := by
    constructor
    · intro levels listed
      exact inserted.reach_eq (headings levels listed)
    · rcases clauses with spared | ⟨rest, rfl, spared⟩
      · exact congrArg (List.map Clause.ofTree) (inserted.reach_eq spared)
      · -- one clause has changed, in a place where it is not read
        apply inserted.map_clauseNodes
        intro clause clause' isClause within
        apply Clause.ofTree_congr within.kind_eq (within.head?_eq isClause)
        intro levels listed
        exact within.reach_eq (spared levels listed)
  exact Contract.ofTree_congr root (inserted.kind_eq.trans root) same

/-- A contract with a single timeout, of which the operand is given, and some nodes before it in its
term. -/
def timedContract (before operand : List Tree) : Tree :=
  let word := Tree.leaf .token
  .inner .contract
    [.leaf .identifier "c",
      .inner .clauses
        [.inner .clause
          [.leaf .clauseType "right", .leaf .identifier "r",
            .inner .rolePlayer [word "rolePlayer", word "=", .leaf .identifier "process"],
            .inner .terms
              [.inner .termOrWhen
                [.inner .term
                  (before ++ [.inner .timeout ([word "Timeout", word "("] ++ operand)])]]]]]

theorem inserts_timedContract (extra : Tree) (operand : List Tree) :
    Tree.Inserts extra [.clauses, .clause, .terms, .termOrWhen, .term] (timedContract [] operand)
      (timedContract [extra] operand) := by
  refine @Tree.Inserts.inside _ _ _ _ [_] [] _ _ _ (by simp) rfl ?_
  refine @Tree.Inserts.inside _ _ _ _ [] [] _ _ _ (by simp) rfl ?_
  -- three children of the clause stand before its terms
  refine @Tree.Inserts.inside _ _ _ _ [_, _, _] [] _ _ _ (by simp) rfl ?_
  refine @Tree.Inserts.inside _ _ _ _ [] [] _ _ _ (by simp) rfl ?_
  refine @Tree.Inserts.inside _ _ _ _ [] [] _ _ _ (by simp) rfl ?_
  exact @Tree.Inserts.here _ _ _ [] _ (by simp)

/-- A clause without any part, put into a term, is not looked at: neither where the timeout after it
is assembled nor where the timeout has no operand and is reported. -/
theorem Contract.ofTree_eq_of_inserts_clause :
    (∃ contract, Contract.ofTree (timedContract [] [.leaf .number "60"]) = .ok contract ∧
      Contract.ofTree (timedContract [.inner .clause []] [.leaf .number "60"]) = .ok contract ∧
        contract.clauses.length = 1) ∧
    Contract.ofTree (timedContract [] []) = .error (.missing .timeout (.position 2)) ∧
      Contract.ofTree (timedContract [.inner .clause []] [])
        = .error (.missing .timeout (.position 2)) := by
  have skipped : (Tree.inner .clause []).kind ∉ [Kind.timeout, .messageContent] := by decide
  refine ⟨⟨_, rfl, ?_, rfl⟩, rfl, ?_⟩
  · exact Contract.ofTree_eq_of_inserts rfl (inserts_timedContract _ _) rfl skipped
  · exact Contract.ofTree_eq_of_inserts rfl (inserts_timedContract _ _) rfl skipped

end Covenant
