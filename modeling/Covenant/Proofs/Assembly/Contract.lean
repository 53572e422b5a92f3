import Covenant.Assembly.Contract
import Covenant.Proofs.Assembly.Clause
import Covenant.Proofs.Tree

/-!
# What a contract is assembled from

A contract is assembled in a loop over its children that carries a draft. Here the loop is taken
apart: what a run of children adds to a draft is said for all of them at once (`Draft.extend`), and
one child (`result_contractChild`) as well as a run of children (`foldlM_contractChild`) adds just
that. Hence each field of the contract is a function of the tree, and the assembly fails only where
one of the clauses does (`Contract.ofTree_eq`).
-/

set_option autoImplicit false

namespace Covenant

namespace Tree

/-- The clauses of a contract, in document order. -/
def clauseNodes (contract : Tree) : List Tree :=
  contract.reach [[.clauses], [.clause]]

end Tree

namespace Assembly

open Covenant.Tree (lastOf lastOf_append)

/-! ## Entries of a block -/

theorem lastDate_eq (known : String) (statement : Tree) :
    lastDate known statement = lastOf Tree.text known statement.dateNodes := by
  unfold lastDate lastOf
  cases statement.dateNodes.getLast? <;> rfl

theorem foldl_dateEntry (draft : Draft) (entries : List Tree) :
    entries.foldl dateEntry draft =
      { draft with
        beginDate := lastOf Tree.text draft.beginDate
          ((Tree.among [.beginDate] [] entries).flatMap Tree.dateNodes)
        dueDate := lastOf Tree.text draft.dueDate
          ((Tree.among [.dueDate] [] entries).flatMap Tree.dateNodes) } := by
  induction entries generalizing draft with
  | nil => rfl
  | cons entry rest ih =>
      simp only [List.foldl_cons, ih, Tree.among_cons entry rest, List.flatMap_append,
        lastOf_append]
      by_cases begins : entry.kind = .beginDate
      · simp [dateEntry, begins, Tree.among, lastDate_eq]
      · by_cases ends : entry.kind = .dueDate
        · simp [dateEntry, ends, Tree.among, lastDate_eq]
        · simp [dateEntry, begins, ends, Tree.among]

theorem foldl_partyEntry (draft : Draft) (entries : List Tree) :
    entries.foldl partyEntry draft =
      { draft with
        application := lastOf Tree.partyText draft.application
          (Tree.among [.application] [] entries)
        process := lastOf Tree.partyText draft.process (Tree.among [.process] [] entries) } := by
  induction entries generalizing draft with
  | nil => rfl
  | cons entry rest ih =>
      simp only [List.foldl_cons, ih, Tree.among_cons entry rest, lastOf_append]
      by_cases applies : entry.kind = .application
      · simp [partyEntry, applies, Tree.among]
      · by_cases processes : entry.kind = .process
        · simp [partyEntry, processes, Tree.among]
        · simp [partyEntry, applies, processes, Tree.among]

/-! ## Children of a contract -/

/-- The draft after some more children, whose clauses are given. -/
def Draft.extend (draft : Draft) (children : List Tree) (clauses : List Clause) : Draft where
  beginDate := lastOf Tree.text draft.beginDate
    ((Tree.among [.dates] [[.beginDate]] children).flatMap Tree.dateNodes)
  dueDate := lastOf Tree.text draft.dueDate
    ((Tree.among [.dates] [[.dueDate]] children).flatMap Tree.dateNodes)
  application := lastOf Tree.partyText draft.application
    (Tree.among [.parties] [[.application]] children)
  process := lastOf Tree.partyText draft.process (Tree.among [.parties] [[.process]] children)
  clauses := draft.clauses ++ clauses

theorem Draft.extend_nil (draft : Draft) : draft.extend [] [] = draft := by
  simp [extend, Tree.among]

theorem Draft.extend_append (draft : Draft) (front back : List Tree)
    (clauses more : List Clause) :
    (draft.extend front clauses).extend back more
      = draft.extend (front ++ back) (clauses ++ more) := by
  simp only [extend, Tree.among_append, List.flatMap_append, lastOf_append, List.append_assoc]

theorem contractRouting_handler? (kind : Kind) :
    contractRouting.handler? kind =
      if kind = .variableBlock then some .variableBlock
      else if kind = .dates then some .dates
      else if kind = .parties then some .parties
      else if kind = .clauses then some .clauses
      else none := by
  cases kind <;> rfl

/-- A block of dates adds the dates of its entries. -/
theorem Draft.extend_dates (draft : Draft) {child : Tree} (kind : child.kind = .dates) :
    child.children.foldl dateEntry draft = draft.extend [child] [] := by
  rw [foldl_dateEntry, extend]
  simp [Tree.among_singleton_of_mem, Tree.among_singleton_of_not_mem, Tree.reach_cons, kind]

/-- A block of parties adds the parties of its entries. -/
theorem Draft.extend_parties (draft : Draft) {child : Tree} (kind : child.kind = .parties) :
    child.children.foldl partyEntry draft = draft.extend [child] [] := by
  rw [foldl_partyEntry, extend]
  simp [Tree.among_singleton_of_mem, Tree.among_singleton_of_not_mem, Tree.reach_cons, kind]

/-- Any other child adds its clauses at most. -/
theorem Draft.extend_other (draft : Draft) {child : Tree} (clauses : List Clause)
    (dates : child.kind ≠ .dates) (parties : child.kind ≠ .parties) :
    draft.extend [child] clauses = { draft with clauses := draft.clauses ++ clauses } := by
  simp [extend, Tree.among_singleton_of_not_mem, dates, parties]

/-- A child adds to the draft what it holds, and fails if one of its clauses does. -/
theorem result_contractChild (draft : Draft) (child : Tree) :
    (contractChild draft child).result .quiet
      = ((Tree.among [.clauses] [[.clause]] [child]).mapM Clause.ofTree).map
          (draft.extend [child]) := by
  unfold contractChild
  rw [contractRouting_handler?]
  by_cases clauses : child.kind = .clauses
  · have selected : Tree.among [.clauses] [[.clause]] [child] = child.pick [.clause] := by
      rw [Tree.among_singleton_of_mem (by simp [clauses]), Tree.reach_singleton]
    have extended : draft.extend [child]
        = fun clauses => { draft with clauses := draft.clauses ++ clauses } :=
      funext fun more => draft.extend_other more (by simp [clauses]) (by simp [clauses])
    simp only [clauses, reduceCtorEq, if_false, if_true, selected, extended, Traced.result_bind,
      Traced.result_mapM]
    show (child.pick [.clause]).mapM Clause.ofTree >>= _ = _
    cases (child.pick [.clause]).mapM Clause.ofTree <;> rfl
  · have none : (Tree.among [.clauses] [[.clause]] [child]).mapM Clause.ofTree = .ok [] := by
      rw [Tree.among_singleton_of_not_mem (by simp [clauses])]
      rfl
    rw [none]
    show _ = Except.ok (draft.extend [child] [])
    by_cases dates : child.kind = .dates
    · simp only [dates, reduceCtorEq, if_false, if_true, ← draft.extend_dates dates]
      rfl
    · by_cases parties : child.kind = .parties
      · simp only [parties, reduceCtorEq, if_false, if_true, ← draft.extend_parties parties]
        rfl
      · rw [draft.extend_other [] dates parties, List.append_nil, if_neg dates, if_neg parties,
          if_neg clauses]
        -- what is passed over or skipped is reported only
        by_cases named : child.kind = .variableBlock
        · rw [if_pos named]
          dsimp only
          rw [Traced.result_bind, Traced.result_forM_note]
          rfl
        · rw [if_neg named]
          dsimp only
          split
          · rw [Traced.result_bind, Traced.result_note]
            rfl
          · rfl

/-- A run of children adds what they hold, and fails if one of their clauses does. -/
theorem foldlM_contractChild (draft : Draft) (children : List Tree) :
    children.foldlM (fun draft child => (contractChild draft child).result .quiet) draft
      = ((Tree.among [.clauses] [[.clause]] children).mapM Clause.ofTree).map
          (draft.extend children) := by
  induction children generalizing draft with
  | nil => exact congrArg Except.ok draft.extend_nil.symm
  | cons child rest ih =>
      rw [List.foldlM_cons, result_contractChild, Tree.among_cons child rest, List.mapM_append]
      cases (Tree.among [.clauses] [[.clause]] [child]).mapM Clause.ofTree with
      | error fault => rfl
      | ok clauses =>
          show List.foldlM _ (draft.extend [child] clauses) rest = _
          rw [ih]
          cases (Tree.among [.clauses] [[.clause]] rest).mapM Clause.ofTree with
          | error fault => rfl
          | ok more => exact congrArg Except.ok (draft.extend_append [child] rest clauses more)

end Assembly

namespace Contract

open Covenant.Tree (lastOf)

/-- The contract of a tree whose clauses are given. -/
def withClauses (tree : Tree) (clauses : List Clause) : Contract where
  name := tree.identifierText
  beginDate := lastOf Tree.text "" ((tree.reach [[.dates], [.beginDate]]).flatMap Tree.dateNodes)
  dueDate := lastOf Tree.text "" ((tree.reach [[.dates], [.dueDate]]).flatMap Tree.dateNodes)
  application := lastOf Tree.partyText "" (tree.reach [[.parties], [.application]])
  process := lastOf Tree.partyText "" (tree.reach [[.parties], [.process]])
  clauses := clauses

variable {tree : Tree}

/-- A contract is assembled from its clauses, and fails as the first of them that fails. -/
theorem ofTree_eq (kind : tree.kind = .contract) :
    Contract.ofTree tree = (tree.clauseNodes.mapM Clause.ofTree).map (withClauses tree) := by
  have title : tree.contractTitle = .ok tree.identifierText := by
    simp [Tree.contractTitle, Tree.expect, kind]
  rw [Contract.ofTree, Assembly.contract, if_neg (not_not_intro kind)]
  simp only [Traced.result_bind, Traced.result_pure, Traced.result_ofExcept,
    Traced.result_foldlM, title, ok_bind, Assembly.foldlM_contractChild]
  rw [Tree.clauseNodes, Tree.reach_cons]
  cases (Tree.among [.clauses] [[.clause]] tree.children).mapM Clause.ofTree <;> rfl

/-- Only contracts are assembled as contracts. -/
theorem kind_of_ofTree {contract : Contract} (h : Contract.ofTree tree = .ok contract) :
    tree.kind = .contract := by
  by_cases kind : tree.kind = .contract
  · exact kind
  · rw [Contract.ofTree, Assembly.contract, if_pos kind] at h
    cases h

theorem exists_clauses_of_ofTree {contract : Contract} (h : Contract.ofTree tree = .ok contract) :
    ∃ clauses, tree.clauseNodes.mapM Clause.ofTree = .ok clauses ∧
      contract = withClauses tree clauses := by
  rw [ofTree_eq (kind_of_ofTree h)] at h
  cases made : tree.clauseNodes.mapM Clause.ofTree with
  | error fault =>
      rw [made] at h
      cases h
  | ok clauses =>
      rw [made] at h
      cases h
      exact ⟨clauses, rfl, rfl⟩

end Contract

end Covenant
