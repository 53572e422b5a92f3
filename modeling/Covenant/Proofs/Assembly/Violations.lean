import Covenant.Proofs.Assembly.Contract
import Covenant.Proofs.Assembly.Terms
import Covenant.Proofs.Condition

/-!
# Where the assembly of a tree fails

A tree that was not read from a document may lack parts that the assembly takes by their position
or by their kind. `Tree.violations` lists all such places below a contract in document order: the
parts of each clause's header first, then the operations of its terms blocks. Nodes that the
assembly does not come to have no part in the list, however they are built.

A run reports a list of places if it succeeds where the list is empty and otherwise fails at its
first place (`Reports`). The property is kept by every way in which runs are put together
(`Reports.bind`, `Reports.mapM`, `Reports.foldlM`), so it goes from the readers of single parts up
to a whole contract (`reports_ofTree`). Main statement: a contract is assembled exactly if all its
clauses are complete, and otherwise the first violation is reported (`Contract.ofTree_outcome`).
-/

set_option autoImplicit false

namespace Covenant

/-! ## Runs that report their first violation -/

/-- The run succeeds if there is no violation, and otherwise fails at the place of the first. -/
def Reports {α : Type} (run : Except Fault α) : (violations : List (Kind × Slot)) → Prop
  | [] => ∃ value, run = .ok value
  | place :: _ => ∃ fault, run = .error fault ∧ fault.place? = some place

namespace Reports

variable {α β : Type}

theorem of_ok {run : Except Fault α} {value : α} (h : run = .ok value) : Reports run [] :=
  ⟨value, h⟩

theorem of_error {run : Except Fault α} {fault : Fault} {place : Kind × Slot}
    (h : run = .error fault) (located : fault.place? = some place) : Reports run [place] :=
  ⟨fault, h, located⟩

/-- What comes later is looked at only if nothing was wrong before. -/
theorem bind {first : Except Fault α} {next : α → Except Fault β} {front back : List (Kind × Slot)}
    (h : Reports first front) (h' : ∀ value, first = .ok value → Reports (next value) back) :
    Reports (first >>= next) (front ++ back) := by
  cases front with
  | nil =>
      obtain ⟨value, done⟩ := h
      rw [done, ok_bind, List.nil_append]
      exact h' value done
  | cons place front =>
      obtain ⟨fault, failed, located⟩ := h
      rw [failed]
      exact ⟨fault, rfl, located⟩

/-- What cannot fail adds nothing to the report. -/
theorem bind_ok {first : Except Fault α} {next : α → Except Fault β}
    {violations : List (Kind × Slot)} (h : Reports first violations)
    (h' : ∀ value, ∃ result, next value = .ok result) : Reports (first >>= next) violations := by
  rw [← List.append_nil violations]
  exact h.bind fun value _ => h' value

theorem map {run : Except Fault α} {violations : List (Kind × Slot)} (f : α → β)
    (h : Reports run violations) : Reports (run.map f) violations := by
  cases violations with
  | nil =>
      obtain ⟨value, done⟩ := h
      exact ⟨f value, by rw [done]; rfl⟩
  | cons place violations =>
      obtain ⟨fault, failed, located⟩ := h
      exact ⟨fault, by rw [failed]; rfl, located⟩

theorem mapM {visit : α → Except Fault β} {violations : α → List (Kind × Slot)} {items : List α}
    (h : ∀ item ∈ items, Reports (visit item) (violations item)) :
    Reports (items.mapM visit) (items.flatMap violations) := by
  induction items with
  | nil => exact of_ok rfl
  | cons item items ih =>
      rw [List.forall_mem_cons] at h
      rw [List.mapM_cons, List.flatMap_cons]
      exact h.1.bind fun first _ => (ih h.2).bind_ok fun rest => ⟨_, rfl⟩

/-- The state that a loop carries has no part in what it reports if it has none in any step. -/
theorem foldlM {step : β → α → Except Fault β} {violations : α → List (Kind × Slot)}
    {items : List α} (h : ∀ item ∈ items, ∀ state, Reports (step state item) (violations item))
    (start : β) : Reports (items.foldlM step start) (items.flatMap violations) := by
  induction items generalizing start with
  | nil => exact of_ok rfl
  | cons item items ih =>
      rw [List.forall_mem_cons] at h
      rw [List.foldlM_cons, List.flatMap_cons]
      exact (h.1 start).bind fun next _ => ih h.2 next

end Reports

/-! ## Places that are missing -/

namespace Tree

/-- The places that the header of a clause lacks. Of several role player statements the first one
counts. -/
def headerViolations (clause : Tree) : List (Kind × Slot) :=
  (if clause.children.length < 1 then [(.clause, .position 0)] else [])
    ++ (if clause.firstOf? .identifier = none then [(.clause, .name)] else [])
    ++ match clause.firstOf? .rolePlayer with
      | none => [(.clause, .rolePlayer)]
      | some statement =>
          if statement.children.length < 3 then [(.rolePlayer, .position 2)] else []

/-- The place that an operation lacks. A message condition is reported under its own arity. -/
def operationViolations (node : Tree) : List (Kind × Slot) :=
  match node.kind with
  | .timeout => if node.children.length < 3 then [(.timeout, .position 2)] else []
  | .messageContent =>
      if node.children.length ∈ [3, 4, 6] then []
      else [(.messageContent, .position node.children.length)]
  | _ => []

/-- The places that a clause lacks, in the order in which it is read. -/
def clauseViolations (clause : Tree) : List (Kind × Slot) :=
  clause.headerViolations ++ clause.operationNodes.flatMap operationViolations

/-- The places that the clauses of a contract lack, in document order. -/
def violations (contract : Tree) : List (Kind × Slot) :=
  contract.clauseNodes.flatMap clauseViolations

end Tree

/-! ## Readers of single parts -/

namespace Tree

variable {tree : Tree}

/-- A child that is taken by its position is reported under the kind of its parent. -/
theorem reports_nth (tree : Tree) (index : Nat) :
    Reports (tree.nth index)
      (if tree.children.length < index + 1 then [(tree.kind, .position index)] else []) := by
  by_cases short : tree.children.length < index + 1
  · rw [if_pos short]
    have none : tree.children[index]? = none := List.getElem?_eq_none (by omega)
    exact .of_error (by rw [nth, none]) rfl
  · rw [if_neg short]
    obtain ⟨child, found⟩ := (nth_isOk_iff index tree).mpr (by omega)
    exact .of_ok found

theorem reports_clauseCategory (kind : tree.kind = .clause) :
    Reports tree.clauseCategory
      (if tree.children.length < 1 then [(.clause, .position 0)] else []) := by
  have read : tree.clauseCategory = (tree.nth 0).map text := by
    rw [clauseCategory, expect_eq_ok (by simp [kind])]
    cases tree.nth 0 <;> rfl
  rw [read]
  have reports := tree.reports_nth 0
  rw [kind] at reports
  exact reports.map text

theorem reports_clauseTitle (kind : tree.kind = .clause) :
    Reports tree.clauseTitle
      (if tree.firstOf? .identifier = none then [(.clause, .name)] else []) := by
  rw [clauseTitle, expect_eq_ok (by simp [kind]), ok_bind]
  cases found : tree.firstOf? .identifier with
  | none =>
      rw [if_pos rfl]
      exact .of_error rfl (by rw [kind]; rfl)
  | some identifier =>
      rw [if_neg (by simp)]
      exact .of_ok rfl

theorem kind_of_firstOf? {kind : Kind} {node : Tree} (h : tree.firstOf? kind = some node) :
    node.kind = kind := by
  have found := List.find?_some h
  exact beq_iff_eq.mp found

/-- The role player statement and the role in it. -/
theorem reports_role (kind : tree.kind = .clause) :
    Reports (do let statement ← tree.roleStatement; statement.statedRole)
      (match tree.firstOf? .rolePlayer with
      | none => [(.clause, .rolePlayer)]
      | some statement =>
          if statement.children.length < 3 then [(.rolePlayer, .position 2)] else []) := by
  rw [roleStatement, expect_eq_ok (by simp [kind]), ok_bind]
  cases found : tree.firstOf? .rolePlayer with
  | none => exact .of_error rfl (by rw [kind]; rfl)
  | some statement =>
      have statementKind := kind_of_firstOf? found
      have read : statement.statedRole = (statement.nth 2).map text := by
        rw [statedRole, expect_eq_ok (by simp [statementKind])]
        cases statement.nth 2 <;> rfl
      have reports := statement.reports_nth 2
      rw [statementKind] at reports
      show Reports statement.statedRole _
      rw [read]
      exact reports.map text

theorem reports_header (kind : tree.kind = .clause) :
    Reports (Assembly.header tree) tree.headerViolations := by
  have split : Assembly.header tree = (do
      let category ← tree.clauseCategory
      let title ← tree.clauseTitle
      (do let statement ← tree.roleStatement; statement.statedRole).map fun role =>
        { category, name := Name.ofClause category title, role }) := by
    rw [Assembly.header]
    cases tree.clauseCategory with
    | error fault => rfl
    | ok category =>
        cases tree.clauseTitle with
        | error fault => rfl
        | ok title =>
            cases tree.roleStatement with
            | error fault => rfl
            | ok statement => cases statement.statedRole <;> rfl
  rw [split, headerViolations, List.append_assoc]
  refine (reports_clauseCategory kind).bind fun category _ => ?_
  refine (reports_clauseTitle kind).bind fun title _ => ?_
  exact (reports_role kind).map _

/-- A message condition of three, four or six children can be read. -/
theorem reports_condition (kind : tree.kind = .messageContent) (index : Int) :
    Reports (Condition.ofTree tree index)
      (if tree.children.length ∈ [3, 4, 6] then []
      else [(.messageContent, .position tree.children.length)]) := by
  by_cases presence : tree.children.length = 3 ∨ tree.children.length = 4
  · have tests : tree.testsPresence = .ok true := by
      rcases presence with arity | arity <;> simp [testsPresence, expect, kind, arity]
    rw [if_pos (by rcases presence with arity | arity <;> simp [arity])]
    exact .of_ok (Condition.ofTree_of_presence tests index)
  · rw [not_or] at presence
    by_cases binary : tree.children.length = 6
    · rw [if_pos (by simp [binary])]
      obtain ⟨sign, signRead⟩ := (nth_isOk_iff 3 tree).mpr (by omega)
      obtain ⟨left, leftRead⟩ := (nth_isOk_iff 2 tree).mpr (by omega)
      obtain ⟨right, rightRead⟩ := (nth_isOk_iff 4 tree).mpr (by omega)
      have tests : tree.testsPresence = .ok false := by
        simp [testsPresence, expect, kind, binary]
      have expected : tree.expect [.messageContent] = .ok () := expect_eq_ok (by simp [kind])
      rw [Condition.ofTree, tests, comparatorText, sideAt, sideAt, expected, signRead, leftRead,
        rightRead]
      exact .of_ok rfl
    · have arities : tree.children.length ∉ [3, 4, 6] := by
        simp [presence.1, presence.2, binary]
      have tests : tree.testsPresence = .error (.messageShape tree.children.length) := by
        rw [testsPresence, expect_eq_ok (by simp [kind]), ok_bind]
        split
        · next three => exact absurd three presence.1
        · next four => exact absurd four presence.2
        · next six => exact absurd six binary
        · rfl
      rw [if_neg arities]
      exact .of_error (by rw [Condition.ofTree, tests]; rfl) rfl

/-- Whether an operation can be read does not depend on its index. -/
theorem reports_termOf (name : Name) (index : Nat) {item : Assembly.Operation × Tree}
    (kind : item.2.kind = item.1.kind) :
    Reports (Assembly.termOf name index item) item.2.operationViolations := by
  obtain ⟨sort, node⟩ := item
  cases sort with
  | timeout =>
      have isTimeout : node.kind = .timeout := kind
      have read : node.duration = node.nth 2 := by
        rw [duration, expect_eq_ok (by simp [isTimeout]), ok_bind]
      have reports := node.reports_nth 2
      rw [isTimeout] at reports
      rw [Assembly.termOf, operationViolations, isTimeout, read]
      exact reports.bind_ok fun operand => ⟨_, rfl⟩
  | messageContent =>
      have isCondition : node.kind = .messageContent := kind
      rw [Assembly.termOf, operationViolations, isCondition]
      exact (reports_condition isCondition index).bind_ok fun condition => ⟨_, rfl⟩

end Tree

/-! ## Clauses and contracts -/

theorem Clause.reports_ofTree {tree : Tree} (kind : tree.kind = .clause) :
    Reports (Clause.ofTree tree) tree.clauseViolations := by
  rw [Assembly.ofTree_eq, Tree.clauseViolations, ← Assembly.map_snd_operations, List.flatMap_map]
  refine (Tree.reports_header kind).bind fun header _ => ?_
  refine (Reports.foldlM (fun item member state => ?_) _).bind_ok fun progress => ⟨_, rfl⟩
  have itemKind := Assembly.kind_of_mem_operations member
  rw [Assembly.result_operation]
  exact (Tree.reports_termOf header.name state.index itemKind).map _

theorem Contract.reports_ofTree {tree : Tree} (kind : tree.kind = .contract) :
    Reports (Contract.ofTree tree) tree.violations := by
  rw [Contract.ofTree_eq kind, Tree.violations]
  refine (Reports.mapM fun clause member => ?_).map _
  have clauseKind := Tree.kind_of_mem_reach [[.clauses]] _ member
  exact Clause.reports_ofTree (by simpa using clauseKind)

/-! ## Complete clauses -/

namespace Tree

/-- A clause in which nothing is missing that is looked for. -/
structure IsComplete (clause : Tree) : Prop where
  opened : 1 ≤ clause.children.length
  named : ∃ child ∈ clause.children, child.kind = .identifier
  /-- The first role player statement has its operand. -/
  role : ∃ statement, clause.firstOf? .rolePlayer = some statement ∧
    3 ≤ statement.children.length
  timeouts : ∀ node ∈ clause.reach [[.terms], [.termOrWhen], [.term], [.timeout]],
    3 ≤ node.children.length
  conditions : ∀ node ∈ clause.reach [[.terms], [.termOrWhen], [.term], [.messageContent]],
    node.children.length ∈ [3, 4, 6]

theorem mem_reach_append (levels : List (List Kind)) (kinds : List Kind) {tree node : Tree} :
    node ∈ tree.reach (levels ++ [kinds]) ↔
      ∃ parent ∈ tree.reach levels, node ∈ parent.children ∧ node.kind ∈ kinds := by
  simp only [reach_append, List.mem_flatMap, reach_singleton, pick, List.mem_filter,
    List.contains_iff_mem]

/-- The operations of one kind are reached by the way of their own. -/
theorem mem_reach_iff_operationNodes {clause node : Tree} {kind : Kind}
    (listed : kind ∈ [Kind.timeout, .messageContent]) :
    node ∈ clause.reach [[.terms], [.termOrWhen], [.term], [kind]] ↔
      node ∈ clause.operationNodes ∧ node.kind = kind := by
  have way (kinds : List Kind) :
      node ∈ clause.reach [[.terms], [.termOrWhen], [.term], kinds] ↔
        ∃ parent ∈ clause.reach [[.terms], [.termOrWhen], [.term]],
          node ∈ parent.children ∧ node.kind ∈ kinds :=
    mem_reach_append [[.terms], [.termOrWhen], [.term]] kinds
  rw [operationNodes, way, way]
  constructor
  · rintro ⟨parent, reached, below, same⟩
    rw [List.mem_singleton] at same
    exact ⟨⟨parent, reached, below, same ▸ listed⟩, same⟩
  · rintro ⟨⟨parent, reached, below, -⟩, same⟩
    exact ⟨parent, reached, below, List.mem_singleton.mpr same⟩

theorem headerViolations_eq_nil_iff {clause : Tree} :
    clause.headerViolations = [] ↔
      1 ≤ clause.children.length ∧ (∃ child ∈ clause.children, child.kind = .identifier) ∧
        ∃ statement, clause.firstOf? .rolePlayer = some statement ∧
          3 ≤ statement.children.length := by
  have named : clause.firstOf? .identifier ≠ none ↔
      ∃ child ∈ clause.children, child.kind = .identifier := by
    simp [firstOf?]
  rw [headerViolations, List.append_eq_nil_iff, List.append_eq_nil_iff, and_assoc]
  refine and_congr ?_ (and_congr ?_ ?_)
  · simp [Nat.one_le_iff_ne_zero]
  · rw [← named]
    simp
  · cases clause.firstOf? .rolePlayer with
    | none => simp
    | some statement => simp

theorem operationViolations_eq_nil_iff {node : Tree} :
    node.operationViolations = [] ↔
      (node.kind = .timeout → 3 ≤ node.children.length) ∧
        (node.kind = .messageContent → node.children.length ∈ [3, 4, 6]) := by
  unfold operationViolations
  split
  · next kind => simp [kind]
  · next kind =>
      rw [kind]
      constructor
      · intro none
        refine ⟨fun other => absurd other (by decide), fun _ => ?_⟩
        by_contra arity
        rw [if_neg arity] at none
        cases none
      · rintro ⟨-, arity⟩
        exact if_pos (arity rfl)
  · next notTimeout notCondition =>
      exact ⟨fun _ => ⟨fun kind => absurd kind notTimeout, fun kind => absurd kind notCondition⟩,
        fun _ => rfl⟩

/-- Nothing is missing in a clause exactly if it is complete. -/
theorem clauseViolations_eq_nil_iff {clause : Tree} :
    clause.clauseViolations = [] ↔ clause.IsComplete := by
  rw [clauseViolations, List.append_eq_nil_iff, headerViolations_eq_nil_iff,
    List.flatMap_eq_nil_iff]
  constructor
  · rintro ⟨⟨opened, named, role⟩, operations⟩
    refine ⟨opened, named, role, fun node member => ?_, fun node member => ?_⟩
    · obtain ⟨listed, kind⟩ := (mem_reach_iff_operationNodes (by simp)).mp member
      exact (operationViolations_eq_nil_iff.mp (operations node listed)).1 kind
    · obtain ⟨listed, kind⟩ := (mem_reach_iff_operationNodes (by simp)).mp member
      exact (operationViolations_eq_nil_iff.mp (operations node listed)).2 kind
  · intro complete
    refine ⟨⟨complete.opened, complete.named, complete.role⟩, fun node member => ?_⟩
    refine operationViolations_eq_nil_iff.mpr ⟨fun kind => ?_, fun kind => ?_⟩
    · exact complete.timeouts node ((mem_reach_iff_operationNodes (by simp)).mpr ⟨member, kind⟩)
    · exact complete.conditions node ((mem_reach_iff_operationNodes (by simp)).mpr ⟨member, kind⟩)

theorem violations_eq_nil_iff {contract : Tree} :
    contract.violations = [] ↔
      ∀ clause ∈ contract.reach [[.clauses], [.clause]], clause.IsComplete := by
  rw [violations, List.flatMap_eq_nil_iff]
  exact forall₂_congr fun clause _ => clauseViolations_eq_nil_iff

end Tree

/-- A contract is assembled exactly if every clause that it comes to is complete, and otherwise the
assembly fails at the first violation. A root of another kind is reported as such, and not as a
place that is missing. -/
theorem Contract.ofTree_outcome (tree : Tree) :
    (tree.kind = .contract →
      ((∃ contract, Contract.ofTree tree = .ok contract) ↔
        ∀ clause ∈ tree.reach [[.clauses], [.clause]], clause.IsComplete) ∧
      ((¬ ∀ clause ∈ tree.reach [[.clauses], [.clause]], clause.IsComplete) →
        ∃ fault place, Contract.ofTree tree = .error fault ∧
          tree.violations.head? = some place ∧ fault.place? = some place)) ∧
    (tree.kind ≠ .contract →
      Contract.ofTree tree = .error (.notContract tree.kind) ∧
        (Fault.notContract tree.kind).place? = none) := by
  refine ⟨fun kind => ?_, fun kind => ⟨?_, rfl⟩⟩
  · rw [← Tree.violations_eq_nil_iff]
    have reports := Contract.reports_ofTree kind
    cases found : tree.violations with
    | nil =>
        rw [found] at reports
        exact ⟨⟨fun _ => rfl, fun _ => reports⟩, fun incomplete => absurd rfl incomplete⟩
    | cons place later =>
        rw [found] at reports
        obtain ⟨fault, failed, located⟩ := reports
        refine ⟨⟨?_, fun none => absurd none (by simp)⟩,
          fun _ => ⟨fault, place, failed, rfl, located⟩⟩
        rintro ⟨contract, made⟩
        rw [failed] at made
        cases made
  · rw [Contract.ofTree, Assembly.contract, if_pos kind]
    rfl

/-- A contract with several things missing: a presence check in a block of variables has no
children, the role of the first clause and its timeout have no operand, and the second clause is
empty. -/
def brokenContract : Tree :=
  let entry := fun operation => Tree.inner .termOrWhen [.inner .term [operation]]
  .inner .contract
    [.inner .variableBlock [.inner .variableStatement [.inner .term [.inner .messageContent []]]],
      .inner .clauses
        [.inner .clause
          [.leaf .clauseType "right",
            .inner .terms [entry (.inner .timeout [.leaf .token "Timeout"])],
            .leaf .identifier "r", .inner .rolePlayer [.leaf .token "rolePlayer"]],
          .inner .clause []]]

/-- Of five violations the first in the order of reading is reported, although the timeout stands
before the role; the block of variables is not looked at. -/
theorem Contract.ofTree_outcome_broken :
    brokenContract.violations
        = [(.rolePlayer, .position 2), (.timeout, .position 2), (.clause, .position 0),
          (.clause, .name), (.clause, .rolePlayer)] ∧
      (∃ fault, Contract.ofTree brokenContract = .error fault ∧
        fault.place? = some (.rolePlayer, .position 2)) ∧
      Contract.ofTree (.leaf .token "") = .error (.notContract .token) := by
  have listed : brokenContract.violations
      = [(.rolePlayer, .position 2), (.timeout, .position 2), (.clause, .position 0),
        (.clause, .name), (.clause, .rolePlayer)] := by
    decide
  have incomplete : ¬ ∀ clause ∈ brokenContract.reach [[.clauses], [.clause]],
      clause.IsComplete := by
    rw [← Tree.violations_eq_nil_iff, listed]
    simp
  obtain ⟨fault, place, failed, first, located⟩ :=
    ((Contract.ofTree_outcome brokenContract).1 rfl).2 incomplete
  rw [listed, List.head?_cons] at first
  cases first
  exact ⟨listed, ⟨fault, failed, located⟩,
    ((Contract.ofTree_outcome (.leaf .token "")).2 (by decide)).1⟩

end Covenant
