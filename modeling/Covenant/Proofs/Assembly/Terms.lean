import Covenant.Proofs.Assembly.Clause
import Covenant.Proofs.Tree
import Mathlib.Data.List.Basic

/-!
# Clauses as they are declared

What a clause has to be for its tree, said without the loop that assembles it. The operations of
a clause are the timeouts and message conditions at the end of one way down from it
(`Tree.operationNodes`), and those that become terms are all but the timeouts whose operand is no
number (`Tree.termNodes`). `Declares` asks that the terms of a clause are those of these nodes,
each named after its own position among them, that the header is what the header's readers give,
and that the last breach statement gives the error message.

Main statement: every clause that is assembled is declared by its tree, and its header and message
are the same for all trees that differ in their terms blocks only (`declares_of_ofTree`).
-/

set_option autoImplicit false

namespace Covenant

namespace Tree

/-! ## Operations of a clause -/

/-- The operations of a clause, in document order. -/
def operationNodes (clause : Tree) : List Tree :=
  clause.reach [[.terms], [.termOrWhen], [.term], [.timeout, .messageContent]]

/-- Whether an operation becomes a term. Only a timeout whose operand is no number does not. -/
def becomesTerm (node : Tree) : Bool :=
  node.kind != .timeout || Lexeme.isNumber (node.textAt 2)

/-- The operations of a clause that become terms. -/
def termNodes (clause : Tree) : List Tree :=
  clause.operationNodes.filter becomesTerm

/-- The message of the last breach statement of a clause, empty where there is none. -/
def lastBreachText (clause : Tree) : String :=
  lastOf loggedText "" (clause.pick [.onBreach])

/-- Two nodes of one kind that differ in their terms blocks only. The first child of a clause gives
its category whatever its kind, so it counts by what it reads as even if it is a terms block. -/
structure SameFrame (tree other : Tree) : Prop where
  kind : tree.kind = other.kind
  first : tree.children.head?.map text = other.children.head?.map text
  others : (tree.children.filter fun node => node.kind != .terms)
    = other.children.filter fun node => node.kind != .terms

theorem textAt_of_nth {index : Nat} {tree child : Tree} (h : tree.nth index = .ok child) :
    tree.textAt index = child.text := by
  unfold nth at h
  unfold textAt
  split at h
  · cases h
    rfl
  · cases h

theorem textAt_of_nth_error {index : Nat} {tree : Tree} {fault : Fault}
    (h : tree.nth index = .error fault) : tree.textAt index = "" := by
  unfold nth at h
  unfold textAt
  split at h
  · cases h
  · rfl

section SameFrame

variable {tree other : Tree} {kind : Kind}

theorem SameFrame.pick_eq (h : tree.SameFrame other) (kind : Kind) (notTerms : kind ≠ .terms) :
    tree.pick [kind] = other.pick [kind] :=
  pick_eq_of_filter_ne notTerms h.others

theorem SameFrame.firstOf?_eq (h : tree.SameFrame other) (notTerms : kind ≠ .terms) :
    tree.firstOf? kind = other.firstOf? kind := by
  rw [firstOf?_eq_head?_reach, firstOf?_eq_head?_reach, reach_singleton, reach_singleton,
    h.pick_eq kind notTerms]

theorem SameFrame.clauseCategory_eq (h : tree.SameFrame other) :
    tree.clauseCategory = other.clauseCategory := by
  have first := h.first
  have nth : (tree.nth 0).map text = (other.nth 0).map text := by
    rw [nth, nth, h.kind, ← List.head?_eq_getElem?, ← List.head?_eq_getElem?]
    cases found : tree.children.head? with
    | none =>
        rw [found, Option.map_none, eq_comm, Option.map_eq_none_iff] at first
        rw [first]
    | some child =>
        rw [found, Option.map_some, eq_comm, Option.map_eq_some_iff] at first
        obtain ⟨child', found', same⟩ := first
        rw [found']
        exact congrArg Except.ok same.symm
  have read : ∀ node : Tree, node.clauseCategory
      = node.expect [.clause] >>= fun _ => (node.nth 0).map text := fun _ => rfl
  rw [read, read, nth, expect, expect, h.kind]

end SameFrame

end Tree

namespace Assembly

variable {tree other : Tree}

/-! ## Routed children -/

/-- Reading the parts that a routing selects is reading the nodes of some kinds, if it is at every
single node. -/
theorem flatMap_select {α β : Type} {routing : Routing α} {kinds : List Kind}
    {readPart : α × Tree → List β} {readNode : Tree → List β}
    (agree : ∀ node : Tree, (routing.select [node]).flatMap readPart
      = if kinds.contains node.kind then readNode node else [])
    (nodes : List Tree) :
    (routing.select nodes).flatMap readPart
      = (nodes.filter fun node => kinds.contains node.kind).flatMap readNode := by
  induction nodes with
  | nil => rfl
  | cons node rest ih =>
      have split : routing.select (node :: rest) = routing.select [node] ++ routing.select rest :=
        List.filterMap_append (l := [node])
      rw [split, List.flatMap_append, agree, ih, List.filter_cons]
      by_cases routed : kinds.contains node.kind = true
      · rw [if_pos routed, if_pos routed, List.flatMap_cons]
      · rw [if_neg routed, if_neg routed, List.nil_append]

theorem operations_eq (tree : Tree) :
    operations tree = (tree.pick [.terms]).flatMap blockOperations := by
  apply flatMap_select
  rintro ⟨kind, _, _⟩
  cases kind with
  | terms => exact List.append_nil _
  | _ => rfl

theorem breachMessages_eq (tree : Tree) :
    breachMessages tree = (tree.pick [.onBreach]).map Tree.loggedText := by
  rw [breachMessages, List.filterMap_eq_flatMap_toList, List.map_eq_flatMap]
  apply flatMap_select
  rintro ⟨kind, _, _⟩
  cases kind <;> rfl

theorem map_snd_select_termRouting (nodes : List Tree) :
    (termRouting.select nodes).map Prod.snd
      = nodes.filter fun node => [.timeout, .messageContent].contains node.kind := by
  rw [List.map_eq_flatMap, ← List.flatMap_singleton' (nodes.filter _)]
  apply flatMap_select
  rintro ⟨kind, _, _⟩
  cases kind <;> rfl

/-- The operations that are assembled are those at the end of the way down. -/
theorem map_snd_operations (tree : Tree) :
    (operations tree).map Prod.snd = tree.operationNodes := by
  have below : ∀ term : Tree, (termRouting.select term.children).map Prod.snd
      = term.reach [[.timeout, .messageContent]] := by
    intro term
    rw [map_snd_select_termRouting, Tree.reach_singleton, Tree.pick]
  have block : ∀ terms : Tree, (blockOperations terms).map Prod.snd
      = terms.reach [[.termOrWhen], [.term], [.timeout, .messageContent]] := by
    intro terms
    simp only [blockOperations, List.map_flatMap, below]
    rfl
  rw [operations_eq, List.map_flatMap]
  simp only [block]
  rfl

/-- An operation is kept exactly if its node becomes a term. -/
theorem keeps_eq_becomesTerm {item : Operation × Tree} (kind : item.2.kind = item.1.kind) :
    keeps item = item.2.becomesTerm := by
  obtain ⟨sort, node⟩ := item
  cases sort with
  | messageContent => simp [keeps, Tree.becomesTerm, show node.kind = .messageContent from kind]
  | timeout =>
      have isTimeout : node.kind = .timeout := kind
      have duration : node.duration = node.nth 2 := by
        simp [Tree.duration, Tree.expect, isTimeout]
      simp only [keeps, Tree.becomesTerm, isTimeout, duration, bne_self_eq_false, Bool.false_or]
      cases found : node.nth 2 with
      | ok operand => rw [Tree.textAt_of_nth found]
      | error fault =>
          -- the text of a missing operand is empty, and that is no number
          rw [Tree.textAt_of_nth_error found]
          rfl

theorem map_snd_kept (tree : Tree) : (kept tree).map Prod.snd = tree.termNodes := by
  rw [kept, Tree.termNodes, ← map_snd_operations, List.filter_map]
  -- the kind of a node says which operation it was routed as, so both filters keep the same
  refine congrArg _ (List.filter_congr fun item member => ?_)
  exact keeps_eq_becomesTerm (kind_of_mem_operations member)

theorem exists_kept_of_termNodes {k : Nat} {node : Tree} (h : tree.termNodes[k]? = some node) :
    ∃ sort : Operation, (kept tree)[k]? = some (sort, node) ∧ node.kind = sort.kind := by
  rw [← map_snd_kept, List.getElem?_map] at h
  obtain ⟨⟨sort, found⟩, listed, rfl⟩ := Option.map_eq_some_iff.mp h
  have member := (List.mem_filter.mp (List.mem_of_getElem? listed)).1
  exact ⟨sort, listed, kind_of_mem_operations member⟩

/-! ## Headers -/

/-- A header is what its readers give. -/
theorem header_facts {head : Header} (h : header tree = .ok head) :
    tree.clauseCategory = .ok head.category ∧
      (∃ title, tree.clauseTitle = .ok title ∧ head.name = Name.ofClause head.category title) ∧
      ∃ statement, tree.roleStatement = .ok statement ∧ statement.statedRole = .ok head.role := by
  obtain ⟨category, categoryRead, h⟩ := bind_eq_ok_iff.mp h
  obtain ⟨title, titleRead, h⟩ := bind_eq_ok_iff.mp h
  obtain ⟨statement, statementRead, h⟩ := bind_eq_ok_iff.mp h
  obtain ⟨role, roleRead, h⟩ := bind_eq_ok_iff.mp h
  cases h
  exact ⟨categoryRead, ⟨title, titleRead, rfl⟩, statement, statementRead, roleRead⟩

/-- A header depends on the category and on the first nodes of two kinds. -/
theorem header_congr (kind : tree.kind = other.kind)
    (category : tree.clauseCategory = other.clauseCategory)
    (name : tree.firstOf? .identifier = other.firstOf? .identifier)
    (role : tree.firstOf? .rolePlayer = other.firstOf? .rolePlayer) :
    header tree = header other := by
  have title : tree.clauseTitle = other.clauseTitle := by
    rw [Tree.clauseTitle, Tree.clauseTitle, name, Tree.expect, Tree.expect, kind]
  have statement : tree.roleStatement = other.roleStatement := by
    rw [Tree.roleStatement, Tree.roleStatement, role, Tree.expect, Tree.expect, kind]
  rw [header, header, category, title, statement]

/-- The terms blocks of a clause have no part in its header. -/
theorem header_eq_of_sameFrame (h : tree.SameFrame other) : header tree = header other :=
  header_congr h.kind h.clauseCategory_eq (h.firstOf?_eq (by decide)) (h.firstOf?_eq (by decide))

end Assembly

/-! ## Declared clauses -/

/-- The term that a node stands for at a position of the clause of a name. -/
inductive TermFor (name : Name) (index : Nat) (node : Tree) : Term → Prop
  | timeout {operand : Tree} : node.kind = .timeout → node.duration = .ok operand →
      TermFor name index node
        (.timeout (name.extend [.word Vocabulary.timeoutTag, .index index]) operand.text)
  | messageContent {condition : Condition} : node.kind = .messageContent →
      Condition.ofTree node index = .ok condition →
      TermFor name index node
        (.messageContent (name.extend [.word Vocabulary.messageContentTag, .index index])
          condition.inputs condition.comparator? condition.operands)

/-- The clause is the one that the tree declares. -/
structure Declares (tree : Tree) (clause : Clause) : Prop where
  category : tree.clauseCategory = .ok clause.category
  name : ∃ title, tree.clauseTitle = .ok title ∧
    clause.name = Name.ofClause clause.category title
  rolePlayer : ∃ statement, tree.roleStatement = .ok statement ∧
    statement.statedRole = .ok clause.rolePlayer
  operation : clause.operation = clause.rolePlayer
  /-- There are as many terms as operations that become terms. -/
  count : clause.terms.length = tree.termNodes.length
  /-- Each of these operations has its term at its own position. -/
  term : ∀ k node, tree.termNodes[k]? = some node →
    ∃ term, clause.terms[k]? = some term ∧ TermFor clause.name k node term
  messages : clause.messages = { error := tree.lastBreachText, success := "" }

theorem Assembly.termFor_of_termOf {name : Name} {index : Nat} {sort : Operation} {node : Tree}
    {term : Term} (kind : node.kind = sort.kind)
    (h : termOf name index (sort, node) = .ok (some term)) : TermFor name index node term := by
  cases sort with
  | timeout =>
      obtain ⟨operand, read, made⟩ := bind_eq_ok_iff.mp h
      by_cases numeric : Lexeme.isNumber operand.text = true
      · rw [if_pos numeric] at made
        cases made
        exact .timeout kind read
      · rw [if_neg numeric] at made
        cases made
  | messageContent =>
      obtain ⟨condition, read, made⟩ := bind_eq_ok_iff.mp h
      cases made
      exact .messageContent kind read

theorem Assembly.length_of_assembled {name : Name} {start : Nat} {items : List (Operation × Tree)}
    {terms : List Term} (h : Assembled name start items terms) : terms.length = items.length := by
  rw [← List.Forall₂.length_eq h, List.length_zipIdx]

/-- A term is that of the operation at its position. -/
theorem Assembly.Assembled.exists_item {name : Name} {items : List (Operation × Tree)}
    {terms : List Term} {start k : Nat} {term : Term} (h : Assembled name start items terms)
    (found : terms[k]? = some term) :
    ∃ item, items[k]? = some item ∧ termOf name (start + k) item = .ok (some term) := by
  have bound : k < items.length := by
    rw [← length_of_assembled h]
    exact (List.getElem?_eq_some_iff.mp found).1
  obtain ⟨other, listed, made⟩ := h.exists_term (List.getElem?_eq_getElem bound)
  obtain rfl : other = term := Option.some.inj (listed.symm.trans found)
  exact ⟨_, List.getElem?_eq_getElem bound, made⟩

/-- An assembled clause is the one that its tree declares. -/
theorem Declares.of_ofTree {tree : Tree} {clause : Clause} (h : Clause.ofTree tree = .ok clause) :
    Declares tree clause := by
  obtain ⟨head, terms, opened, assembled, rfl⟩ := Assembly.assembled_of_ofTree h
  obtain ⟨category, name, role⟩ := Assembly.header_facts opened
  refine ⟨category, name, role, rfl, ?_, ?_, ?_⟩
  · rw [← Assembly.map_snd_kept, List.length_map]
    exact Assembly.length_of_assembled assembled
  · -- the counter of the assembly starts at zero and moves with the kept operations only
    intro k node listed
    obtain ⟨sort, kept, kind⟩ := Assembly.exists_kept_of_termNodes listed
    obtain ⟨term, found, made⟩ := assembled.exists_term kept
    rw [Nat.zero_add] at made
    exact ⟨term, found, Assembly.termFor_of_termOf kind made⟩
  · rw [Assembly.clauseWith, Assembly.breachMessages_eq, List.getLast?_map]
    rfl

/-- Clauses whose trees differ in their terms blocks only differ in terms and inputs only. -/
theorem Clause.eq_of_sameFrame {tree other : Tree} {clause clause' : Clause}
    (frame : tree.SameFrame other) (h : Clause.ofTree tree = .ok clause)
    (h' : Clause.ofTree other = .ok clause') :
    clause' = { clause with terms := clause'.terms, inputs := clause'.inputs } := by
  obtain ⟨head, terms, opened, -, rfl⟩ := Assembly.assembled_of_ofTree h
  obtain ⟨head', terms', opened', -, rfl⟩ := Assembly.assembled_of_ofTree h'
  rw [Assembly.header_eq_of_sameFrame frame, opened'] at opened
  cases opened
  simp only [Assembly.clauseWith, Assembly.breachMessages_eq, frame.pick_eq .onBreach (by decide)]

/-- A clause that is assembled is the one that its tree declares: its terms are those of the
operations that become terms, each at its own position. Its header and its messages are the same
for all trees that differ in their terms blocks only. -/
theorem Clause.declares_of_ofTree {tree : Tree} {clause : Clause}
    (h : Clause.ofTree tree = .ok clause) :
    Declares tree clause ∧
      ∀ other clause', tree.SameFrame other → Clause.ofTree other = .ok clause' →
        clause' = { clause with terms := clause'.terms, inputs := clause'.inputs } :=
  ⟨.of_ofTree h, fun _ _ frame h' => Clause.eq_of_sameFrame frame h h'⟩

/-- A clause around some blocks, with two breach statements. -/
def framedClause (blocks : List Tree) : Tree :=
  let word := Tree.leaf .token
  let breach := fun text => Tree.inner .onBreach
    [word "onBreach", word "(", word "log", word "(", .leaf .string text, word ")", word ")"]
  .inner .clause <|
    [.leaf .clauseType "right", .leaf .identifier "r", breach "\"early\"",
      .inner .rolePlayer [word "rolePlayer", word "=", .leaf .identifier "process"]]
    ++ blocks ++ [breach "\"late\""]

/-- Two terms blocks. The first holds a timeout under a name, which is left out, and a comparison
of numbers; the second a timeout and a presence check. -/
def twoBlocks : List Tree :=
  let word := Tree.leaf .token
  let entry := fun operation => Tree.inner .termOrWhen [word "and", .inner .term [operation]]
  let timeout := fun operand =>
    entry (.inner .timeout [word "Timeout", word "(", operand, word ")"])
  let message := fun operands =>
    entry (.inner .messageContent ([word "MessageContent", word "("] ++ operands ++ [word ")"]))
  [.inner .terms
    [timeout (.leaf .identifier "soon"),
      message [.leaf .number "1", .leaf .comparator "<", .leaf .number "2"]],
    .inner .terms [timeout (.leaf .number "9"), message []]]

/-- The second block goes on counting, and the clause without blocks has the same header and
message. -/
theorem Clause.declares_of_ofTree_twoBlocks :
    ∃ clause bare, Clause.ofTree (framedClause twoBlocks) = .ok clause ∧
      Clause.ofTree (framedClause []) = .ok bare ∧
        Declares (framedClause twoBlocks) clause ∧
          (clause.terms.map fun term => term.name.camel)
            = ["rightRMessageContent0", "rightRTimeout1", "rightRMessageContent2"] ∧
            bare = { clause with terms := [], inputs := [] } := by
  have full : Clause.ofTree (framedClause twoBlocks) = .ok _ := rfl
  have empty : Clause.ofTree (framedClause []) = .ok _ := rfl
  have frame : (framedClause twoBlocks).SameFrame (framedClause []) := ⟨rfl, rfl, rfl⟩
  obtain ⟨declared, framed⟩ := Clause.declares_of_ofTree full
  exact ⟨_, _, full, empty, declared, rfl, framed _ _ frame empty⟩

end Covenant
