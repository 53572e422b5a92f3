import Covenant.Proofs.Compile
import Covenant.Proofs.Grammar.Descent

/-!
# Connectives between terms

In a block of terms the language has a connective, `and` or `or`, before every term but the first
(`Tree.Connected`). The production of an entry asks for less. A connective is an option of each
entry by itself, and no entry knows whether it is the first one of its block.

So a block of a document that is read has at least one entry, and each entry is a term after a
connective or a term alone, but which of the two it is does not depend on its position. Main
statement: the connectives of a document can be put, left out and exchanged at will
(`Tree.rejoin`). The result is again the tree of a document, and this document compiles to the same
contract (`Document.connectives_of_parse`).
-/

set_option autoImplicit false

namespace Covenant

namespace Tree

variable {block entry : Tree}

/-! ## Where connectives stand -/

/-- The entries of a block of terms. -/
def entries (block : Tree) : List Tree :=
  block.pick [.termOrWhen]

/-- The entry is a term after the word, or a term alone if there is no word. -/
def Follows (word : Option String) (entry : Tree) : Prop :=
  ∃ term : Tree, term.kind = .term ∧ entry.children = (word.map token).toList ++ [term]

/-- The first entry of the block is a term alone, and every later one is a term after a
connective. -/
def Connected (block : Tree) : Prop :=
  ∃ first others, block.entries = first :: others ∧ first.Follows none ∧
    ∀ other ∈ others, ∃ word ∈ Vocabulary.connectives, other.Follows (some word)

/-- Each entry of the block follows the word that is given for its position. -/
def JoinedBy (place : Nat → Option String) (block : Tree) : Prop :=
  ∀ (index : Nat) (entry : Tree), block.entries[index]? = some entry →
    entry.Follows (place index)

theorem Follows.length_eq {word : Option String} (h : entry.Follows word) :
    entry.children.length = word.toList.length + 1 := by
  obtain ⟨term, -, children⟩ := h
  cases word <;> simp [children]

theorem Follows.pick_term {word : Option String} (h : entry.Follows word) :
    ∃ term : Tree, term.kind = .term ∧ entry.pick [.term] = [term] := by
  obtain ⟨term, kind, children⟩ := h
  refine ⟨term, kind, ?_⟩
  cases word <;> simp [pick, children, kind, token]

theorem WellFormed.entries_ne_nil (h : block.WellFormed) (kind : block.kind = .terms) :
    block.entries ≠ [] := by
  obtain ⟨first, others, firstKind, -, children⟩ := h.production kind rfl
  apply List.ne_nil_of_mem (a := first)
  simp [entries, pick, children, firstKind]

/-- An entry is a term, possibly after a connective. -/
theorem WellFormed.exists_follows (h : entry.WellFormed) (kind : entry.kind = .termOrWhen) :
    ∃ word : Option String, (∀ text ∈ word, text ∈ Vocabulary.connectives) ∧
      entry.Follows word := by
  obtain ⟨word, term, made, termKind, children⟩ := h.production kind rfl
  cases word with
  | none => exact ⟨none, by simp, term, termKind, children⟩
  | some word =>
      have accepted := (made word rfl).accepts
      obtain ⟨leafKind, text, found, rfl⟩ := (made word rfl).exists_leaf
      cases found
      have listed : String.ofList text.toList ∈ Vocabulary.connectives := by
        rwa [text_leaf] at accepted
      rw [String.ofList_toList] at listed
      exact ⟨some text, by simpa using listed, term, termKind, children⟩

theorem WellFormed.of_mem_entries (h : block.WellFormed) (member : entry ∈ block.entries) :
    entry.WellFormed ∧ entry.kind = .termOrWhen := by
  obtain ⟨child, listed⟩ := List.mem_filter.mp member
  exact ⟨h.of_mem_children child, by simpa using listed⟩

/-- Whether the connectives are in place can be told from how many children the entries have. -/
theorem WellFormed.connected_iff (h : block.WellFormed) (kind : block.kind = .terms) :
    block.Connected ↔ ∀ index entry, block.entries[index]? = some entry →
      entry.children.length = if index = 0 then 1 else 2 := by
  constructor
  · rintro ⟨first, others, listed, alone, joined⟩ index entry found
    rw [listed] at found
    cases index with
    | zero =>
        obtain rfl : first = entry := by simpa using found
        exact alone.length_eq
    | succ index =>
        obtain ⟨word, -, follows⟩ := joined entry (List.mem_of_getElem? found)
        exact follows.length_eq
  · intro counts
    obtain ⟨first, others, listed⟩ := List.exists_cons_of_ne_nil (h.entries_ne_nil kind)
    have spelled (entry : Tree) (member : entry ∈ block.entries) :
        ∃ word : Option String, (∀ text ∈ word, text ∈ Vocabulary.connectives) ∧
          entry.Follows word :=
      (h.of_mem_entries member).1.exists_follows (h.of_mem_entries member).2
    -- the number of children decides which of the two forms an entry has
    refine ⟨first, others, listed, ?_, ?_⟩
    · obtain ⟨word, -, follows⟩ := spelled first (by simp [listed])
      have count := counts 0 first (by simp [listed])
      cases word with
      | none => exact follows
      | some word => cases follows.length_eq.symm.trans count
    · intro other member
      obtain ⟨index, found⟩ := List.mem_iff_getElem?.mp member
      obtain ⟨word, known, follows⟩ := spelled other (by simp [listed, member])
      have count := counts (index + 1) other (by simpa [listed] using found)
      cases word with
      | none => cases follows.length_eq.symm.trans count
      | some word => exact ⟨word, known word rfl, follows⟩

end Tree

/-! ## Replacing nodes by others of their kind -/

/-- A pattern looks at inner nodes by their kind only. -/
theorem Pattern.Allows.map {pattern : Pattern} {nodes : List Tree} {f : Tree → Tree}
    (h : pattern.Allows nodes) (kinds : ∀ node, (f node).kind = node.kind)
    (leaves : ∀ (terminal : Terminal) (node : Tree), terminal.Makes node → f node = node) :
    pattern.Allows (nodes.map f) := by
  induction pattern generalizing nodes with
  | terminal terminal =>
      obtain ⟨lexeme, accepted, rfl⟩ := h
      refine ⟨lexeme, accepted, ?_⟩
      refine (List.map_congr_left fun node member => ?_).trans (List.map_id _)
      exact leaves terminal node (Terminal.makes_of_mem_leaves accepted member)
  | sequence first second ihFirst ihSecond =>
      obtain ⟨front, back, allowedFront, allowedBack, rfl⟩ := h
      exact ⟨_, _, ihFirst allowedFront, ihSecond allowedBack, List.map_append⟩
  | choice first second ihFirst ihSecond =>
      rcases h with allowed | allowed
      · exact Or.inl (ihFirst allowed)
      · exact Or.inr (ihSecond allowed)
  | maybe pattern ih =>
      rcases h with rfl | allowed
      · exact Or.inl rfl
      · exact Or.inr (ih allowed)
  | many pattern ih =>
      obtain ⟨rounds, allowed, rfl⟩ := h
      refine ⟨rounds.map (List.map f), ?_, List.map_flatten⟩
      intro round member
      obtain ⟨round, listed, rfl⟩ := List.mem_map.mp member
      exact ih (allowed round listed)
  | node kind pattern =>
      obtain ⟨node, sameKind, rfl⟩ := h
      exact ⟨f node, (kinds node).trans sameKind, rfl⟩

namespace Tree

variable {tree node block entry : Tree} {kind other : Kind} {f : Tree → Tree}
  {place : Nat → Option String}

/-- The node with those of its children that are of the kind put through a function. -/
def mapChildren (kind : Kind) (f : Tree → Tree) (tree : Tree) : Tree :=
  inner tree.kind (tree.children.map fun child => if child.kind = kind then f child else child)

/-- The function gives nodes of the kind for nodes of the kind. -/
def KeepsKind (kind : Kind) (f : Tree → Tree) : Prop :=
  ∀ node : Tree, node.kind = kind → (f node).kind = kind

theorem keepsKind_mapChildren : KeepsKind kind (mapChildren other f) :=
  fun _ same => same

theorem KeepsKind.kind_ite (keeps : KeepsKind kind f) (node : Tree) :
    (if node.kind = kind then f node else node).kind = node.kind := by
  split
  · next same => exact (keeps node same).trans same.symm
  · rfl

/-- A node stays well formed if children are replaced by well-formed ones of their kind. -/
theorem wellFormed_mapChildren (h : tree.WellFormed)
    (isInner : (Grammar.production tree.kind).isSome = true)
    (innerKind : (Grammar.production kind).isSome = true) (keeps : KeepsKind kind f)
    (formed : ∀ node : Tree, node.kind = kind → node.WellFormed → (f node).WellFormed) :
    (tree.mapChildren kind f).WellFormed := by
  obtain ⟨pattern, rule, -⟩ := Grammar.exists_production isInner
  have allowed := (Pattern.allows_production_iff rule).mpr (h.production rfl isInner)
  -- no leaf is replaced, since the kind is that of an inner node
  have mapped := allowed.map keeps.kind_ite fun terminal node made => by
    have leaf := made.production_eq_none
    refine if_neg ?_
    rintro rfl
    rw [leaf] at innerKind
    cases innerKind
  refine wellFormed_inner ((Pattern.allows_production_iff rule).mp mapped) ?_
  intro child member
  obtain ⟨node, listed, rfl⟩ := List.mem_map.mp member
  have below := h.of_mem_children listed
  split
  · next same => exact formed node same below
  · exact below

theorem KeepsKind.pick_mapChildren (keeps : KeepsKind kind f) :
    (tree.mapChildren kind f).pick [other]
      = (tree.pick [other]).map fun child => if child.kind = kind then f child else child := by
  rw [pick_singleton, pick_singleton, mapChildren, children_inner, List.filter_map]
  congr 1
  apply List.filter_congr
  intro child _
  rw [Function.comp_apply, keeps.kind_ite]

theorem KeepsKind.pick_mapChildren_self (keeps : KeepsKind kind f) :
    (tree.mapChildren kind f).pick [kind] = (tree.pick [kind]).map f := by
  rw [keeps.pick_mapChildren]
  apply List.map_congr_left
  intro child member
  rw [pick_singleton, List.mem_filter, beq_iff_eq] at member
  exact if_pos member.2

theorem KeepsKind.pick_mapChildren_of_ne (keeps : KeepsKind kind f) (different : other ≠ kind) :
    (tree.mapChildren kind f).pick [other] = tree.pick [other] := by
  rw [keeps.pick_mapChildren]
  refine (List.map_congr_left fun child member => ?_).trans (List.map_id _)
  rw [pick_singleton, List.mem_filter, beq_iff_eq] at member
  exact if_neg (member.2 ▸ different)

theorem textAt_mapChildren {index : Nat} {child : Tree}
    (found : tree.children[index]? = some child) (different : child.kind ≠ kind) :
    (tree.mapChildren kind f).textAt index = tree.textAt index := by
  simp [textAt, mapChildren, found, different]

/-! ## Exchanging connectives -/

/-- The entry with the word before its term, whatever stood there. -/
def rejoinEntry (word : Option String) (entry : Tree) : Tree :=
  inner .termOrWhen ((word.map token).toList ++ entry.pick [.term])

/-- The block with the given word before the term at each position. -/
def rejoinBlock (place : Nat → Option String) (block : Tree) : Tree :=
  inner .terms ([token "terms", token "\x7b"]
    ++ block.entries.mapIdx (fun index => rejoinEntry (place index)) ++ [token "\x7d"])

/-- The clause with other connectives in its terms. -/
def rejoinClause (place : Nat → Option String) : Tree → Tree :=
  mapChildren .terms (rejoinBlock place)

/-- The contract with the given word before the term at each position, in the terms of each of its
clauses. -/
def rejoin (place : Nat → Option String) : Tree → Tree :=
  mapChildren .clauses (mapChildren .clause (rejoinClause place))

theorem keepsKind_rejoinBlock : KeepsKind .terms (rejoinBlock place) :=
  fun _ _ => rfl

theorem keepsKind_rejoinClause : KeepsKind .clause (rejoinClause place) :=
  keepsKind_mapChildren

theorem entries_rejoinBlock :
    (block.rejoinBlock place).entries
      = block.entries.mapIdx fun index => rejoinEntry (place index) := by
  have all : ∀ entry ∈ block.entries.mapIdx fun index => rejoinEntry (place index),
      entry.kind = .termOrWhen := by
    intro entry member
    obtain ⟨index, _, rfl⟩ := List.mem_mapIdx.mp member
    rfl
  have kept : (block.entries.mapIdx fun index => rejoinEntry (place index)).filter
      (fun entry => entry.kind == .termOrWhen)
        = block.entries.mapIdx fun index => rejoinEntry (place index) := by
    apply List.filter_eq_self.mpr
    intro entry member
    rw [all entry member]
    rfl
  rw [rejoinBlock, entries, pick_singleton, children_inner, List.filter_append,
    List.filter_append, kept]
  simp [token]

/-- In the new block each entry follows the word for its position. -/
theorem WellFormed.joinedBy_rejoinBlock (h : block.WellFormed) :
    (block.rejoinBlock place).JoinedBy place := by
  intro index entry found
  rw [entries_rejoinBlock, List.getElem?_mapIdx] at found
  obtain ⟨old, listed, rfl⟩ := Option.map_eq_some_iff.mp found
  obtain ⟨formed, kind⟩ := h.of_mem_entries (List.mem_of_getElem? listed)
  obtain ⟨word, -, follows⟩ := formed.exists_follows kind
  obtain ⟨term, termKind, picked⟩ := follows.pick_term
  exact ⟨term, termKind, by rw [rejoinEntry, children_inner, picked]⟩

section Places

variable (known : ∀ index, ∀ word ∈ place index, word ∈ Vocabulary.connectives)

include known

theorem wellFormed_rejoinEntry (h : entry.WellFormed) (kind : entry.kind = .termOrWhen)
    (index : Nat) : (entry.rejoinEntry (place index)).WellFormed := by
  obtain ⟨word, -, follows⟩ := h.exists_follows kind
  obtain ⟨term, termKind, picked⟩ := follows.pick_term
  have made : ∀ tree ∈ (place index).map token, Terminal.connective.Makes tree := by
    intro tree member
    obtain ⟨text, found, rfl⟩ := Option.map_eq_some_iff.mp member
    have listed : String.ofList text.toList ∈ Vocabulary.connectives := by
      rw [String.ofList_toList]
      exact known index text found
    exact Terminal.makes_leaf rfl listed
  refine wellFormed_inner ⟨_, term, made, termKind, by rw [picked]⟩ ?_
  intro child member
  rw [List.mem_append, Option.mem_toList] at member
  rcases member with joined | kept
  · exact (made child joined).wellFormed
  · exact h.of_mem_children (List.mem_filter.mp kept).1

theorem wellFormed_rejoinBlock (h : block.WellFormed) (kind : block.kind = .terms) :
    (block.rejoinBlock place).WellFormed := by
  have fresh : ∀ entry ∈ block.entries.mapIdx fun index => rejoinEntry (place index),
      entry.WellFormed ∧ entry.kind = .termOrWhen := by
    intro entry member
    obtain ⟨index, _, rfl⟩ := List.mem_mapIdx.mp member
    obtain ⟨formed, entryKind⟩ := h.of_mem_entries (List.getElem_mem _)
    exact ⟨wellFormed_rejoinEntry known formed entryKind index, rfl⟩
  obtain ⟨first, others, listed⟩ := List.exists_cons_of_ne_nil
    (mt List.mapIdx_eq_nil_iff.mp (h.entries_ne_nil kind))
  rw [rejoinBlock, listed]
  rw [listed, List.forall_mem_cons] at fresh
  refine wellFormed_inner ⟨first, others, fresh.1.2, fun other member =>
    (fresh.2 other member).2, by simp⟩ ?_
  simp only [List.forall_mem_append, List.forall_mem_cons, List.not_mem_nil, false_implies,
    implies_true, and_true, wellFormed_token, true_and]
  exact ⟨fresh.1.1, fun other member => (fresh.2 other member).1⟩

theorem wellFormed_rejoinClause (h : node.WellFormed) (kind : node.kind = .clause) :
    (node.rejoinClause place).WellFormed :=
  wellFormed_mapChildren h (by rw [kind]; rfl) rfl keepsKind_rejoinBlock fun _ isTerms formed =>
    wellFormed_rejoinBlock known formed isTerms

/-- A contract with other connectives is well formed. -/
theorem wellFormed_rejoin (h : tree.WellFormed) (kind : tree.kind = .contract) :
    (tree.rejoin place).WellFormed := by
  refine wellFormed_mapChildren h (by rw [kind]; rfl) rfl keepsKind_mapChildren
    fun block isClauses formed => ?_
  exact wellFormed_mapChildren formed (by rw [isClauses]; rfl) rfl keepsKind_rejoinClause
    fun _ isClause formed => wellFormed_rejoinClause known formed isClause

end Places

/-! ## What does not change -/

theorem pick_rejoinEntry (word : Option String) (entry : Tree) :
    (entry.rejoinEntry word).pick [.term] = entry.pick [.term] := by
  have twice : (entry.pick [.term]).filter (fun node => node.kind == .term)
      = entry.pick [.term] := by
    rw [pick_singleton, List.filter_filter]
    simp
  rw [pick_singleton, rejoinEntry, children_inner, List.filter_append, twice]
  cases word <;> simp [token]

/-- The operations of a block stand below its terms, and none below a connective. -/
theorem reach_rejoinBlock (place : Nat → Option String) (block : Tree)
    (levels : List (List Kind)) :
    (block.rejoinBlock place).reach ([.termOrWhen] :: [.term] :: levels)
      = block.reach ([.termOrWhen] :: [.term] :: levels) := by
  have below (index : Nat) (entry : Tree) :
      (entry.rejoinEntry (place index)).reach ([.term] :: levels)
        = entry.reach ([.term] :: levels) := by
    rw [reach, reach, pick_rejoinEntry]
  have listed : (block.rejoinBlock place).pick [.termOrWhen]
      = block.entries.mapIdx fun index => rejoinEntry (place index) :=
    entries_rejoinBlock
  rw [reach, reach, listed, List.flatMap, map_mapIdx below]
  rfl

theorem operationNodes_rejoinClause :
    (node.rejoinClause place).operationNodes = node.operationNodes := by
  rw [operationNodes, operationNodes, reach, reach, rejoinClause,
    keepsKind_rejoinBlock.pick_mapChildren_self, List.flatMap_map]
  exact List.flatMap_congr fun block _ => reach_rejoinBlock place block _

/-- Of a clause with other connectives the same is kept. -/
theorem WellFormed.clauseSummary_rejoinClause (h : node.WellFormed)
    (kind : node.kind = .clause) :
    (node.rejoinClause place).clauseSummary = node.clauseSummary := by
  obtain ⟨category, title, _, _, _, _, madeCategory, madeTitle, -, -, -, -, children⟩ :=
    h.production kind rfl
  have categoryKind : category.kind = .clauseType := madeCategory.kind_eq rfl
  have titleKind : title.kind = .identifier := madeTitle.kind_eq rfl
  have first : (node.rejoinClause place).textAt 0 = node.textAt 0 :=
    textAt_mapChildren (show node.children[0]? = some category by simp [children])
      (by simp [categoryKind])
  have second : (node.rejoinClause place).textAt 1 = node.textAt 1 :=
    textAt_mapChildren (show node.children[1]? = some title by simp [children])
      (by simp [titleKind])
  have role : (node.rejoinClause place).roleText = node.roleText := by
    rw [roleText, roleText, rejoinClause,
      keepsKind_rejoinBlock.pick_mapChildren_of_ne (by decide)]
  have breach : (node.rejoinClause place).pick [.onBreach] = node.pick [.onBreach] :=
    keepsKind_rejoinBlock.pick_mapChildren_of_ne (by decide)
  rw [clauseSummary, clauseSummary, first, second, role, breach, operationNodes_rejoinClause]

theorem reach_rejoin (levels : List (List Kind)) :
    (tree.rejoin place).reach ([.clauses] :: [.clause] :: levels)
      = ((tree.reach [[.clauses], [.clause]]).map (rejoinClause place)).flatMap (reach levels) := by
  have below (block : Tree) :
      (mapChildren .clause (rejoinClause place) block).reach ([.clause] :: levels)
        = ((block.reach [[.clause]]).map (rejoinClause place)).flatMap (reach levels) := by
    rw [reach, keepsKind_rejoinClause.pick_mapChildren_self, reach_singleton]
  rw [reach, rejoin, keepsKind_mapChildren.pick_mapChildren_self, List.flatMap_map, reach,
    List.map_flatMap, List.flatMap_assoc]
  exact List.flatMap_congr fun block _ => below block

/-- Of a contract with other connectives the same is kept. -/
theorem WellFormed.summary_rejoin (h : tree.WellFormed) (kind : tree.kind = .contract) :
    (tree.rejoin place).summary = tree.summary := by
  obtain ⟨name, blocks, made, -, children⟩ := h.production kind rfl
  have nameKind : name.kind = .identifier := made.kind_eq rfl
  have title : (tree.rejoin place).textAt 1 = tree.textAt 1 :=
    textAt_mapChildren (show tree.children[1]? = some name by simp [children])
      (by simp [nameKind])
  -- only the blocks of clauses are gone into
  have heading (block statement : Kind) (different : block ≠ .clauses) :
      (tree.rejoin place).reach [[block], [statement]] = tree.reach [[block], [statement]] := by
    rw [reach, reach, rejoin, keepsKind_mapChildren.pick_mapChildren_of_ne different]
  have clauses : (tree.rejoin place).clauseNodes.map clauseSummary
      = tree.clauseNodes.map clauseSummary := by
    have nodes : (tree.rejoin place).clauseNodes = tree.clauseNodes.map (rejoinClause place) := by
      rw [clauseNodes, clauseNodes, reach_rejoin,
        show reach [] = fun node => [node] from funext reach_nil, List.flatMap_singleton']
    rw [nodes, List.map_map]
    apply List.map_congr_left
    intro node member
    have clauseKind := kind_of_mem_reach [[.clauses]] _ member
    exact (h.of_mem_reach member).clauseSummary_rejoinClause (by simpa using clauseKind)
  rw [summary, summary, title, clauses, heading _ _ (by decide), heading _ _ (by decide),
    heading _ _ (by decide), heading _ _ (by decide)]

/-! ## Blocks of terms, wherever they stand -/

/-- The kinds of nodes that are no blocks of terms and have none below them. -/
def termsless : List Kind :=
  Kind.all.filter fun kind => kind ∉ [Kind.contract, .clauses, .clause, .terms]

theorem confines_termsless : Grammar.confines termsless = true := by decide +kernel

/-- The blocks of terms in a contract are those of its clauses. -/
theorem WellFormed.mem_reach_terms (h : tree.WellFormed) (kind : tree.kind = .contract)
    (member : block ∈ tree :: tree.beneath) (isTerms : block.kind = .terms) :
    block ∈ tree.reach [[.clauses], [.clause], [.terms]] := by
  have found : tree.occurrences [.terms] = tree.reach [[.clauses], [.clause], [.terms]] :=
    h.occurrences_eq_reach confines_termsless (by decide) (by rw [kind]; decide +kernel)
  rw [← found]
  exact List.mem_filter.mpr ⟨member, by simp [isTerms]⟩

/-- In a contract with other connectives every block of terms has those that were given. -/
theorem WellFormed.joinedBy_rejoin (h : tree.WellFormed) (kind : tree.kind = .contract)
    (known : ∀ index, ∀ word ∈ place index, word ∈ Vocabulary.connectives) :
    ∀ block ∈ tree.rejoin place :: (tree.rejoin place).beneath, block.kind = .terms →
      block.JoinedBy place := by
  intro block member isTerms
  have listed := (wellFormed_rejoin known h kind).mem_reach_terms kind member isTerms
  rw [reach_rejoin, List.flatMap_map] at listed
  obtain ⟨clause, inTree, inClause⟩ := List.mem_flatMap.mp listed
  rw [reach_singleton, rejoinClause, keepsKind_rejoinBlock.pick_mapChildren_self] at inClause
  obtain ⟨old, picked, rfl⟩ := List.mem_map.mp inClause
  have formed := (h.of_mem_reach inTree).of_mem_children (List.mem_filter.mp picked).1
  exact formed.joinedBy_rejoinBlock

end Tree

/-! ## Connectives of documents -/

namespace Document

variable {source : String} {tree : Tree}

/-- The contract with given connectives is the tree of a document. -/
theorem exists_parse_rejoin (read : parse source = .ok tree) {place : Nat → Option String}
    (known : ∀ index, ∀ word ∈ place index, word ∈ Vocabulary.connectives) :
    ∃ other, parse other = .ok (tree.rejoin place) := by
  obtain ⟨kind, formed⟩ := Pattern.derives_contract_iff.mp (derives_of_parse read)
  have derived := Pattern.derives_contract_iff.mpr
    ⟨show (tree.rejoin place).kind = .contract from kind, Tree.wellFormed_rejoin known formed kind⟩
  have gap : Lexeme.Gap false [' '] := .blank (by decide) .nil
  exact ⟨_, parse_text derived _ (Tree.Layout.apart_uniform gap (by decide))⟩

/-- In a document that is read every block of terms has an entry, and its entries are terms with or
without a connective; the connectives are in place exactly if the first entry is a term alone and
every other one has two children. Nothing more can be said. With whatever connectives there is
another document, all of whose blocks have these, and both compile to the same contract. -/
theorem connectives_of_parse (read : parse source = .ok tree) :
    (∀ block ∈ tree :: tree.beneath, block.kind = .terms →
      block.entries ≠ [] ∧
      (∀ entry ∈ block.entries, ∃ word : Option String,
        (∀ text ∈ word, text ∈ Vocabulary.connectives) ∧ entry.Follows word) ∧
      (block.Connected ↔ ∀ (index : Nat) (entry : Tree), block.entries[index]? = some entry →
        entry.children.length = if index = 0 then 1 else 2)) ∧
    ∀ place : Nat → Option String,
      (∀ index, ∀ word ∈ place index, word ∈ Vocabulary.connectives) →
        (∀ block ∈ tree.rejoin place :: (tree.rejoin place).beneath, block.kind = .terms →
          block.JoinedBy place) ∧
        ∃ other, parse other = .ok (tree.rejoin place) ∧
          compile (.text other) = compile (.text source) := by
  obtain ⟨kind, formed⟩ := Pattern.derives_contract_iff.mp (derives_of_parse read)
  constructor
  · intro block member isTerms
    have blockFormed := formed.of_mem_reach (formed.mem_reach_terms kind member isTerms)
    refine ⟨blockFormed.entries_ne_nil isTerms, ?_, blockFormed.connected_iff isTerms⟩
    intro entry listed
    obtain ⟨entryFormed, entryKind⟩ := blockFormed.of_mem_entries listed
    exact entryFormed.exists_follows entryKind
  · intro place known
    refine ⟨formed.joinedBy_rejoin kind known, ?_⟩
    obtain ⟨other, read'⟩ := exists_parse_rejoin read known
    refine ⟨other, read', ?_⟩
    rw [compile_eq_summary read, compile_eq_summary read', formed.summary_rejoin kind]

/-- A block with a connective before its first term and none before the second. -/
def misplacedSource : String :=
  "contract c\x7bclauses\x7bright r\x7brolePlayer=process terms\x7b" ++
    "and Timeout(5)MessageContent()\x7d\x7d\x7d\x7d"

/-- The document is read, and its only block has an entry of two parts and one of one part. -/
theorem exists_parse_misplacedSource :
    ∃ tree, parse misplacedSource = .ok tree ∧ ((tree.occurrences [.terms]).map fun block =>
      block.entries.map fun entry => entry.children.length) = [[2, 1]] :=
  exists_parse_of_view (by decide +kernel)

/-- A connective before every term but the first one. -/
def properPlace (index : Nat) : Option String :=
  if index = 0 then none else some "and"

/-- The misplaced connectives can be put in place without a change of the contract. -/
theorem connectives_of_parse_misplaced :
    ∃ tree other, parse misplacedSource = .ok tree ∧
      parse other = .ok (tree.rejoin properPlace) ∧
      (∀ block ∈ tree.rejoin properPlace :: (tree.rejoin properPlace).beneath,
        block.kind = .terms → block.JoinedBy properPlace) ∧
      compile (.text other) = compile (.text misplacedSource) := by
  obtain ⟨tree, read, -⟩ := exists_parse_misplacedSource
  have known : ∀ index, ∀ word ∈ properPlace index, word ∈ Vocabulary.connectives := by
    intro index word member
    unfold properPlace at member
    split at member
    · cases member
    · cases member
      decide
  obtain ⟨-, free⟩ := connectives_of_parse read
  obtain ⟨placed, other, read', compiled⟩ := free properPlace known
  exact ⟨tree, other, read, read', placed, compiled⟩

/-- Connectives are not always in place: the first term of a block may have one. -/
theorem not_connected_of_parse :
    ¬ ∀ source tree, parse source = .ok tree →
      ∀ block ∈ tree :: tree.beneath, block.kind = .terms → block.Connected := by
  intro connected
  obtain ⟨tree, read, counts⟩ := exists_parse_misplacedSource
  obtain ⟨block, others, listed, entryCounts, -⟩ := List.map_eq_cons_iff.mp counts
  have occurs : block ∈ tree.occurrences [.terms] := by simp [listed]
  obtain ⟨member, isTerms⟩ := List.mem_filter.mp occurs
  obtain ⟨first, later, entries, alone, -⟩ :=
    connected misplacedSource tree read block member (by simpa using isTerms)
  rw [entries, List.map_cons, alone.length_eq] at entryCounts
  cases entryCounts

end Document

end Covenant
