import Covenant.Proofs.Grammar.Derivation

/-!
# Trees that the productions allow

`Production` lists, kind by kind, the children that a node may have: leaves with a lexeme of
their terminal, and nodes that are looked at by their kind only. A tree is well formed if all its
nodes conform to this (`Tree.WellFormed`). The statement is local, and independent of how the
patterns of the grammar are built.

Main statement: the grammar derives exactly the well-formed contracts (`derives_contract_iff`).
It rests on a fact about all patterns in which a kind has one production: a derivation is the
same as an allowed list of nodes with well-formed trees (`derives_iff_allows`).
-/

set_option autoImplicit false

namespace Covenant

/-- The leaf of a literal. -/
def Tree.token (text : String) : Tree :=
  leaf .token text

/-- The tree is the leaf of a lexeme of the terminal. -/
def Terminal.Makes (terminal : Terminal) (tree : Tree) : Prop :=
  ∃ lexeme, terminal.Accepts lexeme ∧ terminal.leaves lexeme = [tree]

/-! ## Child lists -/

namespace Shape

open Terminal Covenant.Tree

/-- An operand of a comparison. -/
def IsValue (tree : Tree) : Prop :=
  number.Makes tree ∨ string.Makes tree ∨ identifier.Makes tree

/-- An operand of a party statement. -/
def IsParty (tree : Tree) : Prop :=
  string.Makes tree ∨ identifier.Makes tree

/-- An operand of a date statement. -/
def IsMoment (tree : Tree) : Prop :=
  datetime.Makes tree ∨ date.Makes tree

/-- The operand of a timeout. -/
def IsDuration (tree : Tree) : Prop :=
  number.Makes tree ∨ identifier.Makes tree

/-- A block of a contract. -/
def IsBlock (tree : Tree) : Prop :=
  tree.kind = .variableBlock ∨ tree.kind = .dates ∨ tree.kind = .parties ∨ tree.kind = .clauses

end Shape

open Terminal Covenant.Tree Shape in
/-- The children that the production of a kind allows. -/
def Production : Kind → List Tree → Prop
  | .contract, children => ∃ name blocks,
      identifier.Makes name ∧ (∀ block ∈ blocks, IsBlock block) ∧
        children = [token "contract", name, token "\x7b"] ++ blocks ++ [token "\x7d"]
  | .variableBlock, children => ∃ statements : List Tree,
      (∀ statement ∈ statements, statement.kind = .variableStatement) ∧
        children = [token "variables", token "\x7b"] ++ statements ++ [token "\x7d"]
  | .variableStatement, children => ∃ name term : Tree,
      identifier.Makes name ∧ term.kind = .term ∧ children = [name, token "=", term]
  | .dates, children => ∃ beginning due : Tree,
      beginning.kind = .beginDate ∧ due.kind = .dueDate ∧
        children = [token "dates", token "\x7b", beginning, due, token "\x7d"]
  | .beginDate, children => ∃ moment,
      IsMoment moment ∧ children = [token "beginDate", token "=", moment]
  | .dueDate, children => ∃ moment,
      IsMoment moment ∧ children = [token "dueDate", token "=", moment]
  | .parties, children => ∃ application process : Tree,
      application.kind = .application ∧ process.kind = .process ∧
        children = [token "parties", token "\x7b", application, process, token "\x7d"]
  | .application, children => ∃ party,
      IsParty party ∧ children = [token "application", token "=", party]
  | .process, children => ∃ party,
      IsParty party ∧ children = [token "process", token "=", party]
  | .clauses, children => ∃ clauses : List Tree,
      (∀ clause ∈ clauses, clause.kind = .clause) ∧
        children = [token "clauses", token "\x7b"] ++ clauses ++ [token "\x7d"]
  | .clause, children =>
      ∃ (category title role : Tree) (operation : Option Tree) (terms : Tree)
        (breach : Option Tree),
      clauseType.Makes category ∧ identifier.Makes title ∧ role.kind = .rolePlayer ∧
        (∀ tree ∈ operation, tree.kind = .operation) ∧ terms.kind = .terms ∧
        (∀ tree ∈ breach, tree.kind = .onBreach) ∧
          children = [category, title, token "\x7b", role] ++ operation.toList ++ [terms]
            ++ breach.toList ++ [token "\x7d"]
  | .rolePlayer, children => ∃ role,
      partyRole.Makes role ∧ children = [token "rolePlayer", token "=", role]
  | .operation, children => ∃ name,
      identifier.Makes name ∧ children = [token "operation", token "=", name]
  | .terms, children => ∃ (first : Tree) (others : List Tree),
      first.kind = .termOrWhen ∧ (∀ other ∈ others, other.kind = .termOrWhen) ∧
        children = [token "terms", token "\x7b", first] ++ others ++ [token "\x7d"]
  | .onBreach, children => ∃ message,
      string.Makes message ∧
        children = [token "onBreach", token "(", token "log", token "(", message, token ")",
          token ")"]
  | .termOrWhen, children => ∃ (word : Option Tree) (term : Tree),
      (∀ tree ∈ word, connective.Makes tree) ∧ term.kind = .term ∧
        children = word.toList ++ [term]
  | .term, children => ∃ operation : Tree,
      (operation.kind = .timeout ∨ operation.kind = .messageContent) ∧ children = [operation]
  | .timeout, children => ∃ duration,
      IsDuration duration ∧ children = [token "Timeout", token "(", duration, token ")"]
  | .messageContent, children =>
      children = [token "MessageContent", token "(", token ")"] ∨
        (∃ value, IsValue value ∧
          children = [token "MessageContent", token "(", value, token ")"]) ∨
        ∃ left sign right, IsValue left ∧ comparator.Makes sign ∧ IsValue right ∧
          children = [token "MessageContent", token "(", left, sign, right, token ")"]
  | _, _ => False

namespace Tree

/-- A leaf of a terminal, or a node with children that its production allows. -/
inductive Conforms : Tree → Prop
  | leaf {terminal : Terminal} {tree : Tree} : terminal.Makes tree → Conforms tree
  | inner {kind : Kind} {children : List Tree} :
      Production kind children → Conforms (Tree.inner kind children)

/-- All nodes of the tree conform. -/
def WellFormed (tree : Tree) : Prop :=
  ∀ node ∈ tree :: tree.beneath, node.Conforms

/-- A tree is well formed exactly if its root conforms and the trees below are well formed. -/
theorem wellFormed_iff {tree : Tree} :
    tree.WellFormed ↔ tree.Conforms ∧ ∀ child ∈ tree.children, child.WellFormed := by
  rw [WellFormed, beneath_eq_flatMap, List.forall_mem_cons]
  refine and_congr_right fun _ => ?_
  simp only [List.mem_flatMap]
  constructor
  · intro all child member node below
    exact all node ⟨child, member, below⟩
  · rintro all node ⟨child, member, below⟩
    exact all child member node below

end Tree

/-! ## Productions of the grammar -/

/-- The pattern of the production of a kind. -/
def Grammar.production : Kind → Option Pattern
  | .contract => some contract
  | .variableBlock => some variableBlock
  | .variableStatement => some variableStatement
  | .dates => some dates
  | .beginDate => some beginDate
  | .dueDate => some dueDate
  | .parties => some parties
  | .application => some application
  | .process => some process
  | .clauses => some clauses
  | .clause => some clause
  | .rolePlayer => some rolePlayer
  | .operation => some operation
  | .terms => some terms
  | .onBreach => some onBreach
  | .termOrWhen => some termOrWhen
  | .term => some term
  | .timeout => some timeout
  | .messageContent => some messageContent
  | _ => none

namespace Terminal

variable {terminal : Terminal} {tree : Tree}

theorem Makes.exists_leaf (made : terminal.Makes tree) :
    ∃ kind text, terminal.leafKind? = some kind ∧ tree = Tree.leaf kind text := by
  obtain ⟨lexeme, -, same⟩ := made
  unfold leaves at same
  split at same
  · next kind found => exact ⟨kind, String.ofList lexeme, found, (List.singleton_inj.mp same).symm⟩
  · cases same

theorem Makes.leafKind?_eq (made : terminal.Makes tree) : terminal.leafKind? = some tree.kind := by
  obtain ⟨kind, text, found, rfl⟩ := made.exists_leaf
  exact found

theorem Makes.kind_eq {kind : Kind} (made : terminal.Makes tree)
    (leaf : terminal.leafKind? = some kind) : tree.kind = kind :=
  Option.some.inj (made.leafKind?_eq.symm.trans leaf)

/-- The leaf of a terminal reads as one of its lexemes. -/
theorem Makes.accepts (made : terminal.Makes tree) : terminal.Accepts tree.text.toList := by
  obtain ⟨lexeme, accepted, same⟩ := made
  unfold leaves at same
  split at same
  · cases same
    rwa [Tree.text_leaf, String.toList_ofList]
  · cases same

theorem makes_of_mem_leaves {lexeme : List Char} (accepted : terminal.Accepts lexeme)
    (member : tree ∈ terminal.leaves lexeme) : terminal.Makes tree := by
  refine ⟨lexeme, accepted, ?_⟩
  unfold leaves at member ⊢
  split at member
  · rw [List.mem_singleton.mp member]
  · cases member

/-- No production makes the kind of a leaf. -/
theorem Makes.production_eq_none (made : terminal.Makes tree) :
    Grammar.production tree.kind = none := by
  have found := made.leafKind?_eq
  generalize tree.kind = kind at found
  cases terminal <;> cases found <;> rfl

theorem Makes.wellFormed (made : terminal.Makes tree) : tree.WellFormed := by
  obtain ⟨kind, text, -, rfl⟩ := made.exists_leaf
  exact Tree.wellFormed_iff.mpr ⟨.leaf made, by simp⟩

/-- A lexeme of the terminal makes a leaf of it. -/
theorem makes_leaf {kind : Kind} {text : String} (found : terminal.leafKind? = some kind)
    (accepted : terminal.Accepts text.toList) : terminal.Makes (Tree.leaf kind text) :=
  ⟨text.toList, accepted, by simp [leaves, found]⟩

end Terminal

theorem Tree.wellFormed_token (text : String) : (token text).WellFormed :=
  (Terminal.makes_leaf (show (Terminal.literal text).leafKind? = _ from rfl) rfl).wellFormed

theorem Tree.wellFormed_inner {kind : Kind} {children : List Tree}
    (produced : Production kind children) (below : ∀ child ∈ children, child.WellFormed) :
    (inner kind children).WellFormed :=
  wellFormed_iff.mpr ⟨.inner produced, below⟩

/-- A node that conforms, of a kind that some production makes, has children that the production
allows. -/
theorem Tree.Conforms.production {tree : Tree} (h : tree.Conforms)
    (inner : (Grammar.production tree.kind).isSome = true) :
    Production tree.kind tree.children := by
  cases h with
  | leaf made =>
      rw [made.production_eq_none] at inner
      cases inner
  | inner produced => exact produced

namespace Pattern

/-- The lists of nodes that a pattern stands for if nodes below the first level are not looked
at. -/
def Allows : Pattern → List Tree → Prop
  | terminal t, nodes => ∃ lexeme, t.Accepts lexeme ∧ nodes = t.leaves lexeme
  | sequence first second, nodes =>
      ∃ front back, first.Allows front ∧ second.Allows back ∧ nodes = front ++ back
  | choice first second, nodes => first.Allows nodes ∨ second.Allows nodes
  | maybe pattern, nodes => nodes = [] ∨ pattern.Allows nodes
  | many pattern, nodes =>
      ∃ rounds : List (List Tree), (∀ round ∈ rounds, pattern.Allows round) ∧
        nodes = rounds.flatten
  | node kind _, nodes => ∃ tree : Tree, tree.kind = kind ∧ nodes = [tree]

/-- Every node of the pattern is made by the production of its kind. -/
def isGoverned : Pattern → Bool
  | terminal _ => true
  | sequence first second => first.isGoverned && second.isGoverned
  | choice first second => first.isGoverned && second.isGoverned
  | maybe pattern => pattern.isGoverned
  | many pattern => pattern.isGoverned
  | node kind pattern => Grammar.production kind = some (node kind pattern) && pattern.isGoverned

variable {pattern first second : Pattern} {kind : Kind} {nodes children : List Tree}

@[simp] theorem allows_sequence_iff :
    (sequence first second).Allows nodes ↔
      ∃ front back, first.Allows front ∧ second.Allows back ∧ nodes = front ++ back :=
  Iff.rfl

@[simp] theorem allows_choice_iff :
    (choice first second).Allows nodes ↔ first.Allows nodes ∨ second.Allows nodes :=
  Iff.rfl

@[simp] theorem allows_node_iff :
    (node kind pattern).Allows nodes ↔ ∃ tree : Tree, tree.kind = kind ∧ nodes = [tree] :=
  Iff.rfl

@[simp] theorem allows_literal_iff {text : String} :
    (Grammar.literal text).Allows nodes ↔ nodes = [Tree.token text] := by
  have made : (Terminal.literal text).leaves text.toList = [Tree.token text] := by
    simp [Terminal.leaves, Terminal.leafKind?, Tree.token]
  constructor
  · rintro ⟨lexeme, rfl, rfl⟩
    exact made
  · rintro rfl
    exact ⟨text.toList, rfl, made.symm⟩

@[simp] theorem allows_terminal_iff {t : Terminal} (solid : t.isSolid = true) :
    (terminal t).Allows nodes ↔ ∃ tree, t.Makes tree ∧ nodes = [tree] := by
  constructor
  · rintro ⟨lexeme, accepted, rfl⟩
    have one : ∃ tree, t.leaves lexeme = [tree] := by
      cases t with
      | endOfDocument => cases solid
      | _ => exact ⟨_, rfl⟩
    obtain ⟨tree, same⟩ := one
    exact ⟨tree, ⟨lexeme, accepted, same⟩, same⟩
  · rintro ⟨tree, ⟨lexeme, accepted, same⟩, rfl⟩
    exact ⟨lexeme, accepted, same.symm⟩

@[simp] theorem allows_endOfDocument_iff :
    (terminal .endOfDocument).Allows nodes ↔ nodes = [] :=
  ⟨fun ⟨_, _, same⟩ => same, fun same => ⟨[], rfl, same⟩⟩

@[simp] theorem allows_value_iff :
    Grammar.value.Allows nodes ↔ ∃ tree, Shape.IsValue tree ∧ nodes = [tree] := by
  simp (disch := decide) only [Grammar.value, Grammar.number, Grammar.string, Grammar.identifier,
    orElse_eq_choice, allows_choice_iff, allows_terminal_iff, Shape.IsValue, or_and_right,
    exists_or]

/-- An option of single trees. -/
theorem allows_maybe_iff {accepts : Tree → Prop}
    (single : ∀ nodes, pattern.Allows nodes ↔ ∃ tree, accepts tree ∧ nodes = [tree]) :
    (maybe pattern).Allows nodes ↔
      ∃ option : Option Tree, (∀ tree ∈ option, accepts tree) ∧ nodes = option.toList := by
  show nodes = [] ∨ pattern.Allows nodes ↔ _
  rw [single]
  constructor
  · rintro (rfl | ⟨tree, accepted, rfl⟩)
    · exact ⟨none, by simp, rfl⟩
    · exact ⟨some tree, by simpa using accepted, rfl⟩
  · rintro ⟨option, accepted, rfl⟩
    cases option with
    | none => exact Or.inl rfl
    | some tree => exact Or.inr ⟨tree, accepted tree rfl, rfl⟩

/-- A repetition of single trees. -/
theorem allows_many_iff {accepts : Tree → Prop}
    (single : ∀ nodes, pattern.Allows nodes ↔ ∃ tree, accepts tree ∧ nodes = [tree]) :
    (many pattern).Allows nodes ↔ ∀ tree ∈ nodes, accepts tree := by
  constructor
  · rintro ⟨rounds, allowed, rfl⟩ tree member
    obtain ⟨round, mem, member⟩ := List.mem_flatten.mp member
    obtain ⟨single, accepted, rfl⟩ := (single round).mp (allowed round mem)
    rw [List.mem_singleton.mp member]
    exact accepted
  · intro all
    refine ⟨nodes.map fun tree => [tree], ?_, (List.flatMap_singleton' nodes).symm⟩
    intro round member
    obtain ⟨tree, mem, rfl⟩ := List.mem_map.mp member
    exact (single _).mpr ⟨tree, all tree mem, rfl⟩

@[simp] theorem allows_maybe_node_iff :
    (maybe (node kind pattern)).Allows nodes ↔
      ∃ option : Option Tree, (∀ tree ∈ option, tree.kind = kind) ∧ nodes = option.toList :=
  allows_maybe_iff fun _ => allows_node_iff

@[simp] theorem allows_many_node_iff :
    (many (node kind pattern)).Allows nodes ↔ ∀ tree ∈ nodes, tree.kind = kind :=
  allows_many_iff fun _ => allows_node_iff

theorem allows_blocks_iff :
    (many Grammar.block).Allows nodes ↔ ∀ tree ∈ nodes, Shape.IsBlock tree := by
  apply allows_many_iff
  intro nodes
  simp only [Grammar.block, Grammar.variableBlock, Grammar.dates, Grammar.parties,
    Grammar.clauses, orElse_eq_choice, allows_choice_iff, allows_node_iff, Shape.IsBlock,
    or_and_right, exists_or]

theorem allows_operands_iff :
    (maybe (choice (sequence (sequence Grammar.value (terminal .comparator)) Grammar.value)
      Grammar.value)).Allows nodes ↔
        nodes = [] ∨ (∃ value, Shape.IsValue value ∧ nodes = [value]) ∨
          ∃ left sign right, Shape.IsValue left ∧ Terminal.comparator.Makes sign ∧
            Shape.IsValue right ∧ nodes = [left, sign, right] := by
  show nodes = [] ∨ (choice _ _).Allows nodes ↔ _
  -- the comparison is the alternative that is tried first
  rw [allows_choice_iff, or_comm (b := Grammar.value.Allows nodes), allows_value_iff]
  simp (disch := decide) [and_assoc]

/-- The children that the pattern of a production allows are those of the production. -/
theorem allows_production_iff (h : Grammar.production kind = some (node kind pattern)) :
    pattern.Allows children ↔ Production kind children := by
  cases kind with
  | contract =>
      cases h
      simp (disch := decide) [Production, and_assoc, Grammar.identifier, allows_blocks_iff]
  | variableBlock =>
      cases h
      simp [Production, Grammar.variableStatement]
  | variableStatement =>
      cases h
      simp (disch := decide) [Production, Grammar.identifier, Grammar.term]
  | dates =>
      cases h
      simp [Production, and_assoc, Grammar.beginDate, Grammar.dueDate]
  | beginDate | dueDate =>
      cases h
      simp (disch := decide) [Production, Shape.IsMoment, Grammar.moment, or_and_right,
        exists_or]
  | parties =>
      cases h
      simp [Production, and_assoc, Grammar.application, Grammar.process]
  | application | process =>
      cases h
      simp (disch := decide) [Production, Shape.IsParty, Grammar.string, Grammar.identifier,
        or_and_right, exists_or]
  | clauses =>
      cases h
      simp [Production, Grammar.clause]
  | clause =>
      cases h
      simp (disch := decide) [Production, and_assoc, Grammar.identifier, Grammar.rolePlayer,
        Grammar.operation, Grammar.terms, Grammar.onBreach]
  | rolePlayer =>
      cases h
      simp (disch := decide) [Production]
  | operation =>
      cases h
      simp (disch := decide) [Production, Grammar.identifier]
  | terms =>
      cases h
      simp [Production, and_assoc, Grammar.termOrWhen]
  | onBreach =>
      cases h
      simp (disch := decide) [Production, Grammar.string]
  | termOrWhen =>
      cases h
      simp [Production, Grammar.term, allows_maybe_iff fun _ =>
        allows_terminal_iff (show Terminal.connective.isSolid = true from rfl)]
  | term =>
      cases h
      simp [Production, Grammar.timeout, Grammar.messageContent, or_and_right, exists_or]
  | timeout =>
      cases h
      simp (disch := decide) [Production, Shape.IsDuration, Vocabulary.timeoutWord, Grammar.number,
        Grammar.identifier, or_and_right, exists_or]
  | messageContent =>
      cases h
      simp [Production, Vocabulary.messageContentWord, allows_operands_iff, or_and_right,
        exists_or, and_assoc]
  | _ => cases h

/-! ## Derivations and allowed lists -/

/-- A derivation is an allowed list of nodes with well-formed trees. -/
theorem derives_iff_allows (governed : pattern.isGoverned = true) :
    pattern.Derives nodes ↔ pattern.Allows nodes ∧ ∀ tree ∈ nodes, tree.WellFormed := by
  induction pattern generalizing nodes with
  | terminal t =>
      constructor
      · rintro ⟨accepted⟩
        exact ⟨⟨_, accepted, rfl⟩, fun tree member =>
          (Terminal.makes_of_mem_leaves accepted member).wellFormed⟩
      · rintro ⟨⟨lexeme, accepted, rfl⟩, -⟩
        exact .terminal accepted
  | sequence first second ihFirst ihSecond =>
      rw [isGoverned, Bool.and_eq_true] at governed
      constructor
      · rintro (_ | ⟨front, back⟩)
        obtain ⟨allowedFront, formedFront⟩ := (ihFirst governed.1).mp front
        obtain ⟨allowedBack, formedBack⟩ := (ihSecond governed.2).mp back
        exact ⟨⟨_, _, allowedFront, allowedBack, rfl⟩,
          List.forall_mem_append.mpr ⟨formedFront, formedBack⟩⟩
      · rintro ⟨⟨front, back, allowedFront, allowedBack, rfl⟩, formed⟩
        rw [List.forall_mem_append] at formed
        exact .sequence ((ihFirst governed.1).mpr ⟨allowedFront, formed.1⟩)
          ((ihSecond governed.2).mpr ⟨allowedBack, formed.2⟩)
  | choice first second ihFirst ihSecond =>
      rw [isGoverned, Bool.and_eq_true] at governed
      rw [allows_choice_iff, or_and_right, ← ihFirst governed.1, ← ihSecond governed.2]
      constructor
      · intro h
        cases h with
        | first derived => exact Or.inl derived
        | second derived => exact Or.inr derived
      · exact fun h => h.elim .first .second
  | maybe pattern ih =>
      constructor
      · intro h
        cases h with
        | skip => exact ⟨Or.inl rfl, by simp⟩
        | take derived =>
            obtain ⟨allowed, formed⟩ := (ih governed).mp derived
            exact ⟨Or.inr allowed, formed⟩
      · rintro ⟨rfl | allowed, formed⟩
        · exact .skip
        · exact .take ((ih governed).mpr ⟨allowed, formed⟩)
  | many pattern ih =>
      rw [derives_many_iff]
      constructor
      · rintro ⟨rounds, derived, rfl⟩
        refine ⟨⟨rounds, fun round member => ((ih governed).mp (derived round member)).1, rfl⟩, ?_⟩
        intro tree member
        obtain ⟨round, mem, member⟩ := List.mem_flatten.mp member
        exact ((ih governed).mp (derived round mem)).2 tree member
      · rintro ⟨⟨rounds, allowed, rfl⟩, formed⟩
        refine ⟨rounds, fun round member => (ih governed).mpr ⟨allowed round member, ?_⟩, rfl⟩
        exact fun tree mem => formed tree (List.mem_flatten.mpr ⟨round, member, mem⟩)
  | node kind pattern ih =>
      rw [isGoverned, Bool.and_eq_true, decide_eq_true_eq] at governed
      obtain ⟨rule, governed⟩ := governed
      constructor
      · rintro (_ | _ | _ | _ | _ | _ | _ | _ | derived)
        obtain ⟨allowed, formed⟩ := (ih governed).mp derived
        refine ⟨⟨_, rfl, rfl⟩, fun tree member => ?_⟩
        rw [List.mem_singleton.mp member]
        exact Tree.wellFormed_iff.mpr ⟨.inner ((allows_production_iff rule).mp allowed), formed⟩
      · rintro ⟨⟨tree, rfl, rfl⟩, formed⟩
        -- the root conforms, and not as a leaf, since its kind has a production
        have formedTree := formed tree (List.mem_singleton_self tree)
        cases formedTree tree List.mem_cons_self with
        | leaf made =>
            rw [made.production_eq_none] at rule
            cases rule
        | inner produced =>
            have below := (Tree.wellFormed_iff.mp formedTree).2
            exact .node ((ih governed).mpr ⟨(allows_production_iff rule).mpr produced, below⟩)

/-- The grammar derives exactly the well-formed contracts. -/
theorem derives_contract_iff {tree : Tree} :
    Grammar.contract.Derives [tree] ↔ tree.kind = .contract ∧ tree.WellFormed := by
  have governed : Grammar.contract.isGoverned = true := by decide
  rw [derives_iff_allows governed, Grammar.contract, allows_node_iff]
  simp

end Pattern

end Covenant
