import Covenant.Proofs.Grammar.Shape
import Covenant.Proofs.Tree
import Mathlib.Data.List.Basic

/-!
# What can stand below a node

The productions say of what kinds the children of a node can be (`Grammar.parts`), and so of what
kinds the nodes further below can be. A set of kinds that the productions do not lead out of
(`Grammar.confines`) shows that some nodes are not below others at all, and where all other children
are of such kinds, the nodes that are looked for are found by one way down only (`Grammar.leads`).

Main statement: in a well-formed tree the nodes of the wanted kinds, wherever they stand, are those
at the end of the way, in the same order (`WellFormed.occurrences_eq_reach`). The kinds are checked
once for the grammar, so nothing has to be said about the shapes of single nodes.
-/

set_option autoImplicit false

namespace Covenant

/-! ## Kinds of children -/

/-- The kinds of the nodes that the pattern itself adds. -/
def Pattern.kinds : Pattern → List Kind
  | terminal t => t.leafKind?.toList
  | sequence first second => first.kinds ++ second.kinds
  | choice first second => first.kinds ++ second.kinds
  | maybe pattern => pattern.kinds
  | many pattern => pattern.kinds
  | node kind _ => [kind]

namespace Grammar

/-- The kinds of the children of a node of the kind. -/
def parts (kind : Kind) : List Kind :=
  match production kind with
  | some (.node _ pattern) => pattern.kinds
  | _ => []

/-- No production leads from one of the kinds to another kind. -/
def confines (kinds : List Kind) : Bool :=
  kinds.all fun kind => (parts kind).all kinds.contains

/-- Nodes of the wanted kinds are found below a node of the kind by going down the levels, and not
otherwise: every child by which the way does not go on is of a barren kind. -/
def leads (wanted barren : List Kind) : (levels : List (List Kind)) → (kind : Kind) → Bool
  | [], kind => wanted.contains kind && (parts kind).all barren.contains
  | step :: levels, kind => !wanted.contains kind && (parts kind).all fun part =>
      if step.contains part then leads wanted barren levels part else barren.contains part

/-- The production of a kind makes nodes of this kind, and governs all nodes in it. -/
theorem exists_production {kind : Kind} (inner : (production kind).isSome = true) :
    ∃ pattern : Pattern, production kind = some (.node kind pattern) ∧
      pattern.isGoverned = true := by
  cases kind with
  | clauseType | date | datetime | identifier | number | string | comparator | token => cases inner
  | _ => exact ⟨_, rfl, by decide⟩

theorem isSome_production {kind : Kind} {children : List Tree}
    (produced : Production kind children) : (production kind).isSome = true := by
  cases kind with
  | clauseType | date | datetime | identifier | number | string | comparator | token =>
      cases produced
  | _ => rfl

end Grammar

/-- A node that a pattern allows is of one of its kinds. -/
theorem Pattern.kind_mem_kinds {pattern : Pattern} {nodes : List Tree} {child : Tree}
    (h : pattern.Allows nodes) (member : child ∈ nodes) : child.kind ∈ pattern.kinds := by
  induction pattern generalizing nodes with
  | terminal t =>
      obtain ⟨lexeme, accepted, rfl⟩ := h
      have made := Terminal.makes_of_mem_leaves accepted member
      rw [kinds, made.leafKind?_eq]
      exact List.mem_singleton_self _
  | sequence first second ihFirst ihSecond =>
      obtain ⟨front, back, allowedFront, allowedBack, rfl⟩ := h
      rcases List.mem_append.mp member with member | member
      · exact List.mem_append_left _ (ihFirst allowedFront member)
      · exact List.mem_append_right _ (ihSecond allowedBack member)
  | choice first second ihFirst ihSecond =>
      rcases h with allowed | allowed
      · exact List.mem_append_left _ (ihFirst allowed member)
      · exact List.mem_append_right _ (ihSecond allowed member)
  | maybe pattern ih =>
      rcases h with rfl | allowed
      · cases member
      · exact ih allowed member
  | many pattern ih =>
      obtain ⟨rounds, allowed, rfl⟩ := h
      obtain ⟨round, listed, member⟩ := List.mem_flatten.mp member
      exact ih (allowed round listed) member
  | node kind pattern =>
      obtain ⟨tree, sameKind, rfl⟩ := h
      rw [List.mem_singleton.mp member, sameKind]
      exact List.mem_singleton_self kind

namespace Tree

variable {tree parent child : Tree} {wanted barren : List Kind} {levels : List (List Kind)}

/-- The children of a node that conforms are allowed by the pattern of its production. -/
theorem Conforms.exists_allows (h : parent.Conforms) (member : child ∈ parent.children) :
    ∃ pattern : Pattern, Grammar.production parent.kind = some (.node parent.kind pattern) ∧
      pattern.isGoverned = true ∧ pattern.Allows parent.children := by
  have inner : (Grammar.production parent.kind).isSome = true := by
    cases h with
    | leaf made =>
        obtain ⟨kind, text, -, rfl⟩ := made.exists_leaf
        cases member
    | inner produced => exact Grammar.isSome_production produced
  obtain ⟨pattern, rule, governed⟩ := Grammar.exists_production inner
  exact ⟨pattern, rule, governed, (Pattern.allows_production_iff rule).mpr (h.production inner)⟩

theorem Conforms.kind_mem_parts (h : parent.Conforms) (member : child ∈ parent.children) :
    child.kind ∈ Grammar.parts parent.kind := by
  obtain ⟨pattern, rule, -, allowed⟩ := h.exists_allows member
  rw [Grammar.parts, rule]
  exact Pattern.kind_mem_kinds allowed member

/-! ## Nodes of some kinds -/

/-- The nodes of the kinds in a tree, its root included, each before the nodes below it. -/
def occurrences (kinds : List Kind) (tree : Tree) : List Tree :=
  (tree :: tree.beneath).filter fun node => kinds.contains node.kind

/-- The nodes in a tree are its root and the nodes in the trees of its children. -/
theorem occurrences_eq (kinds : List Kind) (tree : Tree) :
    tree.occurrences kinds
      = (if kinds.contains tree.kind then [tree] else [])
        ++ tree.children.flatMap (occurrences kinds) := by
  have below : (tree.beneath.filter fun node => kinds.contains node.kind)
      = tree.children.flatMap (occurrences kinds) := by
    rw [beneath_eq_flatMap, List.filter_flatMap]
    rfl
  rw [occurrences, List.filter_cons, below]
  split <;> rfl

/-- The nodes below a node are those in the trees of its children. -/
theorem within_eq_flatMap {kinds : List Kind} (some : kinds ≠ []) (tree : Tree) :
    tree.within kinds = tree.children.flatMap (occurrences kinds) := by
  rw [within, if_neg (by simpa using some), beneath_eq_flatMap, List.filter_flatMap]
  rfl

/-- Below a node of a barren kind there is nothing that is wanted. -/
theorem WellFormed.occurrences_eq_nil (h : tree.WellFormed)
    (confined : Grammar.confines barren = true) (apart : ∀ kind ∈ barren, kind ∉ wanted)
    (inside : tree.kind ∈ barren) : tree.occurrences wanted = [] := by
  induction tree using induction_on_children with
  | step tree ih =>
      obtain ⟨conforms, formed⟩ := wellFormed_iff.mp h
      rw [occurrences_eq, if_neg (by simpa using apart _ inside), List.nil_append,
        List.flatMap_eq_nil_iff]
      intro child member
      have closed := List.all_eq_true.mp confined _ inside
      have listed := List.all_eq_true.mp closed _ (conforms.kind_mem_parts member)
      exact ih child member (formed child member) (List.contains_iff_mem.mp listed)

/-- If one way leads to the wanted nodes, they are found at its end. -/
theorem WellFormed.occurrences_eq_reach (h : tree.WellFormed)
    (confined : Grammar.confines barren = true) (apart : ∀ kind ∈ barren, kind ∉ wanted)
    (led : Grammar.leads wanted barren levels tree.kind = true) :
    tree.occurrences wanted = tree.reach levels := by
  induction levels generalizing tree with
  | nil =>
      obtain ⟨conforms, formed⟩ := wellFormed_iff.mp h
      rw [Grammar.leads, Bool.and_eq_true] at led
      have none : tree.children.flatMap (occurrences wanted) = [] := by
        rw [List.flatMap_eq_nil_iff]
        intro child member
        have listed := List.all_eq_true.mp led.2 _ (conforms.kind_mem_parts member)
        exact (formed child member).occurrences_eq_nil confined apart
          (List.contains_iff_mem.mp listed)
      rw [occurrences_eq, if_pos led.1, none, reach_nil, List.append_nil]
  | cons step levels ih =>
      obtain ⟨conforms, formed⟩ := wellFormed_iff.mp h
      rw [Grammar.leads, Bool.and_eq_true, Bool.not_eq_true'] at led
      -- each child is gone through, or has nothing wanted in it
      have single : ∀ child ∈ tree.children, child.occurrences wanted
          = if step.contains child.kind then child.reach levels else [] := by
        intro child member
        have part := List.all_eq_true.mp led.2 _ (conforms.kind_mem_parts member)
        by_cases taken : step.contains child.kind = true
        · rw [if_pos taken] at part ⊢
          exact ih (formed child member) part
        · rw [if_neg taken] at part ⊢
          exact (formed child member).occurrences_eq_nil confined apart
            (List.contains_iff_mem.mp part)
      rw [occurrences_eq, if_neg (by rw [led.1]; exact Bool.false_ne_true), List.nil_append,
        reach_cons, among, flatMap_filter]
      exact List.flatMap_congr single

/-- The nodes below the root are then found at the end of the way as well. -/
theorem WellFormed.within_eq_reach {step : List Kind} (h : tree.WellFormed)
    (confined : Grammar.confines barren = true) (apart : ∀ kind ∈ barren, kind ∉ wanted)
    (led : Grammar.leads wanted barren (step :: levels) tree.kind = true) (some : wanted ≠ []) :
    tree.within wanted = tree.reach (step :: levels) := by
  have root : wanted.contains tree.kind = false := by
    rw [Grammar.leads, Bool.and_eq_true, Bool.not_eq_true'] at led
    exact led.1
  rw [← h.occurrences_eq_reach confined apart led, occurrences_eq, within_eq_flatMap some, root]
  rfl

end Tree

end Covenant
