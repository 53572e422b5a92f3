import Covenant.Proofs.Tree
import Mathlib.Data.List.Lex
import Mathlib.Order.Bounds.Basic
import Mathlib.Tactic.Choose

/-!
# Document order

A node is found by its address: the positions of the children through which one goes down to it.
Addresses are ordered like words in a dictionary. So a node comes before all nodes below it, and
what stands below a child comes before what stands below a later child. This is the order in which
the nodes open in a document, and it is said here without any walk through the tree.

A list of nodes is tied to a set of addresses by `Tree.Lists`: the nodes are those at the addresses
of the set, each once, in document order. The walk below a node lists all addresses but the root
(`Tree.lists_beneath`), lists that are put together child by child stay in document order
(`Tree.Lists.through`), and so do the nodes of a sort among them (`Tree.Lists.filter`). Hence the
first and the last node of a list stand at the least and at the greatest address of its set
(`Tree.Lists.says_head`, `Tree.Lists.says_last`).

Sets of addresses are given by the kinds of the nodes that one passes on the way down
(`Tree.along`).
-/

set_option autoImplicit false

namespace Covenant.Tree

/-! ## Addresses -/

/-- The node at an address, if the address does not lead out of the tree. -/
def nodeAt? (tree : Tree) : List Nat → Option Tree
  | [] => some tree
  | position :: rest => tree.children[position]?.bind fun child => child.nodeAt? rest

/-- The addresses of all nodes of a tree. -/
def addresses (tree : Tree) : Set (List Nat) :=
  {address | ∃ node, tree.nodeAt? address = some node}

/-- The kinds of the nodes that one passes on the way to an address. The root is left out, and the
node at the address comes last. -/
def kindsTo? (tree : Tree) : List Nat → Option (List Kind)
  | [] => some []
  | position :: rest => tree.children[position]?.bind fun child =>
      (child.kindsTo? rest).map (child.kind :: ·)

/-- The addresses to which one comes along certain ways. -/
def along (tree : Tree) (ways : Set (List Kind)) : Set (List Nat) :=
  {address | ∃ way ∈ ways, tree.kindsTo? address = some way}

/-- The addresses of a set at which a node of a sort stands. -/
def restrict (tree : Tree) (places : Set (List Nat)) (accepts : Tree → Bool) : Set (List Nat) :=
  {address ∈ places | ∃ node, tree.nodeAt? address = some node ∧ accepts node = true}

/-- The addresses that go through a child of a sort, and on from there. -/
def through (tree : Tree) (accepts : Tree → Bool) (onward : Tree → Set (List Nat)) :
    Set (List Nat) :=
  {address | ∃ position rest child, address = position :: rest ∧
    tree.children[position]? = some child ∧ accepts child = true ∧ rest ∈ onward child}

variable {tree : Tree} {places : Set (List Nat)} {nodes : List Tree}

theorem nodeAt?_cons {position : Nat} {child : Tree}
    (stands : tree.children[position]? = some child) (rest : List Nat) :
    tree.nodeAt? (position :: rest) = child.nodeAt? rest := by
  rw [nodeAt?, stands, Option.bind_some]

theorem nodeAt?_cons_eq_some {position : Nat} {rest : List Nat} {node : Tree} :
    tree.nodeAt? (position :: rest) = some node ↔
      ∃ child, tree.children[position]? = some child ∧ child.nodeAt? rest = some node := by
  rw [nodeAt?, Option.bind_eq_some_iff]

/-! ## Lists in document order -/

/-- What is found at the addresses of a set: each node with its address, in document order. -/
structure Finds (tree : Tree) (places : Set (List Nat)) (found : List (List Nat × Tree)) :
    Prop where
  ordered : found.Pairwise fun x y => x.1 < y.1
  mem_iff : ∀ x, x ∈ found ↔ x.1 ∈ places ∧ tree.nodeAt? x.1 = some x.2

/-- The nodes are those at the addresses of a set, in document order. -/
def Lists (tree : Tree) (places : Set (List Nat)) (nodes : List Tree) : Prop :=
  ∃ found, tree.Finds places found ∧ found.map Prod.snd = nodes

theorem lists_self (tree : Tree) : tree.Lists {[]} [tree] := by
  refine ⟨[([], tree)], ⟨List.pairwise_singleton _ _, ?_⟩, rfl⟩
  rintro ⟨address, node⟩
  rw [List.mem_singleton, Prod.mk.injEq, Set.mem_singleton_iff]
  constructor
  · rintro ⟨rfl, rfl⟩
    exact ⟨rfl, rfl⟩
  · rintro ⟨rfl, stands⟩
    exact ⟨rfl, (Option.some.inj stands).symm⟩

/-- The positions of a list ascend. -/
theorem pairwise_zipIdx {α : Type} (items : List α) (start : Nat) :
    (items.zipIdx start).Pairwise fun x y => x.2 < y.2 := by
  induction items generalizing start with
  | nil => exact List.Pairwise.nil
  | cons item items ih =>
      rw [List.zipIdx_cons, List.pairwise_cons]
      exact ⟨fun later member => List.le_snd_of_mem_zipIdx member, ih (start + 1)⟩

/-- What is listed child by child is in document order. -/
theorem Lists.through {accepts : Tree → Bool} {onward : Tree → Set (List Nat)}
    {parts : Tree → List Tree}
    (h : ∀ child ∈ tree.children, accepts child = true → child.Lists (onward child) (parts child)) :
    tree.Lists (tree.through accepts onward) ((tree.children.filter accepts).flatMap parts) := by
  choose! found finds same using h
  let taken := tree.children.zipIdx.filter fun place => accepts place.1
  have mem_taken {place : Tree × Nat} : place ∈ taken ↔
      tree.children[place.2]? = some place.1 ∧ accepts place.1 = true := by
    rw [List.mem_filter, List.mem_zipIdx_iff_getElem?]
  refine ⟨taken.flatMap fun place => (found place.1).map fun x => (place.2 :: x.1, x.2),
    ⟨?_, ?_⟩, ?_⟩
  · rw [List.pairwise_flatMap]
    constructor
    · -- below one child the first position is the same, and the rest decides
      intro place member
      obtain ⟨stands, accepted⟩ := mem_taken.mp member
      rw [List.pairwise_map]
      exact (finds _ (List.mem_of_getElem? stands) accepted).ordered.imp fun before => .cons before
    · -- between two children the first position decides
      refine ((pairwise_zipIdx tree.children 0).filter _).imp fun before x here y there => ?_
      obtain ⟨x, -, rfl⟩ := List.mem_map.mp here
      obtain ⟨y, -, rfl⟩ := List.mem_map.mp there
      exact .rel before
  · rintro ⟨address, node⟩
    rw [List.mem_flatMap]
    constructor
    · rintro ⟨⟨child, position⟩, member, listed⟩
      obtain ⟨stands, accepted⟩ := mem_taken.mp member
      obtain ⟨⟨rest, below⟩, inside, placed⟩ := List.mem_map.mp listed
      cases placed
      obtain ⟨onward, reached⟩ :=
        ((finds child (List.mem_of_getElem? stands) accepted).mem_iff _).mp inside
      exact ⟨⟨position, rest, child, rfl, stands, accepted, onward⟩,
        (nodeAt?_cons stands rest).trans reached⟩
    · rintro ⟨⟨position, rest, child, rfl, stands, accepted, onward⟩, reached⟩
      refine ⟨(child, position), mem_taken.mpr ⟨stands, accepted⟩,
        List.mem_map.mpr ⟨(rest, node), ?_, rfl⟩⟩
      apply ((finds child (List.mem_of_getElem? stands) accepted).mem_iff _).mpr
      exact ⟨onward, (nodeAt?_cons stands rest).symm.trans reached⟩
  · have children : tree.children.filter accepts = taken.map Prod.fst := by
      conv_lhs => rw [← List.zipIdx_map_fst 0 tree.children, List.filter_map]
      rfl
    rw [children, List.flatMap_map, List.map_flatMap]
    apply List.flatMap_congr
    intro place member
    obtain ⟨stands, accepted⟩ := mem_taken.mp member
    rw [List.map_map]
    exact same _ (List.mem_of_getElem? stands) accepted

/-- Of the nodes that are listed, those of a sort are in document order. -/
theorem Lists.filter (h : tree.Lists places nodes) (accepts : Tree → Bool) :
    tree.Lists (tree.restrict places accepts) (nodes.filter accepts) := by
  obtain ⟨found, finds, rfl⟩ := h
  refine ⟨found.filter fun x => accepts x.2, ⟨finds.ordered.filter _, ?_⟩, ?_⟩
  · intro x
    rw [List.mem_filter, finds.mem_iff]
    constructor
    · rintro ⟨⟨member, stands⟩, accepted⟩
      exact ⟨⟨member, x.2, stands, accepted⟩, stands⟩
    · rintro ⟨⟨member, node, stands, accepted⟩, stands'⟩
      obtain rfl : node = x.2 := Option.some.inj (stands.symm.trans stands')
      exact ⟨⟨member, stands⟩, accepted⟩
  · rw [List.filter_map]
    rfl

/-- The root comes before everything below it. -/
theorem Lists.cons_root (h : tree.Lists (tree.addresses \ {[]}) nodes) :
    tree.Lists tree.addresses (tree :: nodes) := by
  obtain ⟨found, finds, rfl⟩ := h
  refine ⟨([], tree) :: found, ⟨?_, ?_⟩, rfl⟩
  · rw [List.pairwise_cons]
    refine ⟨fun x member => ?_, finds.ordered⟩
    obtain ⟨⟨-, proper⟩, -⟩ := (finds.mem_iff x).mp member
    obtain ⟨position, rest, same⟩ := List.exists_cons_of_ne_nil proper
    rw [same]
    exact .nil
  · rintro ⟨address, node⟩
    rw [List.mem_cons, finds.mem_iff]
    constructor
    · rintro (root | ⟨⟨inside, -⟩, stands⟩)
      · cases root
        exact ⟨⟨tree, rfl⟩, rfl⟩
      · exact ⟨inside, stands⟩
    · rintro ⟨inside, stands⟩
      by_cases root : address = []
      · subst root
        exact Or.inl (congrArg (Prod.mk []) (Option.some.inj stands).symm)
      · exact Or.inr ⟨⟨inside, root⟩, stands⟩

/-- Every address but the root goes through a child. -/
theorem through_addresses (tree : Tree) :
    tree.through (fun _ => true) addresses = tree.addresses \ {[]} := by
  ext address
  constructor
  · rintro ⟨position, rest, child, rfl, stands, -, node, reached⟩
    exact ⟨⟨node, (nodeAt?_cons stands rest).trans reached⟩, List.cons_ne_nil position rest⟩
  · rintro ⟨⟨node, reached⟩, proper⟩
    obtain ⟨position, rest, rfl⟩ := List.exists_cons_of_ne_nil proper
    obtain ⟨child, stands, reached⟩ := nodeAt?_cons_eq_some.mp reached
    exact ⟨position, rest, child, rfl, stands, rfl, node, reached⟩

/-- The walk below a node lists everything but the node itself, in document order. -/
theorem lists_beneath (tree : Tree) : tree.Lists (tree.addresses \ {[]}) tree.beneath := by
  induction tree using induction_on_children with
  | step tree ih =>
      have children : tree.Lists (tree.through (fun _ => true) addresses)
          ((tree.children.filter fun _ => true).flatMap fun child => child :: child.beneath) :=
        Lists.through fun child member _ => (ih child member).cons_root
      rw [through_addresses, List.filter_true, ← beneath_eq_flatMap] at children
      exact children

/-! ## Ways down -/

theorem kindsTo?_cons {position : Nat} {child : Tree}
    (stands : tree.children[position]? = some child) (rest : List Nat) :
    tree.kindsTo? (position :: rest) = (child.kindsTo? rest).map (child.kind :: ·) := by
  rw [kindsTo?, stands, Option.bind_some]

/-- There is a way to an address exactly if there is a node, and the way ends with its kind. -/
theorem exists_node_of_kindsTo? {address : List Nat} {way : List Kind}
    (h : tree.kindsTo? address = some way) :
    ∃ node, tree.nodeAt? address = some node ∧ (tree.kind :: way).getLast? = some node.kind := by
  induction address generalizing tree way with
  | nil =>
      cases h
      exact ⟨tree, rfl, rfl⟩
  | cons position rest ih =>
      obtain ⟨child, stands, passed⟩ := Option.bind_eq_some_iff.mp h
      obtain ⟨onward, found, rfl⟩ := Option.map_eq_some_iff.mp passed
      obtain ⟨node, reached, last⟩ := ih found
      refine ⟨node, (nodeAt?_cons stands rest).trans reached, ?_⟩
      rw [List.getLast?_cons_cons]
      exact last

theorem exists_kindsTo?_of_node {address : List Nat} {node : Tree}
    (h : tree.nodeAt? address = some node) : ∃ way, tree.kindsTo? address = some way := by
  induction address generalizing tree with
  | nil => exact ⟨[], rfl⟩
  | cons position rest ih =>
      obtain ⟨child, stands, reached⟩ := nodeAt?_cons_eq_some.mp h
      obtain ⟨onward, found⟩ := ih reached
      exact ⟨child.kind :: onward, by rw [kindsTo?_cons stands, found, Option.map_some]⟩

theorem along_subset (tree : Tree) (ways : Set (List Kind)) : tree.along ways ⊆ tree.addresses := by
  rintro address ⟨way, -, found⟩
  obtain ⟨node, stands, -⟩ := exists_node_of_kindsTo? found
  exact ⟨node, stands⟩

/-- Only the root is reached without passing a node. -/
theorem along_nil (tree : Tree) : tree.along {[]} = {[]} := by
  ext address
  constructor
  · rintro ⟨way, rfl, found⟩
    cases address with
    | nil => rfl
    | cons position rest =>
        obtain ⟨child, -, passed⟩ := Option.bind_eq_some_iff.mp found
        obtain ⟨onward, -, same⟩ := Option.map_eq_some_iff.mp passed
        cases same
  · rintro rfl
    exact ⟨[], rfl, rfl⟩

/-- A way that opens with a kind goes through the children of the kind. -/
theorem along_cons (tree : Tree) (kind : Kind) (ways : Set (List Kind)) :
    tree.along (Set.image (List.cons kind) ways)
      = tree.through (fun node => [kind].contains node.kind) fun child => child.along ways := by
  ext address
  constructor
  · rintro ⟨_, ⟨way, member, rfl⟩, found⟩
    cases address with
    | nil => cases found
    | cons position rest =>
        obtain ⟨child, stands, passed⟩ := Option.bind_eq_some_iff.mp found
        obtain ⟨onward, found, same⟩ := Option.map_eq_some_iff.mp passed
        cases same
        exact ⟨position, rest, child, rfl, stands, by simp, way, member, found⟩
  · rintro ⟨position, rest, child, rfl, stands, accepted, way, member, found⟩
    refine ⟨kind :: way, ⟨way, member, rfl⟩, ?_⟩
    have same : child.kind = kind := by simpa using accepted
    rw [kindsTo?_cons stands, found, Option.map_some, same]

/-- Ways that end with one of some kinds, whatever comes before it. -/
def endingIn (kinds : List Kind) : Set (List Kind) :=
  {way | ∃ last ∈ kinds, way.getLast? = some last}

/-- The nodes of some kinds below a node, at any depth. -/
theorem along_endingIn (tree : Tree) (kinds : List Kind) :
    tree.along (endingIn kinds)
      = tree.restrict (tree.addresses \ {[]}) fun node => kinds.contains node.kind := by
  ext address
  constructor
  · rintro ⟨way, ⟨kind, listed, last⟩, found⟩
    obtain ⟨node, stands, last'⟩ := exists_node_of_kindsTo? found
    have same : node.kind = kind := by
      rw [List.getLast?_cons, last] at last'
      exact (Option.some.inj last').symm
    refine ⟨⟨⟨node, stands⟩, ?_⟩, node, stands, by simpa [same] using listed⟩
    -- the way to the root is empty and has no end
    rintro rfl
    cases found
    cases last
  · rintro ⟨⟨-, proper⟩, node, stands, accepted⟩
    obtain ⟨way, found⟩ := exists_kindsTo?_of_node stands
    obtain ⟨position, rest, rfl⟩ := List.exists_cons_of_ne_nil proper
    obtain ⟨node', stands', last⟩ := exists_node_of_kindsTo? found
    obtain rfl : node = node' := Option.some.inj (stands.symm.trans stands')
    obtain ⟨child, -, below⟩ := Option.bind_eq_some_iff.mp found
    obtain ⟨onward, -, rfl⟩ := Option.map_eq_some_iff.mp below
    rw [List.getLast?_cons_cons] at last
    exact ⟨_, ⟨node.kind, by simpa using accepted, last⟩, found⟩

/-! ## The first and the last node -/

/-- The text is what is read at the chosen one of some addresses, and empty if there are none. -/
def Says (tree : Tree) (choice : Set (List Nat) → List Nat → Prop) (places : Set (List Nat))
    (read : Tree → String) (text : String) : Prop :=
  (∃ address node, choice places address ∧ tree.nodeAt? address = some node ∧ text = read node) ∨
    places = ∅ ∧ text = ""

/-- Where nothing is found there are no addresses, if the addresses are those of nodes. -/
theorem Finds.eq_empty (h : tree.Finds places []) (inside : places ⊆ tree.addresses) :
    places = ∅ := by
  rw [Set.eq_empty_iff_forall_notMem]
  intro address member
  obtain ⟨node, stands⟩ := inside member
  have found := (h.mem_iff (address, node)).mpr ⟨member, stands⟩
  cases found

/-- The last of the nodes stands at the greatest address. -/
theorem Lists.says_last (h : tree.Lists places nodes) (inside : places ⊆ tree.addresses)
    (read : Tree → String) : tree.Says IsGreatest places read (lastOf read "" nodes) := by
  obtain ⟨found, finds, rfl⟩ := h
  rcases List.eq_nil_or_concat found with rfl | ⟨front, ⟨address, node⟩, rfl⟩
  · exact Or.inr ⟨finds.eq_empty inside, rfl⟩
  · rw [List.concat_eq_append] at finds ⊢
    obtain ⟨member, stands⟩ := (finds.mem_iff (address, node)).mp (by simp)
    refine Or.inl ⟨address, node, ⟨member, ?_⟩, stands, by simp [lastOf]⟩
    intro other chosen
    obtain ⟨node', stands'⟩ := inside chosen
    have listed := (finds.mem_iff (other, node')).mpr ⟨chosen, stands'⟩
    rcases List.mem_append.mp listed with before | last
    · have ordered := (List.pairwise_append.mp finds.ordered).2.2
      exact (ordered _ before (address, node) (List.mem_singleton_self _)).le
    · exact (congrArg Prod.fst (List.mem_singleton.mp last)).le

/-- The first of the nodes stands at the least address. -/
theorem Lists.says_head (h : tree.Lists places nodes) (inside : places ⊆ tree.addresses)
    (read : Tree → String) :
    tree.Says IsLeast places read ((nodes.head?.map read).getD "") := by
  obtain ⟨found, finds, rfl⟩ := h
  cases found with
  | nil => exact Or.inr ⟨finds.eq_empty inside, rfl⟩
  | cons first later =>
      obtain ⟨member, stands⟩ := (finds.mem_iff first).mp List.mem_cons_self
      refine Or.inl ⟨first.1, first.2, ⟨member, ?_⟩, stands, rfl⟩
      intro other chosen
      obtain ⟨node', stands'⟩ := inside chosen
      have listed := (finds.mem_iff (other, node')).mpr ⟨chosen, stands'⟩
      rcases List.mem_cons.mp listed with same | after
      · exact (congrArg Prod.fst same).ge
      · exact ((List.pairwise_cons.mp finds.ordered).1 _ after).le

end Covenant.Tree
