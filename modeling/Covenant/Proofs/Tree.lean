import Covenant.Tree.Slots

/-!
# Nodes by the way down to them

The parts of a contract stand at fixed depths below it, each level under nodes of its own kind.
`Tree.reach` lists the nodes at the end of such a way in document order, without any of the
routings by which a contract is assembled. What the children of a node contribute is collected
child by child (`Tree.among_append`), so a loop over the children can be compared with it. Where
several nodes say the same thing the last one counts (`Tree.lastOf`).
-/

set_option autoImplicit false

namespace Covenant

/-- What is collected from some of the items, item by item. -/
theorem flatMap_filter {α β : Type} (accepts : α → Bool) (collect : α → List β)
    (items : List α) :
    (items.filter accepts).flatMap collect
      = items.flatMap fun item => if accepts item then collect item else [] := by
  induction items with
  | nil => rfl
  | cons item rest ih =>
      rw [List.flatMap_cons, ← ih, List.filter_cons]
      split <;> rfl

end Covenant

namespace Covenant.Tree

/-- The nodes reached by going down level by level, each time to the children of some kinds. -/
def reach : (levels : List (List Kind)) → Tree → List Tree
  | [], tree => [tree]
  | kinds :: levels, tree => (tree.pick kinds).flatMap (reach levels)

/-- What is reached through those siblings that are of some kinds. -/
def among (kinds : List Kind) (levels : List (List Kind)) (siblings : List Tree) : List Tree :=
  (siblings.filter fun node => kinds.contains node.kind).flatMap (reach levels)

variable {kinds : List Kind} {levels : List (List Kind)} {tree : Tree}

/-- What holds of a node if it holds of its children holds of every node. -/
theorem induction_on_children {P : Tree → Prop}
    (step : ∀ tree : Tree, (∀ child ∈ tree.children, P child) → P tree) (tree : Tree) : P tree := by
  refine @Tree.rec P (fun trees => ∀ tree ∈ trees, P tree) ?_ ?_ ?_ tree
  · intro kind value children below
    exact step (mk kind value children) below
  · intro tree member
    cases member
  · intro first rest ofFirst ofRest
    exact List.forall_mem_cons.mpr ⟨ofFirst, ofRest⟩

theorem beneathOf_eq_flatMap (trees : List Tree) :
    beneathOf trees = trees.flatMap fun tree => tree :: tree.beneath := by
  induction trees with
  | nil => simp [beneathOf]
  | cons tree rest ih => simp [beneathOf, ih]

theorem beneath_eq_flatMap (tree : Tree) :
    tree.beneath = tree.children.flatMap fun child => child :: child.beneath := by
  cases tree with
  | mk kind value children => rw [beneath, beneathOf_eq_flatMap, children_mk]

@[simp] theorem reach_nil (tree : Tree) : tree.reach [] = [tree] := rfl

theorem reach_cons (kinds : List Kind) (levels : List (List Kind)) (tree : Tree) :
    tree.reach (kinds :: levels) = among kinds levels tree.children := rfl

@[simp] theorem reach_singleton (kinds : List Kind) (tree : Tree) :
    tree.reach [kinds] = tree.pick kinds := by
  rw [reach, show reach [] = fun node => [node] from funext reach_nil, List.flatMap_singleton']

theorem pick_singleton (kind : Kind) (tree : Tree) :
    tree.pick [kind] = tree.children.filter fun child => child.kind == kind := by
  apply List.filter_congr
  intro child _
  rw [Bool.eq_iff_iff, List.contains_iff_mem, List.mem_singleton, beq_iff_eq]

theorem firstOf?_eq_head?_reach (kind : Kind) (tree : Tree) :
    tree.firstOf? kind = (tree.reach [[kind]]).head? := by
  rw [reach_singleton, pick_singleton, List.head?_filter, firstOf?]

/-- Nodes whose children of all kinds but one are the same have the same children of each other
kind. -/
theorem pick_eq_of_filter_ne {other : Tree} {kind skipped : Kind} (different : kind ≠ skipped)
    (h : (other.children.filter fun child => child.kind != skipped)
      = tree.children.filter fun child => child.kind != skipped) :
    other.pick [kind] = tree.pick [kind] := by
  have passed (nodes : List Tree) : (nodes.filter fun child => child.kind == kind)
      = (nodes.filter fun child => child.kind != skipped).filter fun child =>
          child.kind == kind := by
    rw [List.filter_filter]
    apply List.filter_congr
    intro child _
    by_cases same : child.kind = kind
    · simp [same, different]
    · simp [same]
  rw [pick_singleton, pick_singleton, passed, h, ← passed]

theorem among_append (front back : List Tree) :
    among kinds levels (front ++ back) = among kinds levels front ++ among kinds levels back := by
  rw [among, List.filter_append, List.flatMap_append, among, among]

theorem among_cons (node : Tree) (rest : List Tree) :
    among kinds levels (node :: rest) = among kinds levels [node] ++ among kinds levels rest :=
  among_append [node] rest

/-- A sibling of one of the kinds contributes what is reached from it. -/
theorem among_singleton_of_mem (h : tree.kind ∈ kinds) :
    among kinds levels [tree] = tree.reach levels := by
  simp [among, h]

/-- A sibling of another kind contributes nothing. -/
theorem among_singleton_of_not_mem (h : tree.kind ∉ kinds) :
    among kinds levels [tree] = [] := by
  simp [among, h]

/-- A way of one level more ends at children of the nodes where the shorter way ends. -/
theorem reach_append (front back : List (List Kind)) (tree : Tree) :
    tree.reach (front ++ back) = (tree.reach front).flatMap (reach back) := by
  induction front generalizing tree with
  | nil => simp
  | cons kinds front ih =>
      rw [List.cons_append, reach, reach, List.flatMap_assoc]
      exact congrArg (List.flatMap · _) (funext ih)

theorem kind_of_mem_reach (levels : List (List Kind)) (kinds : List Kind) {tree node : Tree}
    (member : node ∈ tree.reach (levels ++ [kinds])) : node.kind ∈ kinds := by
  rw [reach_append] at member
  obtain ⟨parent, -, picked⟩ := List.mem_flatMap.mp member
  rw [reach_singleton] at picked
  exact List.contains_iff_mem.mp (List.mem_filter.mp picked).2

/-! ## The last of several nodes -/

/-- What the last of the nodes reads as, or what was known before. -/
def lastOf (read : Tree → String) (known : String) (nodes : List Tree) : String :=
  (nodes.getLast?.map read).getD known

@[simp] theorem lastOf_nil (read : Tree → String) (known : String) :
    lastOf read known [] = known := rfl

@[simp] theorem lastOf_singleton (read : Tree → String) (known : String) (node : Tree) :
    lastOf read known [node] = read node := rfl

/-- Nodes that come later replace what the earlier ones gave. -/
theorem lastOf_append (read : Tree → String) (known : String) (front back : List Tree) :
    lastOf read known (front ++ back) = lastOf read (lastOf read known front) back := by
  rw [lastOf, lastOf, lastOf, List.getLast?_append]
  cases back.getLast? <;> simp

/-- If each node has a single part that counts, the last part is that of the last node. -/
theorem lastOf_flatMap {parts : Tree → List Tree} {read readPart : Tree → String}
    {nodes : List Tree}
    (h : ∀ node ∈ nodes, ∃ part, parts node = [part] ∧ readPart part = read node)
    (known : String) :
    lastOf readPart known (nodes.flatMap parts) = lastOf read known nodes := by
  induction nodes generalizing known with
  | nil => rfl
  | cons node rest ih =>
      rw [List.forall_mem_cons] at h
      obtain ⟨part, only, same⟩ := h.1
      rw [List.flatMap_cons, lastOf_append, ih h.2, only, lastOf_singleton, same]
      exact (lastOf_append read known [node] rest).symm

end Covenant.Tree
