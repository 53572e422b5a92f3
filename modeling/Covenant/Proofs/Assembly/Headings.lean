import Covenant.Proofs.Assembly.Blocks
import Covenant.Proofs.DocumentOrder

/-!
# Headings of a contract

The name, the two dates and the two parties of a contract, each found by one look at the whole
tree. A heading is given by a set of addresses and by which of them counts: the first one for the
name, the last one for dates and parties (`Tree.Heads`). The assembly goes through blocks, entries
and the nodes below these in nested loops and overwrites what it knew; the addresses do not mention
the loops.

Dates and parties are overwritten in different ways. A date statement without a date gives no
address, so an earlier date stays. A party statement is at an address whether it has an operand or
not, so one that is cut short empties the heading.

Main statement: the headings of an assembled contract are those that stand at these addresses
(`Contract.headed_of_ofTree`).
-/

set_option autoImplicit false

namespace Covenant

namespace Tree

/-! ## Where the headings stand -/

/-- The ways to the dates of a kind of statement: through a block of dates and such a statement, and
from there down to a date at any depth, also below another date. -/
def dateWays (statement : Kind) : Set (List Kind) :=
  Set.image (fun below => .dates :: statement :: below) (endingIn [.date, .datetime])

/-- The headings of the contract are what the tree says. A party is the text of child 2 of its
statement, and empty if the statement has fewer than three children. -/
structure Heads (tree : Tree) (contract : Contract) : Prop where
  name : tree.Says IsLeast (tree.along {[.identifier]}) text contract.name
  beginDate : tree.Says IsGreatest (tree.along (dateWays .beginDate)) text contract.beginDate
  dueDate : tree.Says IsGreatest (tree.along (dateWays .dueDate)) text contract.dueDate
  application : tree.Says IsGreatest (tree.along {[.parties, .application]}) (textAt 2)
    contract.application
  process : tree.Says IsGreatest (tree.along {[.parties, .process]}) (textAt 2) contract.process

/-! ## What the assembly reads -/

/-- A way of one kind more is listed through the children of that kind. -/
theorem lists_along_cons (kind : Kind) {ways : Set (List Kind)} {parts : Tree → List Tree}
    (h : ∀ node : Tree, node.Lists (node.along ways) (parts node)) (tree : Tree) :
    tree.Lists (tree.along (Set.image (List.cons kind) ways))
      ((tree.pick [kind]).flatMap parts) := by
  rw [along_cons]
  exact Lists.through fun child _ _ => h child

theorem lists_reach_nil (tree : Tree) : tree.Lists (tree.along {[]}) (tree.reach []) := by
  rw [along_nil]
  exact lists_self tree

theorem lists_names (tree : Tree) :
    tree.Lists (tree.along {[.identifier]}) (tree.reach [[.identifier]]) := by
  have listed := lists_along_cons .identifier lists_reach_nil tree
  rw [Set.image_singleton] at listed
  exact listed

theorem lists_parties (tree : Tree) (statement : Kind) :
    tree.Lists (tree.along {[.parties, statement]}) (tree.reach [[.parties], [statement]]) := by
  have listed := lists_along_cons .parties (lists_along_cons statement lists_reach_nil) tree
  rw [Set.image_singleton, Set.image_singleton] at listed
  exact listed

theorem lists_dateNodes (tree : Tree) :
    tree.Lists (tree.along (endingIn [.date, .datetime])) tree.dateNodes := by
  rw [along_endingIn]
  exact tree.lists_beneath.filter _

theorem lists_dates (tree : Tree) (statement : Kind) :
    tree.Lists (tree.along (dateWays statement))
      ((tree.reach [[.dates], [statement]]).flatMap dateNodes) := by
  have listed := lists_along_cons .dates (lists_along_cons statement lists_dateNodes) tree
  rw [Set.image_image] at listed
  have gathered : (tree.reach [[.dates], [statement]]).flatMap dateNodes
      = (tree.pick [.dates]).flatMap fun block =>
          (block.pick [statement]).flatMap dateNodes := by
    simp only [reach, List.flatMap_assoc, List.flatMap_singleton]
  rw [gathered]
  exact listed

end Tree

/-! ## Headings -/

variable {tree : Tree} {contract : Contract}

/-- What an assembled contract has as headings is what its tree says: the name is the first
identifier below it, a date is the last one in document order below all statements of its kind, and
a party is the operand of the last statement of its kind. -/
theorem Contract.headed_of_ofTree (h : Contract.ofTree tree = .ok contract) :
    tree.Heads contract := by
  obtain ⟨clauses, -, rfl⟩ := exists_clauses_of_ofTree h
  constructor
  · have name : tree.identifierText
        = ((tree.reach [[.identifier]]).head?.map Tree.text).getD "" := by
      rw [Tree.identifierText, Tree.firstOf?_eq_head?_reach]
      cases (tree.reach [[.identifier]]).head? <;> rfl
    rw [withClauses, name]
    exact tree.lists_names.says_head (tree.along_subset _) Tree.text
  · exact (tree.lists_dates .beginDate).says_last (tree.along_subset _) Tree.text
  · exact (tree.lists_dates .dueDate).says_last (tree.along_subset _) Tree.text
  · exact (tree.lists_parties .application).says_last (tree.along_subset _) (Tree.textAt 2)
  · exact (tree.lists_parties .process).says_last (tree.along_subset _) (Tree.textAt 2)

/-- A contract with two identifiers. A date stands below another one, after it comes a statement of
the same kind without a date, and the second statement of the application has no operand. -/
def nestedHeadings : Tree :=
  let word := Tree.leaf .token
  let party := fun kind operands => Tree.inner kind ([word "party", word "="] ++ operands)
  .inner .contract
    [word "contract", .leaf .identifier "c", .leaf .identifier "d",
      .inner .dates
        [.inner .beginDate
          [.mk .datetime (some "2024-01-01 00:00:00")
            [.inner .token [.leaf .date "2024-01-02"]]]],
      .inner .parties
        [party .application [.leaf .string "'a'"], party .process [.leaf .identifier "p"]],
      .inner .dates [.inner .beginDate [word "2024-01-03"]],
      .inner .parties [party .application []]]

/-- The inner date is the last one and is not lost, and the application is empty although its first
statement has a text. -/
theorem Contract.headed_of_ofTree_nested :
    ∃ contract, Contract.ofTree nestedHeadings = .ok contract ∧ nestedHeadings.Heads contract ∧
      contract.name = "c" ∧ contract.beginDate = "2024-01-02" ∧ contract.dueDate = "" ∧
        contract.application = "" ∧ contract.process = "p" := by
  have made : Contract.ofTree nestedHeadings = .ok _ := rfl
  exact ⟨_, made, Contract.headed_of_ofTree made, rfl, rfl, rfl, rfl, rfl⟩

end Covenant
