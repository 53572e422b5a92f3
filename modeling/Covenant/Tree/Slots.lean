import Covenant.Tree.Fault

/-!
# Named parts of a node

The children of a node stand in the order of its production:

* `rolePlayer = process`, `process = landlord` and `Timeout ( 60 )` have their operand at
  child 2;
* `onBreach ( log ( "late" ) )` has its message at child 4;
* `MessageContent ( rent < 900 )` has its sides at children 2 and 4, its comparator at child 3;
* `MessageContent ( rent )` and `MessageContent ( )` ask for presence only.

The readers below give these places their names. Each first checks the node's kind, and a reader
of a required part reports where it is missing.
-/

set_option autoImplicit false

namespace Covenant.Tree

/-- Succeeds on nodes of the given kinds. -/
def expect (kinds : List Kind) (tree : Tree) : Except Fault Unit :=
  if tree.kind ∈ kinds then .ok () else .error (.unexpectedKind kinds tree.kind)

/-- The child at a position. -/
def nth (index : Nat) (tree : Tree) : Except Fault Tree :=
  match tree.children[index]? with
  | some child => .ok child
  | none => .error (.missing tree.kind (.position index))

/-- The child at a position given by any integer; no child has a negative one. -/
def childAt (index : Int) (tree : Tree) : Except Fault Tree :=
  match index with
  | .ofNat position => tree.nth position
  | .negSucc _ => .error (.missing tree.kind (.position index))

/-- The text of the child at a position, empty where there is none. -/
def textAt (index : Nat) (tree : Tree) : String :=
  match tree.children[index]? with
  | some child => child.text
  | none => ""

/-! ## Contract -/

/-- The text of the first identifier, empty where there is none. -/
def identifierText (tree : Tree) : String :=
  match tree.firstOf? .identifier with
  | some identifier => identifier.text
  | none => ""

/-- The name that a contract declares. -/
def contractTitle (tree : Tree) : Except Fault String := do
  tree.expect [.contract]
  return tree.identifierText

/-- The text of the operand in a party statement. -/
def partyText (tree : Tree) : String :=
  tree.textAt 2

/-- The operand of a party statement, empty where it is left out. -/
def partyOperand (tree : Tree) : Except Fault String := do
  tree.expect [.application, .process]
  return tree.partyText

/-- The dates below a node. -/
def dateNodes (tree : Tree) : List Tree :=
  tree.within [.date, .datetime]

/-- The dates of a date statement. -/
def statedDates (tree : Tree) : Except Fault (List Tree) := do
  tree.expect [.beginDate, .dueDate]
  return tree.dateNodes

/-! ## Clause -/

/-- The category of a clause: right, obligation or prohibition. -/
def clauseCategory (tree : Tree) : Except Fault String := do
  tree.expect [.clause]
  let category ← tree.nth 0
  return category.text

/-- The name that a clause declares. -/
def clauseTitle (tree : Tree) : Except Fault String := do
  tree.expect [.clause]
  match tree.firstOf? .identifier with
  | some identifier => return identifier.text
  | none => throw (.missing tree.kind .name)

/-- The role player statement of a clause. -/
def roleStatement (tree : Tree) : Except Fault Tree := do
  tree.expect [.clause]
  match tree.firstOf? .rolePlayer with
  | some statement => return statement
  | none => throw (.missing tree.kind .rolePlayer)

/-- The role that a role player statement gives. -/
def statedRole (tree : Tree) : Except Fault String := do
  tree.expect [.rolePlayer]
  let role ← tree.nth 2
  return role.text

/-- The text that a breach statement logs. -/
def loggedText (tree : Tree) : String :=
  tree.textAt 4

/-- The message of a breach statement, empty where it is left out. -/
def breachText (tree : Tree) : Except Fault String := do
  tree.expect [.onBreach]
  return tree.loggedText

/-! ## Terms -/

/-- The operand of a timeout. -/
def duration (tree : Tree) : Except Fault Tree := do
  tree.expect [.timeout]
  tree.nth 2

/-- Whether a message condition tests for presence only; otherwise it is a comparison. -/
def testsPresence (tree : Tree) : Except Fault Bool := do
  tree.expect [.messageContent]
  match tree.children.length with
  | 3 | 4 => return true
  | 6 => return false
  | arity => throw (.messageShape arity)

/-- A side of a comparison: 1 is the left one, 2 the right one. -/
def sideAt (side : Int) (tree : Tree) : Except Fault Tree := do
  tree.expect [.messageContent]
  if side = 1 then tree.nth 2
  else if side = 2 then tree.nth 4
  else throw (.noSuchSide side)

/-- The comparator of a comparison. -/
def comparatorText (tree : Tree) : Except Fault String := do
  tree.expect [.messageContent]
  let comparator ← tree.nth 3
  return comparator.text

/-! ## When readers succeed -/

/-- A node of an expected kind passes. -/
theorem expect_eq_ok {kinds : List Kind} {tree : Tree} (h : tree.kind ∈ kinds) :
    tree.expect kinds = .ok () := if_pos h

/-- A child is there iff the node has more children than its position says. -/
theorem nth_isOk_iff (index : Nat) (tree : Tree) :
    (∃ child, tree.nth index = .ok child) ↔ index < tree.children.length := by
  unfold nth
  by_cases h : index < tree.children.length
  · simp [h]
  · simp [h]

end Covenant.Tree
