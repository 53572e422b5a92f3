import Covenant.Tree

/-!
# Faults of a tree

What can be wrong with a tree that was not built by the grammar: a node of another kind than was
asked for, a child that is not there, a message condition of an unknown shape. A fault that
concerns a place in the tree names the node's kind and the slot (`Fault.place?`).
-/

set_option autoImplicit false

namespace Covenant

/-- A place among a node's children: a position, or a child known by its part. -/
inductive Slot where
  | position (index : Int)
  | name
  | rolePlayer
  deriving DecidableEq, Repr

/-- How a slot is shown: a position as a number, a part in quotes. -/
def Slot.text : Slot → String
  | .position index => toString index
  | .name => "'name'"
  | .rolePlayer => "'rolePlayer'"

/-- Why a tree could not be read. -/
inductive Fault where
  /-- A reader for some kinds was given a node of another. -/
  | unexpectedKind (expected : List Kind) (actual : Kind)
  /-- The root of a document is no contract. -/
  | notContract (actual : Kind)
  /-- A node lacks a child. -/
  | missing (kind : Kind) (slot : Slot)
  /-- A message condition has a number of children that no production gives it. -/
  | messageShape (arity : Nat)
  /-- A comparison has a left side, 1, and a right side, 2, and no others. -/
  | noSuchSide (side : Int)
  deriving DecidableEq, Repr

namespace Fault

/-- The node kind and the slot that a malformed tree lacks. -/
def place? : Fault → Option (Kind × Slot)
  | missing kind slot => some (kind, slot)
  | messageShape arity => some (.messageContent, .position arity)
  | _ => none

/-- The report on a missing slot. -/
def missingMessage (kind : Kind) (slot : Slot) : String :=
  "internal compiler error: " ++ kind.name ++ " node has no child at slot " ++ slot.text

/-- The report on a fault. -/
def message : Fault → String
  | unexpectedKind expected actual =>
      "internal compiler error: expected a " ++ String.intercalate ", " (expected.map Kind.name)
        ++ " node, got " ++ actual.name
  | notContract actual =>
      "internal compiler error: canonicalize() expects a contract node, got " ++ actual.name
  | missing kind slot => missingMessage kind slot
  | messageShape arity =>
      missingMessage .messageContent (.position arity)
        ++ " (unexpected message-content shape)"
  | noSuchSide side => "operand slot must be 1 or 2, got " ++ toString side

end Fault

end Covenant
