import Covenant.Kind

/-!
# Contract trees

A node has a kind, children, and possibly a text of its own. Leaves carry the text of their
token; a node without text of its own reads as its children's texts, one after the other. A node
may have both a text and children: the text is then what it reads as, and the children still
count for navigation.
-/

set_option autoImplicit false

namespace Covenant

/-- A node of a contract tree with everything below it. -/
inductive Tree where
  | mk (kind : Kind) (value : Option String) (children : List Tree)
  deriving Inhabited, Repr

namespace Tree

/-- The kind of the node. -/
def kind : Tree → Kind
  | mk kind _ _ => kind

/-- The node's own text, if it has one. -/
def value : Tree → Option String
  | mk _ value _ => value

/-- The nodes directly below, in document order. -/
def children : Tree → List Tree
  | mk _ _ children => children

/-- A node that carries the text of one token. -/
def leaf (kind : Kind) (text : String) : Tree :=
  mk kind (some text) []

/-- A node that groups others. -/
def inner (kind : Kind) (children : List Tree) : Tree :=
  mk kind none children

mutual

/-- What the node reads as: its own text, or else its children's. -/
def text : Tree → String
  | mk _ (some value) _ => value
  | mk _ none children => textOf children

/-- The texts of several nodes, one after the other. -/
def textOf : List Tree → String
  | [] => ""
  | tree :: rest => tree.text ++ textOf rest

end

mutual

/-- The nodes below this one, each before the nodes below it. The node itself is not among them.
-/
def beneath : Tree → List Tree
  | mk _ _ children => beneathOf children

/-- Several nodes with the nodes below them. -/
def beneathOf : List Tree → List Tree
  | [] => []
  | tree :: rest => tree :: (tree.beneath ++ beneathOf rest)

end

/-- The nodes below this one that are of one of the kinds; without kinds, all of them. -/
def within (kinds : List Kind) (tree : Tree) : List Tree :=
  if kinds.isEmpty then tree.beneath
  else tree.beneath.filter fun node => kinds.contains node.kind

/-- The children that are of one of the kinds. -/
def pick (kinds : List Kind) (tree : Tree) : List Tree :=
  tree.children.filter fun node => kinds.contains node.kind

/-- The first child of the kind. -/
def firstOf? (kind : Kind) (tree : Tree) : Option Tree :=
  tree.children.find? fun node => node.kind == kind

/-! ## Reading constructed nodes -/

@[simp] theorem kind_mk (k : Kind) (v : Option String) (cs : List Tree) :
    (mk k v cs).kind = k := rfl

@[simp] theorem value_mk (k : Kind) (v : Option String) (cs : List Tree) :
    (mk k v cs).value = v := rfl

@[simp] theorem children_mk (k : Kind) (v : Option String) (cs : List Tree) :
    (mk k v cs).children = cs := rfl

@[simp] theorem kind_leaf (k : Kind) (t : String) : (leaf k t).kind = k := rfl

@[simp] theorem kind_inner (k : Kind) (cs : List Tree) : (inner k cs).kind = k := rfl

@[simp] theorem children_leaf (k : Kind) (t : String) : (leaf k t).children = [] := rfl

@[simp] theorem children_inner (k : Kind) (cs : List Tree) : (inner k cs).children = cs := rfl

/-- A leaf reads as its token. -/
@[simp] theorem text_leaf (k : Kind) (t : String) : (leaf k t).text = t := by
  simp [leaf, text]

/-- A grouping node reads as its children. -/
@[simp] theorem text_inner (k : Kind) (cs : List Tree) : (inner k cs).text = textOf cs := by
  simp [inner, text]

end Tree

end Covenant
