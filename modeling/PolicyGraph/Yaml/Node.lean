import PolicyGraph.Yaml.Token

/-!
# Nodes of a document

A document as a tree of nodes in which aliases are still leaves: an alias names a slot, and the table
of a document says which node stands in it. A node may contain an alias of itself, and aliases can
multiply what a document holds, so whoever reads a document is bounded in how many of them are followed.
-/

namespace PolicyGraph.Yaml

/-- What may be written in front of a node: a slot that aliases can name, and a tag. -/
structure Properties where
  slot : Option Nat := none
  tag : Option String := none
  deriving DecidableEq, Repr, Inhabited

inductive Node
  | alias (slot : Nat)
  | scalar (properties : Properties) (style : ScalarStyle) (text : String)
  | sequence (properties : Properties) (items : List Node)
  | mapping (properties : Properties) (entries : List (Node × Node))
  deriving Repr, Inhabited

namespace Node

/-- The plain scalar without characters, which stands where nothing is written. -/
def empty : Node := .scalar {} .plain ""

/-- A node in a slot, as an entry of the table. -/
def entry (p : Properties) (node : Node) : List (Nat × Node) :=
  p.slot.toList.map (·, node)

mutual

/-- The nodes that stand in slots, in the order in which they begin. -/
def inSlots : Node → List (Nat × Node)
  | .alias _ => []
  | node@(.scalar p _ _) => entry p node
  | node@(.sequence p items) => entry p node ++ inSlotsOfItems items
  | node@(.mapping p entries) => entry p node ++ inSlotsOfEntries entries

def inSlotsOfItems : List Node → List (Nat × Node)
  | [] => []
  | node :: rest => node.inSlots ++ inSlotsOfItems rest

def inSlotsOfEntries : List (Node × Node) → List (Nat × Node)
  | [] => []
  | (key, value) :: rest => key.inSlots ++ value.inSlots ++ inSlotsOfEntries rest

end

mutual

/-- The length of the node's description: one for a leaf, two more than its parts for a collection. -/
def size : Node → Nat
  | .alias _ => 1
  | .scalar .. => 1
  | .sequence _ items => 2 + sizeOfItems items
  | .mapping _ entries => 2 + sizeOfEntries entries

def sizeOfItems : List Node → Nat
  | [] => 0
  | node :: rest => node.size + sizeOfItems rest

def sizeOfEntries : List (Node × Node) → Nat
  | [] => 0
  | (key, value) :: rest => key.size + value.size + sizeOfEntries rest

end

end Node

/-- A document: its root and the nodes that aliases can name. -/
structure Document where
  root : Node
  slots : List (Nat × Node)
  deriving Repr, Inhabited

namespace Document

/-- How deep collections may be nested when aliases are followed. -/
def maxDepth : Nat := 128

/-- The node that an alias stands for, or the node itself. The last node that began in a slot holds
it. -/
def follow (doc : Document) : Node → Node
  | .alias slot => ((doc.slots.reverse.find? (·.1 == slot)).map (·.2)).getD .empty
  | node => node

def ofRoot (root : Node) : Document := ⟨root, root.inSlots⟩

/-- How many aliases may be followed: a hundred for each part of the document. -/
def aliasLimit (doc : Document) : Nat := 100 * doc.root.size

/-- The node to read. Following an alias takes one of those that are still allowed. -/
def visit (doc : Document) (node : Node) : StateT Nat Option Node := fun left =>
  match node with
  | .alias _ => if left = 0 then none else some (doc.follow node, left - 1)
  | node => some (node, left)

end Document

end PolicyGraph.Yaml
