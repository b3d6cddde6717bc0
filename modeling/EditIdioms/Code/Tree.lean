import EditIdioms.Code.Kind

/-!
# Syntax trees in an arena

A syntax tree is an array of nodes that name each other by number, a parent and the children in
order. Nothing in the type says that the links agree: a tree read from a document may be anything,
and `EditIdioms.Code.Validation` tells which arrays are forests.

## Main definitions

* `NodeId` — the number of a node, a word of 32 bits.
* `Node`, `Tree` — a node with its links, and the array of all nodes.
* `ArenaFault` — an access to a node that is not there.
* `Tree.addRoot`, `Tree.addChild` — building a tree node by node.
-/

set_option autoImplicit false

namespace EditIdioms

/-- The number of a node in its tree. -/
structure NodeId where
  number : UInt32
deriving DecidableEq

namespace NodeId

/-- The position in the arena. -/
def index (id : NodeId) : Nat := id.number.toNat

/-- The number of the node at a position. -/
def ofIndex (i : Nat) : NodeId := ⟨UInt32.ofNat i⟩

/-- The number as messages and labels show it. -/
def text (id : NodeId) : String := "n" ++ decimalText id.index

theorem index_lt (id : NodeId) : id.index < UInt32.size := id.number.toNat_lt_size

theorem ofIndex_index (id : NodeId) : ofIndex id.index = id := by
  simp [ofIndex, index]

theorem index_ofIndex {i : Nat} (h : i < UInt32.size) : (ofIndex i).index = i := by
  simp [ofIndex, index, UInt32.toNat_ofNat_of_lt' h]

theorem index_ofIndex_le (i : Nat) : (ofIndex i).index ≤ i := by
  simpa [ofIndex, index] using Nat.mod_le i UInt32.size

end NodeId

/-- One node: its kind, its parent and its children in order. -/
structure Node where
  kind : NodeKind
  parent : Option NodeId := none
  children : List NodeId := []
deriving DecidableEq

/-- All nodes of one revision of a file. -/
structure Tree where
  nodes : Array Node := #[]
deriving DecidableEq

/-- An access to the arena at a number that names no node. -/
inductive ArenaFault where
  | outside (id : NodeId)
deriving DecidableEq

namespace Tree

/-- How many nodes there are. -/
def size (t : Tree) : Nat := t.nodes.size

/-- Whether the number names a node. -/
def contains (t : Tree) (id : NodeId) : Bool := id.index < t.size

/-- The node with the given number. -/
def node? (t : Tree) (id : NodeId) : Option Node := t.nodes[id.index]?

/-- The numbers of all nodes, ascending. -/
def ids (t : Tree) : List NodeId := (List.range t.size).map NodeId.ofIndex

/-- The number the next node gets. -/
def nextId (t : Tree) : NodeId := .ofIndex t.size

/-- Adds a node without parent. -/
def addRoot (t : Tree) (kind : NodeKind) : NodeId × Tree :=
  (t.nextId, ⟨t.nodes.push { kind }⟩)

/-- Adds a node as the last child of `parent`. The node is in the arena before it is listed with its
parent, so a parent outside the arena leaves the node behind, and a node can be its own parent. -/
def addChild (t : Tree) (parent : NodeId) (kind : NodeKind) : Except ArenaFault NodeId × Tree :=
  let id := t.nextId
  let nodes := t.nodes.push { kind, parent := some parent }
  if parent.index < nodes.size then
    (.ok id, ⟨nodes.modify parent.index fun n => { n with children := n.children ++ [id] }⟩)
  else
    (.error (.outside parent), ⟨nodes⟩)

end Tree

end EditIdioms
