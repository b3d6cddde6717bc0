import EditIdioms.Code.Tree

/-!
# Navigating a tree

A site is a node together with the tree it stands in. Navigation goes from site to site along the
links of the arena. Links that point outside are passed over where a neighbour is asked for, and
counted where links are counted.

Walks that follow links as far as they go carry a bound: on a tree without cycles no chain of links
is longer than the tree has nodes, so the size of the tree bounds every walk, and the bound is
hidden behind the functions without it.

## Main definitions

* `Site`, `Tree.site?` — a node in its tree.
* `Site.parent?`, `Site.children`, `Site.child?` — the neighbours.
* `Site.indexInParent` — the position among the siblings.
* `Site.ancestors`, `Site.walk` — everything above, and everything from here down in pre-order.
* `Site.enclosingExecutable?` — the nearest executable above.
* `Site.sameStructure` — whether two subtrees agree in kinds and shape.
-/

set_option autoImplicit false

namespace EditIdioms

/-- A node in its tree. -/
structure Site where
  tree : Tree
  id : NodeId
  inArena : id.index < tree.nodes.size

/-- The site of a number, if it names a node. -/
def Tree.site? (t : Tree) (id : NodeId) : Option Site :=
  if h : id.index < t.nodes.size then some ⟨t, id, h⟩ else none

/-- The sites of a tree, by ascending number. -/
def Tree.sites (t : Tree) : List Site := t.ids.filterMap t.site?

namespace Site

/-- The node at the site. -/
def node (s : Site) : Node :=
  have := s.inArena
  s.tree.nodes[s.id.index]

/-- The kind of the node. -/
def kind (s : Site) : NodeKind := s.node.kind

/-- The parent, unless the node has none or names one outside the arena. -/
def parent? (s : Site) : Option Site := s.node.parent.bind s.tree.site?

/-- The children inside the arena, in order. -/
def children (s : Site) : List Site := s.node.children.filterMap s.tree.site?

/-- The child listed at a position, unless nothing is listed there or it is outside the arena. -/
def child? (s : Site) (i : Nat) : Option Site := s.node.children[i]?.bind s.tree.site?

/-- How many children are listed. -/
def childCount (s : Site) : Nat := s.node.children.length

/-- Where the parent lists the node first; nothing for a node without parent or an unlisted one. It
is a fault to ask this of a node whose parent is outside the arena. -/
def indexInParent (s : Site) : Except ArenaFault (Option Nat) :=
  match s.node.parent with
  | none => .ok none
  | some parent =>
    match s.tree.node? parent with
    | none => .error (.outside parent)
    | some above => .ok (above.children.idxOf? s.id)

/-- At most `bound` nodes above the site, nearest first. -/
def ancestorsWithin : (bound : Nat) → Site → List Site
  | 0, _ => []
  | bound + 1, s =>
    match s.parent? with
    | none => []
    | some p => p :: ancestorsWithin bound p

/-- The parent, its parent and so on. -/
def ancestors (s : Site) : List Site := ancestorsWithin s.tree.size s

/-- At most `bound` levels of the subtree at the site, in pre-order. -/
def walkWithin : (bound : Nat) → Site → List Site
  | 0, _ => []
  | bound + 1, s => s :: s.children.flatMap (walkWithin bound)

/-- The subtree at the site in pre-order. -/
def walk (s : Site) : List Site := walkWithin s.tree.size s

/-- The nearest executable above the site. -/
def enclosingExecutable? (s : Site) : Option Site := s.ancestors.find? (·.kind.isExecutable)

/-- Whether two subtrees agree down to `bound` levels in kinds and in what is below each node. -/
def sameStructureWithin : (bound : Nat) → Site → Site → Bool
  | 0, _, _ => false
  | bound + 1, s, t =>
    s.kind.equal t.kind && s.childCount == t.childCount &&
      (s.children.zip t.children).all fun (a, b) => sameStructureWithin bound a b

/-- Whether two subtrees, perhaps of different trees, agree in kinds and in what is below each
node. -/
def sameStructure (s t : Site) : Bool := sameStructureWithin (max s.tree.size t.tree.size) s t

/-- The site as messages show it. -/
def text (s : Site) : String := s.id.text ++ ":" ++ s.kind.label

end Site

end EditIdioms
