import EditIdioms.Code.Tree

/-!
# Which arenas are forests

A tree read from a document is checked before it is trusted: links must point into the arena, parent
and child links must agree, and every node must be met exactly once when the forest is walked from
the nodes without parent. The first defect found is reported.

## Main definitions

* `TreeDefect` — the ways an arena can fail to be a forest, and their wording.
* `Tree.linkDefect?` — a defect of one node's own links.
* `Tree.sweep` — the walk from the roots, which strikes every node it meets off a list.
* `Tree.validate`, `Tree.defect?` — the first defect of a tree.

## Implementation notes

Meeting a number outside the arena is a fault of the walk and no defect that it could report. That
it never happens, since the links are checked first, is proved and not built in. The walk keeps the
list of the nodes that it has not met, which gets shorter with every node, so it comes to an end in
every arena, also in one with cycles.

Nodes have numbers of 32 bits, and an arena may have more nodes than there are numbers. Numbers then
start over, and a node that shares its number with an earlier one cannot be told from it: its own
links are not looked at here, and as the walk cannot meet it, such an arena is refused. Which defect
is reported for so large an arena is not claimed; theorems that need the numbers to be distinct say
so by a bound on the size.
-/

set_option autoImplicit false

namespace EditIdioms

/-- Why an arena is no forest. -/
inductive TreeDefect where
  /-- A node names a parent outside the arena. -/
  | danglingParent (node parent : NodeId)
  /-- A node names a parent that does not list it. -/
  | unlisted (node parent : NodeId)
  /-- A node lists a child outside the arena. -/
  | danglingChild (node child : NodeId)
  /-- A node lists a child that does not name it as parent. -/
  | foreignChild (child node : NodeId)
  /-- A node is met a second time. -/
  | listedTwice (node : NodeId)
  /-- A node is not below any root. -/
  | cyclic (node : NodeId)
deriving DecidableEq

/-- The wording of a defect. -/
def TreeDefect.message : TreeDefect → String
  | danglingParent node parent => node.text ++ " has dangling parent " ++ parent.text
  | unlisted node parent => node.text ++ " is not listed among the children of " ++ parent.text
  | danglingChild node child => node.text ++ " has dangling child " ++ child.text
  | foreignChild child node => child.text ++ " does not point back to parent " ++ node.text
  | listedTwice node => node.text ++ " is listed more than once"
  | cyclic node => node.text ++ " is part of a cycle"

namespace Tree

/-- What is wrong with the link of `id` to its parent. -/
def parentDefect? (t : Tree) (id parent : NodeId) : Option TreeDefect :=
  match t.node? parent with
  | none => some (.danglingParent id parent)
  | some above => if id ∈ above.children then none else some (.unlisted id parent)

/-- What is wrong with the link of `id` to one of its children. -/
def childDefect? (t : Tree) (id child : NodeId) : Option TreeDefect :=
  match t.node? child with
  | none => some (.danglingChild id child)
  | some below => if below.parent = some id then none else some (.foreignChild child id)

/-- The first defect of a node's links, the parent's before the children's. -/
def linkDefect? (t : Tree) (id : NodeId) : Option TreeDefect :=
  match t.node? id with
  | none => none
  | some node =>
    match node.parent.bind (t.parentDefect? id) with
    | some defect => some defect
    | none => node.children.findSome? (t.childDefect? id)

/-- The children a node lists, whether they are there or not. -/
def listed (t : Tree) (id : NodeId) : List NodeId :=
  match t.node? id with
  | none => []
  | some node => node.children

/-- The nodes without parent, ascending. -/
def roots (t : Tree) : List NodeId :=
  t.ids.filter fun id => (t.node? id).any (·.parent.isNone)

/-- Walks on from the nodes on `stack`, each with everything below it before the next, and strikes
what it meets off `unseen`. Meeting a node that is not on the list any more is a defect, and so is a
node that is still on it at the end. It is a fault to meet a number outside the arena. -/
def sweep (t : Tree) (unseen : List NodeId) :
    (stack : List NodeId) → Except ArenaFault (Option TreeDefect)
  | [] => .ok (unseen.head?.map .cyclic)
  | id :: rest =>
    match t.node? id with
    | none => .error (.outside id)
    | some node =>
      if id ∈ unseen then t.sweep (unseen.erase id) (node.children ++ rest)
      else .ok (some (.listedTwice id))
termination_by unseen.length
decreasing_by
  rename_i h
  rw [List.length_erase_of_mem h]
  have := List.length_pos_of_mem h
  omega

/-- Looks for the first defect of a tree: a defect of some node's links, in the order of the nodes,
else one of the walk, which starts with the last root. The walk never meets the nodes for which
there are no numbers left. -/
def validate (t : Tree) : Except ArenaFault (Option TreeDefect) :=
  match t.ids.findSome? t.linkDefect? with
  | some defect => .ok (some defect)
  | none =>
    if t.size ≤ UInt32.size then t.sweep t.ids t.roots.reverse
    else .ok (some (.cyclic (.ofIndex UInt32.size)))

/-- The first defect of a tree. The walk only meets numbers that were found inside the arena, so
there is no fault to report. -/
def defect? (t : Tree) : Option TreeDefect :=
  match t.validate with
  | .ok defect? => defect?
  | .error _ => none

theorem sweep_nil (t : Tree) (unseen : List NodeId) :
    t.sweep unseen [] = .ok (unseen.head?.map .cyclic) := by
  rw [sweep]

theorem sweep_cons (t : Tree) (unseen : List NodeId) (id : NodeId) (rest : List NodeId) :
    t.sweep unseen (id :: rest) =
      match t.node? id with
      | none => .error (.outside id)
      | some node =>
        if id ∈ unseen then t.sweep (unseen.erase id) (node.children ++ rest)
        else .ok (some (.listedTwice id)) := by
  rw [sweep]

end Tree

end EditIdioms
