import EditIdioms.Code.Validation
import EditIdioms.Diff.Edit

/-!
# Compared files

Both revisions of a file and the edit script between them. A compared file is well formed when both
trees are forests and every node the script names is there; an ill-formed one is still usable, the
edits with missing nodes being passed over.

## Main definitions

* `FileDiff` — a compared file.
* `DiffDefect` — why one is ill-formed, and its wording.
* `FileDiff.defect?` — the first defect: of the tree before, of the tree after, then of the script
  in order.
* `FileDiff.resolve?`, `FileDiff.edits` — the edits with their sites.
-/

set_option autoImplicit false

namespace EditIdioms

/-- Both revisions of a file and the edits between them. -/
structure FileDiff where
  path : String := ""
  before : Tree
  after : Tree
  operations : List (Edit NodeId) := []
deriving DecidableEq

/-- Why a compared file is ill-formed. -/
inductive DiffDefect where
  /-- The tree before the change is no forest. -/
  | treeBefore (defect : TreeDefect)
  /-- The tree after the change is no forest. -/
  | treeAfter (defect : TreeDefect)
  /-- An operation names a node that is not in the tree before the change. -/
  | missingBefore (operation : Nat) (node : NodeId)
  /-- An operation names a node that is not in the tree after the change. -/
  | missingAfter (operation : Nat) (node : NodeId)
deriving DecidableEq

/-- The wording of a defect. -/
def DiffDefect.message : DiffDefect → String
  | treeBefore defect => "before tree: " ++ defect.message
  | treeAfter defect => "after tree: " ++ defect.message
  | missingBefore operation node =>
    "operation " ++ decimalText operation ++ " names missing before-node " ++ node.text
  | missingAfter operation node =>
    "operation " ++ decimalText operation ++ " names missing after-node " ++ node.text

namespace FileDiff

/-- The first missing node of an operation, the one before the change first. -/
def operationDefect? (d : FileDiff) (index : Nat) (operation : Edit NodeId) : Option DiffDefect :=
  match operation.before?.filter (!d.before.contains ·) with
  | some id => some (.missingBefore index id)
  | none => (operation.after?.filter (!d.after.contains ·)).map (.missingAfter index)

/-- The first defect of a compared file. -/
def defect? (d : FileDiff) : Option DiffDefect :=
  match d.before.defect? with
  | some defect => some (.treeBefore defect)
  | none =>
    match d.after.defect? with
    | some defect => some (.treeAfter defect)
    | none =>
      d.operations.zipIdx.findSome? fun (operation, index) => d.operationDefect? index operation

/-- The operation with its nodes looked up, unless one of them is missing. -/
def resolve? (d : FileDiff) : Edit NodeId → Option (Edit Site)
  | .insert node => (d.after.site? node).map .insert
  | .delete node => (d.before.site? node).map .delete
  | .update before after => do return .update (← d.before.site? before) (← d.after.site? after)
  | .move before after => do return .move (← d.before.site? before) (← d.after.site? after)

/-- The edits whose nodes are there, in script order. -/
def edits (d : FileDiff) : List (Edit Site) := d.operations.filterMap d.resolve?

end FileDiff

end EditIdioms
