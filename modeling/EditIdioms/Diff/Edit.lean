import EditIdioms.Code.Site

/-!
# Edits

The four changes a comparison of two trees reports. An edit script names nodes by number; once the
numbers are looked up in the two trees, the same edit carries sites. Both are one type, `Edit`, over
what stands for a node.

## Main definitions

* `EditKind` — the four kinds.
* `Edit` — an edit with its nodes; `Edit.before?` and `Edit.after?` are the nodes by revision.
* `Edit.inserted?`, `Edit.deleted?`, `Edit.pair?` — the nodes by kind of edit.
-/

set_option autoImplicit false

namespace EditIdioms

/-- A kind of edit. -/
inductive EditKind where
  | insert
  | delete
  | update
  | move
deriving DecidableEq

/-- The kind as it is shown. -/
def EditKind.text : EditKind → String
  | insert => "insert"
  | delete => "delete"
  | update => "update"
  | move => "move"

/-- One edit. An inserted node is in the revision after the change and a deleted one in the revision
before it; an updated or moved node is in both. -/
inductive Edit (α : Type) where
  | insert (node : α)
  | delete (node : α)
  | update (before after : α)
  | move (before after : α)
deriving DecidableEq

namespace Edit

variable {α : Type}

/-- The kind of the edit. -/
def kind : Edit α → EditKind
  | insert _ => .insert
  | delete _ => .delete
  | update _ _ => .update
  | move _ _ => .move

/-- The node in the revision before the change. -/
def before? : Edit α → Option α
  | insert _ => none
  | delete node => some node
  | update before _ => some before
  | move before _ => some before

/-- The node in the revision after the change. -/
def after? : Edit α → Option α
  | insert node => some node
  | delete _ => none
  | update _ after => some after
  | move _ after => some after

/-- The node an insertion added. -/
def inserted? : Edit α → Option α
  | insert node => some node
  | _ => none

/-- The node a deletion removed. -/
def deleted? : Edit α → Option α
  | delete node => some node
  | _ => none

/-- The two nodes of an update or a move. -/
def pair? : Edit α → Option (α × α)
  | update before after => some (before, after)
  | move before after => some (before, after)
  | _ => none

end Edit

end EditIdioms
