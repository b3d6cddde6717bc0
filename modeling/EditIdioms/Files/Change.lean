import EditIdioms.Files.Entry

/-!
# Changes to a tree of files

## Main definitions

* `Change` — a directory made, or a file written.
* `Entry.changes` — what leads from one tree to another one that has lost nothing, directories
  before what is in them.
-/

set_option autoImplicit false

namespace EditIdioms

/-- A change to a tree of files. -/
inductive Change where
  | made (directory : List String)
  | written (file : List String) (content : List UInt8)
deriving DecidableEq

mutual

/-- The changes at a location, given what was there before. -/
def Entry.changes (location : List String) (before? : Option Entry) : Entry → List Change
  | .file content =>
    match before? with
    | some (.file old) => if old = content then [] else [.written location content]
    | _ => [.written location content]
  | .directory entries =>
    match before? with
    | some (.directory old) => changesOf location old entries
    | _ => .made location :: changesOf location [] entries

/-- The changes to the entries of a directory. -/
def Entry.changesOf (location : List String) (before : List (String × Entry)) :
    List (String × Entry) → List Change
  | [] => []
  | (name, e) :: rest =>
    e.changes (location ++ [name]) (before.lookup name) ++ changesOf location before rest

end

end EditIdioms
