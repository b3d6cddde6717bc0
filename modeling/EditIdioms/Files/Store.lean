import EditIdioms.Files.Entry
import EditIdioms.Files.Path

/-!
# Files

Reading and changing a tree of files by path. Every operation answers or says why it cannot, and
what an operation that fails half way has already changed stays changed.

## Main definitions

* `Cause` — why an operation cannot be carried out.
* `Files` — a tree of files, and the directory where relative paths start.
* `Target`, `Files.locate` — where a path leads.
* `Files.content`, `Files.names`, `Files.isDirectory` — reading.
* `Disk` — operations that change files: `makeDirectory`, `makeDirectories`, `create`, `store`.

## Implementation notes

The files are one tree, in which an entry is a file with its content or a directory with its entries
in the order in which they are listed. Names and paths are strings, so names that are no text are
left out. There are no symbolic links and no other kinds of entries, so a path leads to one location
and different locations hold different files. There are no permissions and no limits on the space
either: an operation fails for one of the reasons in `Cause` only, all of which come from the path
and from what is there. Nobody else changes the files while an operation is carried out.
-/

set_option autoImplicit false

namespace EditIdioms

/-- Why an operation on files cannot be carried out. -/
inductive Cause where
  | notFound
  | alreadyExists
  | notDirectory
  | isDirectory
  | nameTooLong
  | nulInName
deriving DecidableEq

/-- The wording of a cause. -/
def Cause.message : Cause → String
  | notFound => "No such file or directory (os error 2)"
  | alreadyExists => "File exists (os error 17)"
  | notDirectory => "Not a directory (os error 20)"
  | isDirectory => "Is a directory (os error 21)"
  | nameTooLong => "File name too long (os error 36)"
  | nulInName => "file name contained an unexpected NUL byte"

/-- A tree of files, and the directory where relative paths start. -/
structure Files where
  root : Entry := .directory []
  here : List String := []

/-- Where a path leads. -/
inductive Target where
  /-- To something that is there. -/
  | present (location : List String) (entry : Entry)
  /-- To a name that an existing directory does not have. -/
  | absent (directory : List String) (name : String)

namespace Files

/-- The most bytes a name may have. -/
def nameLimit : Nat := 255

/-- Follows the pieces of a path from a location on. Each piece, even an empty one, is looked up in
a directory; a name that is not there may only be followed by slashes. -/
def follow (root : Entry) : (location : List String) → (pieces : List String) → Except Cause Target
  | location, [] =>
    match root.at? location with
    | some entry => .ok (.present location entry)
    | none => .error .notFound
  | location, piece :: rest =>
    match root.at? location with
    | none => .error .notFound
    | some (.file _) => .error .notDirectory
    | some (.directory entries) =>
      if piece = "" ∨ piece = "." then follow root location rest
      else if piece = ".." then follow root location.dropLast rest
      else if nameLimit < piece.utf8ByteSize then .error .nameTooLong
      else
        match entries.lookup piece with
        | some _ => follow root (location ++ [piece]) rest
        | none => if rest.all (·.isEmpty) then .ok (.absent location piece) else .error .notFound

/-- Where the pieces of a path lead. -/
def locatePieces (files : Files) (path : String) (pieces : List String) : Except Cause Target :=
  if path.isEmpty then .error .notFound
  else if path.toList.contains '\x00' then .error .nulInName
  else if Path.isTooLong path then .error .nameTooLong
  else follow files.root (if Path.isAbsolute path then [] else files.here) pieces

/-- Where a path leads; one that ends with a slash leads to a directory. -/
def locate (files : Files) (path : String) : Except Cause Target :=
  files.locatePieces path (Path.pieces path)

/-- Where a path leads without the slashes at its end. -/
def locateBare (files : Files) (path : String) : Except Cause Target :=
  files.locatePieces path (Path.barePieces path)

/-- Answers if there is a directory in which the last name of a path may stand, whatever that name
is. -/
def seekPlace (files : Files) (path : String) : Except Cause Unit := do
  match ← files.locatePieces path ((Path.barePieces path).dropLast ++ [""]) with
  | .present _ _ => return ()
  | .absent _ _ => throw .notFound

/-- The entry a path leads to. -/
def entry (files : Files) (path : String) : Except Cause Entry := do
  match ← files.locate path with
  | .present _ entry => return entry
  | .absent _ _ => throw .notFound

/-- Whether a path leads to a directory. -/
def isDirectory (files : Files) (path : String) : Bool :=
  match files.entry path with
  | .ok entry => entry.isDirectory
  | .error _ => false

/-- The content of a file. -/
def content (files : Files) (path : String) : Except Cause (List UInt8) := do
  match ← files.entry path with
  | .file content => return content
  | .directory _ => throw .isDirectory

/-- The entries of a directory, in the order in which it lists them. -/
def list (files : Files) (path : String) : Except Cause (List (String × Entry)) := do
  match ← files.entry path with
  | .file _ => throw .notDirectory
  | .directory entries => return entries

/-- Puts an entry at a location. -/
def put (files : Files) (location : List String) (new : Entry) : Files :=
  { files with root := files.root.put location new }

end Files

/-- An operation that may change files and may fail. -/
abbrev Disk (α : Type) := ExceptT Cause (StateM Files) α

namespace Disk

/-- An operation that only looks. -/
def look {α : Type} (read : Files → Except Cause α) : Disk α := do
  match read (← get) with
  | .ok a => return a
  | .error cause => throw cause

/-- Makes a directory. -/
def makeDirectory (path : String) : Disk Unit := do
  match ← look (·.locateBare path) with
  | .present _ _ => throw .alreadyExists
  | .absent directory name => modify (·.put (directory ++ [name]) (.directory []))

/-- Goes on after a failure to make a directory that is there anyway. -/
def unlessDirectory (path : String) (cause : Cause) : Disk Unit := do
  if (← get).isDirectory path then return () else throw cause

/-- Makes a directory and those above it that are missing; `above` are the components above it, last
one first. -/
def makeDirectoriesBelow : (path : String) → (above : List String) → Disk Unit
  | path, above =>
    tryCatch (makeDirectory path) fun
      | .notFound => do
        match above with
        | [] => pure ()
        | last :: rest => makeDirectoriesBelow (Path.ofComponents (last :: rest).reverse) rest
        tryCatch (makeDirectory path) (unlessDirectory path)
      | cause => unlessDirectory path cause

/-- Makes a directory and those above it that are missing, unless it is there. -/
def makeDirectories (path : String) : Disk Unit := do
  if path.isEmpty then return ()
  makeDirectoriesBelow path (Path.components path).dropLast.reverse

/-- Makes an empty file, in place of one that may be there, and gives its location. No file has a
slash behind its name, so such a name is not even looked for. -/
def create (path : String) : Disk (List String) := do
  if Path.endsOpen path then
    look (·.seekPlace path)
    throw .isDirectory
  match ← look (·.locateBare path) with
  | .present _ (.directory _) => throw .isDirectory
  | .present location (.file _) =>
    modify (·.put location (.file []))
    return location
  | .absent directory name =>
    modify (·.put (directory ++ [name]) (.file []))
    return directory ++ [name]

/-- Stores the content of a file. -/
def store (location : List String) (content : List UInt8) : Disk Unit :=
  modify (·.put location (.file content))

end Disk

end EditIdioms
