import EditIdioms.Document.Reading
import EditIdioms.Files.Store
import EditIdioms.Text.Bytes
import EditIdioms.Text.LowerCase

/-!
# Datasets

A dataset is a directory with one directory for each project. Below a project, at any depth, stand
diff documents, told from other files by the end of their names. A document that cannot be loaded is
passed over; a directory that cannot be listed ends the walk. A directory whose path is too long to
lead to it does not count as one.

## Main definitions

* `DatasetFault` — what can be wrong, and its wording.
* `acceptsName` — whether a path names a diff document.
* `loadDiff`, `loadUnless` — loads and validates one document.
* `Dataset`, `Dataset.projects`, `Dataset.diffs` — the walk.
* `Crawl` — what a walk finds, whatever the source of the documents is.
* `Dataset.crawlUnless`, `Dataset.crawl` — the walk when the system refuses to read some files, and
  when it refuses nothing.

## Implementation notes

Paths are strings, so a file whose name is no text has no place here. Files have no permissions:
that the system refuses to read a file is told by a function of its path, and only reading a
document asks it, while listing a directory fails for the reasons of `Files.list` alone. There are
no symbolic links, so the walk through the entries of a directory is a recursion on them and comes
to an end. What it lists is sorted afterwards, so the order in which a system lists entries does not
matter.
-/

set_option autoImplicit false

namespace EditIdioms

/-- Why something cannot be read as text. -/
inductive ReadFault where
  /-- The file system refuses. -/
  | refused (cause : Cause)
  /-- The content is not UTF-8. -/
  | notText
deriving DecidableEq

/-- The wording of a fault. -/
def ReadFault.message : ReadFault → String
  | refused cause => cause.message
  | notText => "stream did not contain valid UTF-8"

/-- The text of a file. -/
def Files.text (files : Files) (path : String) : Except ReadFault String :=
  match files.content path with
  | .error cause => .error (.refused cause)
  | .ok content =>
    match Text.ofBytes? content with
    | some text => .ok text
    | none => .error .notText

/-- What can be wrong with a dataset or a document of it. -/
inductive DatasetFault where
  | malformed (path : String) (defect : DiffDefect)
  | unreadable (path : String) (fault : ReadFault)
  | undecodable (path : String) (fault : Json.Fault)
  | missingRoot (path : String)
deriving DecidableEq

/-- The wording of a fault. -/
def DatasetFault.message : DatasetFault → String
  | malformed path defect => "Malformed diff " ++ path ++ ": " ++ defect.message
  | unreadable path fault => "Failed to read " ++ path ++ ": " ++ fault.message
  | undecodable path _ => "Failed to decode " ++ path
  | missingRoot path => "Dataset root does not exist: " ++ path

/-- Whether the file name of a path ends with a suffix, upper and lower case being the same. -/
def acceptsName (suffix path : String) : Bool :=
  match Path.fileName? path with
  | none => false
  | some name => (Text.lowerCase suffix.toList).isSuffixOf (Text.lowerCase name.toList)

/-- Loads a diff document. One that names no path of its own goes by the path of its file. -/
def loadDiff (files : Files) (path : String) : Except DatasetFault FileDiff := do
  let text ←
    match files.text path with
    | .ok text => pure text
    | .error fault => throw (.unreadable path fault)
  let diff ←
    match Document.decode Document.readFileDiff text with
    | .ok diff => pure diff
    | .error fault => throw (.undecodable path fault)
  let diff := if diff.path.isEmpty then { diff with path } else diff
  match diff.defect? with
  | some defect => throw (.malformed diff.path defect)
  | none => return diff

/-- Loads a diff document, unless the system refuses to read it. -/
def loadUnless (refuses : String → Option Cause) (files : Files) (path : String) :
    Except DatasetFault FileDiff :=
  match refuses path with
  | some cause => .error (.unreadable path (.refused cause))
  | none => loadDiff files path

/-- The diff documents at some paths that can be loaded; the others are passed over. -/
def loadable (refuses : String → Option Cause) (files : Files) (paths : List String) :
    List FileDiff :=
  paths.filterMap fun path => (loadUnless refuses files path).toOption

/-- A project of a dataset: the name of its directory, and its path. -/
structure Project where
  id : String
  path : String
deriving DecidableEq

/-- A dataset: its directory, and how the names of its documents end. -/
structure Dataset where
  root : String
  suffix : String
deriving DecidableEq

mutual

/-- The paths from `path` on of the files that have an accepted name, when the entry stands at
`path`. -/
def Entry.documents (suffix path : String) : Entry → List String
  | .file _ => if acceptsName suffix path then [path] else []
  | .directory entries =>
    if Path.isTooLong path then if acceptsName suffix path then [path] else []
    else documentsOf suffix path entries

/-- The paths of the files that have an accepted name, below the entries of the directory `path`. -/
def Entry.documentsOf (suffix path : String) : List (String × Entry) → List String
  | [] => []
  | (name, e) :: rest => e.documents suffix (Path.join path name) ++ documentsOf suffix path rest

end

namespace Dataset

/-- The dataset in a directory, which must be there. -/
def open? (files : Files) (root suffix : String) : Except DatasetFault Dataset :=
  if files.isDirectory root then .ok { root, suffix } else .error (.missingRoot root)

/-- The entries of a directory, or why they cannot be listed. -/
def listing (files : Files) (path : String) : Except DatasetFault (List (String × Entry)) :=
  match files.list path with
  | .ok entries => .ok entries
  | .error cause => .error (.unreadable path (.refused cause))

/-- The projects, which are the directories in the root that their paths lead to, by name. -/
def projects (ds : Dataset) (files : Files) : Except DatasetFault (List Project) := do
  let entries ← listing files ds.root
  let found := (entries.filter (·.2.isDirectory)).map fun (name, _) =>
    { id := name, path := Path.join ds.root name : Project }
  return (found.filter fun p => !Path.isTooLong p.path).mergeSort fun p q => Text.atMost p.id q.id

/-- The paths of the documents of a project, component by component in order. -/
def documents (ds : Dataset) (files : Files) (project : Project) :
    Except DatasetFault (List String) := do
  let entries ← listing files project.path
  return (Entry.documentsOf ds.suffix project.path entries).mergeSort Path.atMost

/-- The documents of a project that can be loaded, when the system refuses to read some files. -/
def diffsUnless (ds : Dataset) (refuses : String → Option Cause) (files : Files)
    (project : Project) : Except DatasetFault (List FileDiff) := do
  return loadable refuses files (← ds.documents files project)

/-- The documents of a project that can be loaded. -/
def diffs (ds : Dataset) (files : Files) (project : Project) :
    Except DatasetFault (List FileDiff) :=
  ds.diffsUnless (fun _ => none) files project

end Dataset

/-- What a walk finds: the projects, and of each the documents that could be loaded. Documents need
not come from files. -/
structure Crawl where
  projects : Except DatasetFault (List Project)
  diffs : Project → Except DatasetFault (List FileDiff)

/-- The walk through a dataset, when the system refuses to read some of the files. -/
def Dataset.crawlUnless (ds : Dataset) (refuses : String → Option Cause) (files : Files) :
    Crawl where
  projects := ds.projects files
  diffs := ds.diffsUnless refuses files

/-- The walk through a dataset. -/
def Dataset.crawl (ds : Dataset) (files : Files) : Crawl := ds.crawlUnless (fun _ => none) files

end EditIdioms
