import EditIdioms.Command.Basic
import EditIdioms.Files.Change

/-!
# The program

Reads from the file system what a command may look at, carries the command out on that, and writes
back what it changed.

## Main definitions

* `learn` — what is at a path.
* `inputs` — the paths a command may look at.
* `main` — the program.
-/

set_option autoImplicit false

namespace EditIdioms.Program

/-- A location as an absolute path. -/
def pathOf (location : List String) : String := "/" ++ "/".intercalate location

/-- What is at an absolute path; the entries of a directory only when `deep`. -/
partial def entryAt (path : String) (deep : Bool) : IO (Option Entry) := do
  let place := (← IO.currentDir) / path
  if ← place.isDir then
    if !deep then return some (.directory [])
    let mut entries := #[]
    for child in ← place.readDir do
      if let some e ← entryAt (Path.join path child.fileName) deep then
        entries := entries.push (child.fileName, e)
    return some (.directory entries.toList)
  else if ← place.pathExists then
    return some (.file (← IO.FS.readBinFile path).data.toList)
  else return none

/-- Adds what is at a path, and above it, unless it is known. -/
def learn (files : Files) (path : String) (deep : Bool) : IO Files := do
  let mut root := files.root
  let mut location := if Path.isAbsolute path then [] else files.here
  for piece in Path.pieces path do
    if piece = ".." then location := location.dropLast
    else if piece ≠ "" ∧ piece ≠ "." then
      location := location ++ [piece]
      if (root.at? location).isNone then
        if let some e ← entryAt (pathOf location) false then root := root.put location e
  if deep then
    if let some e ← entryAt (pathOf location) true then root := root.put location e
  return { files with root }

/-- The directory where the program was started, and nothing else. -/
def startingFiles : IO Files := do
  let here := (Path.pieces (toString (← IO.currentDir))).filter (· ≠ "")
  learn { here } (pathOf here) false

/-- The files a command may look at. -/
def inputs (command : Command) : IO Files := do
  let files ← startingFiles
  match command with
  | .rules => return files
  | .dump log _ => learn files log false
  | .mine options =>
    let files ← match options.settingsFile? with
      | some path => learn files path false
      | none => pure files
    match options.settings files with
    | .error _ => return files
    | .ok s =>
      let files ← learn files s.datasetRoot true
      [generalTableName, projectTableName].foldlM
        (fun files name => learn files (Path.join s.outputDirectory name) false)
        (← learn files s.logPath false)

/-- Carries out a change. -/
def apply : Change → IO Unit
  | .made directory => IO.FS.createDir (pathOf directory)
  | .written file content => IO.FS.writeBinFile (pathOf file) ⟨content.toArray⟩

/-- How the program is called. -/
def usage : List String :=
  [ "Usage: <command>",
    "  mine [DATASET] [-o DIR] [--config FILE] [--suffix SUFFIX] [--compress] [--no-specialize]",
    "  dump LOG [--compressed]",
    "  rules" ]

/-- The version of the program. -/
def version : String := "0.1.0"

end EditIdioms.Program

open EditIdioms EditIdioms.Program in
/-- The program. -/
def main (arguments : List String) : IO UInt32 := do
  match Command.parse arguments with
  | .error fault =>
    let lines := if fault = .versionWanted then [version] else usage
    if fault.exitCode = 0 then lines.forM IO.println else lines.forM IO.eprintln
    return fault.exitCode.toUInt32
  | .ok command =>
    let before ← inputs command
    let (outcome, after) := (command.execute (.eager 2)).run before
    (after.root.changes [] (some before.root)).forM apply
    outcome.lines.forM IO.println
    match outcome.failure? with
    | none => return 0
    | some message =>
      IO.eprintln ("Error: " ++ message)
      return 1
