import EditIdioms.Broadcast.Sink
import EditIdioms.Files.Store
import EditIdioms.Text.Bytes

/-!
# Summary tables

How often each rule was found, and in how many projects. Rules are counted by their identifier,
whatever their payload. Both tables have a line for every rule that was found, the most frequent
first; of rules that are equally frequent the one found first comes first.

## Main definitions

* `TableRow`, `Tally` — what is counted.
* `Tally.add`, `Tally.rows` — counting, and the rows in the order of the tables.
* `generalTable`, `projectTable` — the tables.
* `TableWriter`, `TableWriter.write` — the sink that writes them.
-/

set_option autoImplicit false

namespace EditIdioms

/-- What is counted for one rule. -/
structure TableRow where
  tag : RuleTag
  occurrences : Nat
  /-- The projects the rule was found in, each once. -/
  projects : List String
deriving DecidableEq

/-- The rows in the order in which their rules were first found. -/
abbrev Tally := List TableRow

/-- Counts one more occurrence. -/
def TableRow.add (row : TableRow) (project : String) : TableRow :=
  { row with
    occurrences := row.occurrences + 1
    projects := if project ∈ row.projects then row.projects else row.projects ++ [project] }

namespace Tally

/-- Counts a record. -/
def add (r : Record) : Tally → Tally
  | [] => [⟨r.rule.tag, 1, [r.project]⟩]
  | row :: rest => if row.tag = r.rule.tag then row.add r.project :: rest else row :: add r rest

/-- What is counted for a sequence of records. -/
def ofRecords (records : List Record) : Tally := records.foldl (fun t r => t.add r) []

/-- The rows in the order of the tables. -/
def rows (t : Tally) : List TableRow := t.mergeSort fun a b => b.occurrences ≤ a.occurrences

end Tally

/-- One line of a table. -/
def tableLine (row : TableRow) (count : Nat) : String :=
  row.tag.id ++ "," ++ decimalText count ++ "\n"

/-- The table of occurrences. -/
def generalTable (t : Tally) : String :=
  .join (t.rows.map fun row => tableLine row row.occurrences)

/-- The table of projects. -/
def projectTable (t : Tally) : String :=
  .join (t.rows.map fun row => tableLine row row.projects.length)

/-- The file name of the table of occurrences. -/
def generalTableName : String := "out-general.csv"

/-- The file name of the table of projects. -/
def projectTableName : String := "out-projects.csv"

/-- The sink that counts records and writes the tables into a directory. -/
structure TableWriter where
  directory : String
  tally : Tally := []

namespace TableWriter

/-- Counts a record. -/
def add (w : TableWriter) (r : Record) : TableWriter := { w with tally := w.tally.add r }

/-- Writes both tables. Both files are created before anything is written to either. -/
def write (w : TableWriter) : Disk Unit := do
  Disk.makeDirectories w.directory
  let general ← Disk.create (Path.join w.directory generalTableName)
  let projects ← Disk.create (Path.join w.directory projectTableName)
  Disk.store general (Text.bytes (generalTable w.tally))
  Disk.store projects (Text.bytes (projectTable w.tally))

end TableWriter

instance : Sink TableWriter Files where
  name _ := "statistics"
  consume w r := (w.add r, .done)
  cleanup w files :=
    match w.write.run.run files with
    | (.ok (), files) => (w, files, .done)
    | (.error cause, files) => (w, files, .failed cause.message)
  dispose _ files := files

end EditIdioms
