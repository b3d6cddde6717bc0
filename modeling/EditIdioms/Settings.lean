/-!
# Settings of a run

## Main definitions

* `Compression` — how a record log is stored.
* `Settings` — where a run reads and writes, and what it does.
* `Settings.recordLogName` — the file name of the record log, whose ending tells whether it is
  compressed.
* `SettingsDefect`, `Settings.defect?` — settings that no run can have.
-/

set_option autoImplicit false

namespace EditIdioms

/-- How a record log is stored: as it is, or compressed at some level. -/
inductive Compression where
  | plain
  | zstd (level : Int32)
deriving DecidableEq

namespace Compression

/-- Whether the log is compressed. -/
def isCompressed : Compression → Bool
  | plain => false
  | zstd _ => true

/-- Compression at the usual level. -/
def usual : Compression := zstd 3

end Compression

/-- What a run can be told. -/
structure Settings where
  /-- The directory that holds one directory for each project. -/
  datasetRoot : String := "./dataset"
  /-- The directory for the record log and the tables. -/
  outputDirectory : String := "./fixmine-out"
  /-- The name of the record log in the output directory. -/
  recordLog : String := "records.bin"
  compression : Compression := .plain
  /-- Whether specialized records are published next to their base records. -/
  specialize : Bool := true
  /-- What the file names of diff documents end with. -/
  diffSuffix : String := ".diff.json"
deriving DecidableEq

/-- Why settings are refused. -/
inductive SettingsDefect where
  | emptyRecordLog
  | emptySuffix
  | levelOutOfRange (level : Int32)
deriving DecidableEq

namespace Settings

/-- The ending of a compressed record log. -/
def compressedEnding : String := ".zst"

/-- The file name of the record log: a compressed log has the ending for it. -/
def recordLogName (s : Settings) : String :=
  if s.compression.isCompressed && !s.recordLog.endsWith compressedEnding then
    s.recordLog ++ compressedEnding
  else s.recordLog

/-- The first defect of the settings. -/
def defect? (s : Settings) : Option SettingsDefect :=
  if s.recordLog.isEmpty then some .emptyRecordLog
  else if s.diffSuffix.isEmpty then some .emptySuffix
  else
    match s.compression with
    | .plain => none
    | .zstd level => if 1 ≤ level ∧ level ≤ 22 then none else some (.levelOutOfRange level)

end Settings

end EditIdioms
