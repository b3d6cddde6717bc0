import EditIdioms.RecordLog.Writer

/-!
# Taking records from a log

A log is opened at a path and gives its records one by one. After its last record, and after the
first thing that is wrong, it gives nothing more. The whole log can be read at once, which gives all
records or the first thing that is wrong.

## Main definitions

* `LogReader`, `Files.openLog` — a log that is being read.
* `LogReader.next` — takes the next record.
* `ReadingFault`, `Files.readLog` — reads a log at once.
-/

set_option autoImplicit false

namespace EditIdioms

/-- A log that is being read: what has not been taken yet, and whether something was wrong. -/
structure LogReader where
  source : RecordLog.Source
  hasFailed : Bool := false
deriving DecidableEq

/-- Takes the next record, or tells what is wrong; nothing is given at the end of the log and after
something was wrong. -/
def LogReader.next (reader : LogReader) :
    Option (Except RecordLog.LogFault Record) × LogReader :=
  if reader.hasFailed then (none, reader)
  else if reader.source.bytes.isEmpty then
    match reader.source.fault? with
    | none => (none, reader)
    | some fault => (some (.error (.source fault)), { reader with hasFailed := true })
  else
    match RecordLog.readRecord.run reader.source.bytes with
    | .ok (record, rest) =>
      (some (.ok record), { reader with source := { reader.source with bytes := rest } })
    | .error fault =>
      (some (.error (RecordLog.Source.recordFault reader.source.fault? fault)),
        { reader with hasFailed := true })

/-- Why a log cannot be read at once. -/
inductive ReadingFault where
  /-- The log cannot be opened. -/
  | files (cause : Cause)
  | log (fault : RecordLog.LogFault)
deriving DecidableEq

namespace Files

/-- Opens the log at a path. -/
def openLog [Packed.Codec] (files : Files) (path : String) (compression : Compression) :
    Except Cause LogReader := do
  return { source := ← files.logSource path compression }

/-- All records of the log at a path, or the first thing that is wrong. -/
def readLog [Packed.Codec] (files : Files) (path : String) (compression : Compression) :
    Except ReadingFault (List Record) :=
  match files.logSource path compression with
  | .error cause => .error (.files cause)
  | .ok source =>
    match source.read with
    | (records, none) => .ok records
    | (_, some fault) => .error (.log fault)

end Files

end EditIdioms
