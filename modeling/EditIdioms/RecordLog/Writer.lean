import EditIdioms.Broadcast.Sink
import EditIdioms.Files.Store
import EditIdioms.RecordLog.Format
import EditIdioms.RecordLog.Reading

/-!
# Writing a record log

A log is created before the first record, so a place that cannot be written to is noticed at once.
Records are gathered, and stored when the log is closed, by cleanup or by being given up.

## Main definitions

* `logContent` — the content of a log.
* `LogWriter`, `LogWriter.create` — an open log.
* `LogWriter.close` — stores the records.
* `Files.logSource` — the source of a log to be read.
-/

set_option autoImplicit false

namespace EditIdioms

/-- The content of a log with the given records. -/
def RecordLog.logContent [Packed.Codec] (compression : Compression) (records : List Record) :
    List UInt8 :=
  let content := records.flatMap RecordLog.recordBytes
  match compression with
  | .plain => content
  | .zstd level => Packed.Codec.pack level content

/-- A record log that is being written. -/
structure LogWriter where
  path : String
  /-- Where the file is. -/
  location : List String
  compression : Compression
  isOpen : Bool := true
  /-- The records taken, last one first. -/
  pending : List Record := []
  /-- How many records have been taken. -/
  written : Nat := 0

namespace LogWriter

/-- Creates a log, in place of a file that may be there. -/
def create (path : String) (compression : Compression) : Disk LogWriter := do
  return { path, location := ← Disk.create path, compression }

/-- Takes a record, unless the log is closed. -/
def consume (log : LogWriter) (r : Record) : LogWriter × Verdict :=
  if log.isOpen then
    ({ log with pending := r :: log.pending, written := log.written + 1 }, .done)
  else (log, .failed ("record log " ++ log.path ++ " is already closed"))

/-- Stores the records and closes the log, unless it is closed. -/
def close [Packed.Codec] (log : LogWriter) (files : Files) : LogWriter × Files :=
  if log.isOpen then
    let content := RecordLog.logContent log.compression log.pending.reverse
    ({ log with isOpen := false }, files.put log.location (.file content))
  else (log, files)

end LogWriter

instance [Packed.Codec] : Sink LogWriter Files where
  name _ := "serializer"
  consume := LogWriter.consume
  cleanup log files := let (log, files) := log.close files; (log, files, .done)
  dispose log files := (log.close files).2

/-- The source of the log at a path, which can be a directory that fails when it is read. -/
def Files.logSource [Packed.Codec] (files : Files) (path : String) (compression : Compression) :
    Except Cause RecordLog.Source := do
  match ← files.entry path with
  | .file content => return .ofContent compression content
  | .directory _ => return .ofDirectory

/-- The wording of a failing source. -/
def RecordLog.SourceFault.message : RecordLog.SourceFault → String
  | directory => Cause.isDirectory.message
  | stream fault => fault.message

end EditIdioms
