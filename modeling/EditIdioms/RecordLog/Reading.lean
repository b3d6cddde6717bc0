import EditIdioms.Packed.Codec
import EditIdioms.RecordLog.Format
import EditIdioms.Settings

/-!
# Reading a record log

A log is read record by record until its bytes end or something is wrong. Both the source of the
bytes and the bytes themselves can fail: a source that fails between two records is reported as
such, one that fails inside a record as a record that could not be read.

## Main definitions

* `Source` — bytes, and the failure that may stand at their end.
* `Source.ofContent` — the source of a file with the given content, which a codec unpacks if it is
  compressed.
* `LogFault` — why reading stops.
* `Source.read` — the records of a source, and the fault that ends them.
-/

set_option autoImplicit false

namespace EditIdioms.RecordLog

/-- Why no more bytes come from a source. -/
inductive SourceFault where
  /-- What is read is a directory. -/
  | directory
  /-- A compressed stream fails. -/
  | stream (fault : Packed.StreamFault)
deriving DecidableEq

/-- Bytes to read from, and what happens behind the last of them. -/
structure Source where
  bytes : List UInt8
  fault? : Option SourceFault := none
deriving DecidableEq

namespace Source

/-- The source of a file with the given content. -/
def ofContent [Packed.Codec] (compression : Compression) (content : List UInt8) : Source :=
  if compression.isCompressed then
    let u := Packed.Codec.unpack content
    { bytes := u.content, fault? := u.fault?.map .stream }
  else { bytes := content }

/-- A directory can be opened but not read. -/
def ofDirectory : Source := { bytes := [], fault? := some .directory }

end Source

/-- Why the records of a log end too early. -/
inductive LogFault where
  /-- The source failed between two records. -/
  | source (fault : SourceFault)
  /-- The source failed inside a record. -/
  | interrupted (fault : SourceFault)
  /-- The bytes are not those of a record. -/
  | format (fault : FormatFault)
deriving DecidableEq

namespace Source

/-- How a fault in the bytes shows, when the source ends with `fault?`: bytes that are missing are
missing because the source failed. -/
def recordFault (fault? : Option SourceFault) : FormatFault → LogFault
  | .cut =>
    match fault? with
    | some fault => .interrupted fault
    | none => .format .cut
  | fault => .format fault

/-- At most `bound` records from the front of the bytes, and the fault that ends them. -/
def recordsWithin (fault? : Option SourceFault) :
    (bound : Nat) → List UInt8 → List Record × Option LogFault
  | 0, _ => ([], none)
  | bound + 1, bytes =>
    if bytes.isEmpty then ([], fault?.map .source)
    else
      match readRecord.run bytes with
      | .ok (record, rest) =>
        let (records, fault) := recordsWithin fault? bound rest
        (record :: records, fault)
      | .error fault => ([], some (recordFault fault? fault))

/-- The records of a source, and the fault that ends them. Every record takes bytes, so there are no
more records than bytes. -/
def read (s : Source) : List Record × Option LogFault :=
  recordsWithin s.fault? (s.bytes.length + 1) s.bytes

end Source

end EditIdioms.RecordLog
