import EditIdioms.Proofs.Broadcast.Filled
import EditIdioms.Proofs.Files.Operations
import EditIdioms.Proofs.Packed.Laws
import EditIdioms.Proofs.RecordLog.Listing

set_option relaxedAutoImplicit false
set_option autoImplicit false

/-!
# What is written to a log is read from it

A log that was created at a path takes any records. Once it has been closed, by cleanup or by being
given up, reading the log at that path with the same compression gives these records in order. Of
the codec nothing is needed but that it unpacks what it has packed, and that only if the log is
compressed.

## Main results

* `read_records` — reading the bytes of records.
* `fill_log` — a log that has taken records.
* `readLog_eq_ok_iff`, `readLog_of_holds` — reading a log at its path.
* `log_round_trip` — writing and reading a log.
-/

namespace EditIdioms

open RecordLog

/-- The bytes of records are read as these records, and nothing is wrong. -/
lemma read_records {records : List Record} (h : ∀ r ∈ records, r.Storable) :
    Source.read { bytes := records.flatMap recordBytes } = (records, none) := by
  obtain ⟨rest, hscan⟩ := scan_read { bytes := records.flatMap recordBytes }
  change Scan none (records.flatMap recordBytes) _ rest _ at hscan
  obtain ⟨hstorable, hsplit⟩ := hscan.split
  have hnil : ∀ r : Record, r.Storable → ¬ recordBytes r <+: [] := fun r _ hstart =>
    recordBytes_ne_nil r (List.prefix_nil.mp hstart)
  obtain ⟨hrecords, rfl⟩ := split_unique hstorable h (fun r hr => hscan.not_prefix hr) hnil
    (hsplit.symm.trans (List.append_nil _).symm)
  exact Prod.ext hrecords (hscan.ending_eq_none_iff.mpr rfl)

/-- Bytes in which nothing is wrong are those of the records that are read. -/
lemma bytes_of_read {bytes : List UInt8} {records : List Record}
    (h : Source.read { bytes } = (records, none)) : bytes = records.flatMap recordBytes := by
  obtain ⟨rest, hscan⟩ := scan_read { bytes }
  rw [h] at hscan
  change Scan none bytes records rest none at hscan
  obtain rfl := hscan.ending_eq_none_iff.mp rfl
  exact hscan.split.2.trans (List.append_nil _)

/-- The source of a stored log has the bytes of its records, compressed or not. -/
lemma ofContent_logContent [codec : Packed.Codec] {compression : Compression}
    (hinverts : compression.isCompressed = true → codec.Inverts) (records : List Record) :
    Source.ofContent compression (logContent compression records) =
      { bytes := records.flatMap recordBytes } := by
  cases compression with
  | plain => rfl
  | zstd level =>
    have hcompressed : (Compression.zstd level).isCompressed = true := rfl
    rw [logContent, Source.ofContent, if_pos hcompressed, hinverts hcompressed]
    rfl

/-! ## Writing -/

namespace LogWriter

/-- An open log takes all records. -/
lemma fill_log [Packed.Codec] {log : LogWriter} (h : log.isOpen = true) (records : List Record) :
    Sink.fill log records =
      { log with
        pending := records.reverse ++ log.pending
        written := log.written + records.length } := by
  induction records generalizing log with
  | nil => rfl
  | cons r records ih =>
    have hconsume : (Sink.consume log r).1 =
        { log with pending := r :: log.pending, written := log.written + 1 } := by
      simp [Sink.consume, consume, h]
    rw [fill_cons, ih (by rw [hconsume]; exact h), hconsume]
    simp only [List.reverse_cons, List.append_assoc, List.singleton_append, List.length_cons,
      Nat.add_assoc, Nat.add_comm 1]

/-- An open log that has taken records takes the next one. -/
lemma consume_fill [Packed.Codec] {log : LogWriter} (h : log.isOpen = true)
    (records : List Record) (r : Record) :
    (Sink.consume (Sink.fill log records) r).2 = .done := by
  rw [fill_log h]
  simp [Sink.consume, consume, h]

/-- A log that is created is open and empty, and so is its file. -/
lemma exec_createLog {path : String} {compression : Compression} {log : LogWriter}
    {files files' : Files} (h : exec (create path compression) files = (.ok log, files')) :
    ∃ location, log = { path, location, compression } ∧
      Disk.Created path location files files' := by
  unfold create at h
  obtain ⟨location, files₁, hcreate, h⟩ := exec_bind_eq_ok h
  cases h
  exact ⟨location, rfl, Disk.exec_create hcreate⟩

/-- Closing a new log that has taken records stores them. -/
lemma close_fill [Packed.Codec] (path : String) (location : List String)
    (compression : Compression) (records : List Record) (files : Files) :
    (Sink.fill ({ path, location, compression } : LogWriter) records).close files =
      ({ path, location, compression, isOpen := false, pending := records.reverse,
         written := records.length },
        files.put location (.file (logContent compression records))) := by
  rw [fill_log rfl]
  simp [close]

end LogWriter

/-! ## Reading -/

/-- The source of a log that is a file. -/
lemma logSource_of_holds [Packed.Codec] {files : Files} {path : String} {location : List String}
    {content : List UInt8} (h : files.Holds path location content) (compression : Compression) :
    files.logSource path compression = .ok (.ofContent compression content) := by
  unfold Files.logSource Files.entry
  rw [show files.locate path = _ from h]
  rfl

/-- The records of a log are those of its source if nothing is wrong with it. -/
lemma readLog_eq_ok_iff [Packed.Codec] {files : Files} {path : String} {location : List String}
    {content : List UInt8} {compression : Compression} {records : List Record}
    (h : files.Holds path location content) :
    files.readLog path compression = .ok records ↔
      (Source.ofContent compression content).read = (records, none) := by
  unfold Files.readLog
  rw [logSource_of_holds h]
  dsimp only
  rcases (Source.ofContent compression content).read with ⟨found, _ | fault⟩ <;> simp

/-- **A log is read at its path** with the compression it was stored with. -/
lemma readLog_of_holds [codec : Packed.Codec] {files : Files} {path : String}
    {location : List String} {compression : Compression} {records : List Record}
    (hinverts : compression.isCompressed = true → codec.Inverts)
    (hstorable : ∀ r ∈ records, r.Storable)
    (h : files.Holds path location (logContent compression records)) :
    files.readLog path compression = .ok records := by
  rw [readLog_eq_ok_iff h, ofContent_logContent hinverts]
  exact read_records hstorable

/-- **Writing and reading a log.** A log that was created takes any records and counts them. When it
is closed, by cleanup or only by being given up, reading it at its path gives these records, in
order. And where one record ends is never in doubt: no record is stored as the start of another one.
If the log is compressed, the codec may be any that unpacks what it has packed.

**Proof sketch.** An open log keeps what it takes (`fill_log`), and closing it stores the content in
the place of the file that was created (`close_fill`). To that place the path still leads, and a
closed log is not stored again, so in all three cases the same content is read. If it is packed it
is unpacked by the law of the codec; then the bytes split into records in one way only
(`readLog_of_holds`). -/
theorem log_round_trip [codec : Packed.Codec] {files files' : Files} {path : String}
    {compression : Compression} {log : LogWriter} {records : List Record}
    (hinverts : compression.isCompressed = true → codec.Inverts)
    (hcreate : exec (LogWriter.create path compression) files = (.ok log, files'))
    (hstorable : ∀ r ∈ records, r.Storable) :
    let full := Sink.fill log records
    let cleaned := Sink.cleanup full files'
    (∀ k r, records[k]? = some r → (Sink.consume (Sink.fill log (records.take k)) r).2 = .done) ∧
      full.written = records.length ∧
      cleaned.2.2 = .done ∧ cleaned.1.written = records.length ∧
      cleaned.2.1.readLog path compression = .ok records ∧
      (Sink.dispose cleaned.1 cleaned.2.1).readLog path compression = .ok records ∧
      (Sink.dispose full files').readLog path compression = .ok records ∧
      ∀ r r' : Record, r.Storable → r'.Storable → recordBytes r <+: recordBytes r' → r = r' := by
  intro full cleaned
  obtain ⟨location, rfl, hcreated⟩ := LogWriter.exec_createLog hcreate
  have hstored := readLog_of_holds hinverts hstorable
    (hcreated.holds.put (logContent compression records))
  have hclose := LogWriter.close_fill path location compression records files'
  have hcleaned : cleaned = ((full.close files').1, (full.close files').2, .done) := rfl
  have hdispose : Sink.dispose full files' = (full.close files').2 := rfl
  rw [hcleaned, hdispose, hclose]
  refine ⟨fun k r _ => LogWriter.consume_fill rfl _ r, ?_, rfl, rfl, hstored, hstored, hstored,
    fun r r' hr hr' => eq_of_recordBytes_start hr hr'⟩
  change (Sink.fill ({ path, location, compression } : LogWriter) records).written = _
  rw [LogWriter.fill_log rfl]
  exact Nat.zero_add _

/-- A compressed log of two records, one with a literal that is not a number, that is only given up.
The codec is the one that stores. -/
theorem log_round_trip_pair :
    let a : Record :=
      { rule := .literalReplaced (.float ⟨0x7fc00000⟩) (some (.string "é")), project := "p" }
    let b : Record := { rule := .argumentPropagated 2, project := "" }
    ∃ log files, exec (LogWriter.create "l.zst" .usual) {} = (.ok log, files) ∧
      (Sink.fill log [a, b]).written = 2 ∧
      (Sink.dispose (Sink.fill log [a, b]) files).readLog "l.zst" .usual = .ok [a, b] := by
  intro a b
  have hcreate : exec (LogWriter.create "l.zst" .usual) {} =
      (.ok { path := "l.zst", location := ["l.zst"], compression := .usual },
        { root := .directory [("l.zst", .file [])] }) := rfl
  obtain ⟨-, hwritten, -, -, -, -, hread, -⟩ :=
    @log_round_trip _ _ _ _ _ _ [a, b] (fun _ => Packed.storing_inverts) hcreate (by decide)
  exact ⟨_, _, hcreate, hwritten, hread⟩

end EditIdioms
