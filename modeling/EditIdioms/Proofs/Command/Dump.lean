import EditIdioms.Command.Basic
import EditIdioms.Proofs.Command.Arguments
import EditIdioms.Proofs.Mining.LogPath
import EditIdioms.Proofs.RecordLog.RoundTrip

set_option relaxedAutoImplicit false
set_option autoImplicit false

/-!
# Printing a record log

A log that was written at the path the settings give it is printed by naming that path. The path
has to tell how the log is stored. It does unless the log is not compressed and the settings give it
a name with the ending for compressed logs: then its bytes are taken for a stream, which they never
are, and nothing is printed but a failure. The path must also not look like an option.

The codec may be any that keeps the laws: a compressed log is unpacked as it was packed, and in a
log that is not compressed no frame starts, so it is refused.

## Main definitions

* `Command.printed` — what naming a path to be printed gives.

## Main results

* `read_compressed_records` — the bytes of records are no stream.
* `dumpCompression_logPath_iff` — how a log is taken to be stored, going by its path.
* `executeDump_logPath` — what printing the log of settings gives.
* `dump_gives_records` — a log that was written is printed if it is not misnamed.
-/

namespace EditIdioms

open RecordLog

/-- **The bytes of records are no stream**: reading them as one gives nothing but a fault.

**Proof sketch.** The first record starts with the number of its rule, the second byte of which is
zero (`exists_recordBytes_eq`); if there are no records there are no bytes. In neither case does a
frame start there. -/
lemma read_compressed_records [codec : Packed.Codec] (hrefuses : codec.RefusesUnframed)
    {compression : Compression} (h : compression.isCompressed = true) (records : List Record) :
    ∃ fault, (Source.ofContent compression (records.flatMap recordBytes)).read =
      ([], some fault) := by
  have hbytes : records.flatMap recordBytes = [] ∨
      ∃ first rest, records.flatMap recordBytes = first :: 0 :: rest := by
    cases records with
    | nil => exact .inl rfl
    | cons r records =>
      obtain ⟨first, rest, hr⟩ := exists_recordBytes_eq r
      exact .inr ⟨first, rest ++ records.flatMap recordBytes, by
        rw [List.flatMap_cons, hr, List.cons_append, List.cons_append]⟩
  obtain ⟨fault, hunpack⟩ := hrefuses _ (Packed.not_startsFrame hbytes)
  refine ⟨.source (.stream fault), ?_⟩
  rw [Source.ofContent, if_pos h, hunpack]
  rfl

namespace Command

/-! ## Printing -/

variable {files : Files} {path : String} {location : List String} {compression : Compression}
  {records : List Record}

/-- A path is taken for that of a compressed log if it has the ending for it. -/
lemma isCompressed_dumpCompression_iff : (dumpCompression path false).isCompressed = true ↔
    Settings.compressedEnding.toList <:+ path.toList := by
  rw [← endsWith_iff, dumpCompression, Bool.false_or]
  cases path.endsWith Settings.compressedEnding <;>
    simp [Compression.isCompressed, Compression.usual]

/-- **How a log is taken to be stored** is how it is stored, unless it is misnamed. -/
lemma dumpCompression_logPath_iff (s : Settings) :
    (dumpCompression s.logPath false).isCompressed = s.compression.isCompressed ↔
      ¬ s.Misnamed := by
  rw [Bool.eq_iff_iff, isCompressed_dumpCompression_iff, s.suffix_logPath_iff]
  cases hcompression : s.compression <;>
    simp [Settings.Misnamed, Compression.isCompressed, hcompression]

/-- A log that is taken for what it is gives a line for each record. -/
lemma executeDump_of_eq [codec : Packed.Codec]
    (hinverts : compression.isCompressed = true → codec.Inverts)
    (hstorable : ∀ r ∈ records, r.Storable)
    (h : files.Holds path location (logContent compression records))
    (hnamed : (dumpCompression path false).isCompressed = compression.isCompressed) :
    executeDump path false files = { lines := records.map recordLine } := by
  have hsource : Source.ofContent (dumpCompression path false) (logContent compression records) =
      Source.ofContent compression (logContent compression records) := by
    rw [Source.ofContent, Source.ofContent, hnamed]
  rw [executeDump, logSource_of_holds h, hsource, ofContent_logContent hinverts]
  dsimp only
  rw [read_records hstorable]
  rfl

/-- A log that is not compressed, and is taken for a compressed one, gives nothing but a fault. -/
lemma executeDump_of_plain [codec : Packed.Codec] (hrefuses : codec.RefusesUnframed)
    (h : files.Holds path location (logContent .plain records))
    (hnamed : (dumpCompression path false).isCompressed = true) :
    executeDump path false files = { failure? := some ("reading " ++ path) } := by
  obtain ⟨fault, hread⟩ := read_compressed_records hrefuses hnamed records
  change files.Holds path location (records.flatMap recordBytes) at h
  rw [executeDump, logSource_of_holds h]
  dsimp only
  rw [hread]
  rfl

/-- **What printing the log of settings gives.** -/
lemma executeDump_logPath [codec : Packed.Codec] {s : Settings}
    (hinverts : s.compression.isCompressed = true → codec.Inverts)
    (hrefuses : s.Misnamed → codec.RefusesUnframed) (hstorable : ∀ r ∈ records, r.Storable)
    (h : files.Holds s.logPath location (logContent s.compression records)) :
    executeDump s.logPath false files =
      if s.Misnamed then { failure? := some ("reading " ++ s.logPath) }
      else { lines := records.map recordLine } := by
  split
  · rename_i hmisnamed
    rw [hmisnamed.1] at h
    refine executeDump_of_plain (hrefuses hmisnamed) h (isCompressed_dumpCompression_iff.mpr ?_)
    exact s.suffix_logPath_iff.mpr (.inr hmisnamed)
  · rename_i hnamed
    exact executeDump_of_eq hinverts hstorable h ((dumpCompression_logPath_iff s).mpr hnamed)

/-- What the program gives when a path is named to be printed: what is printed, or why the arguments
are refused. -/
def printed [Packed.Codec] (schedule : Schedule) (path : String) (files : Files) :
    Except UsageFault Outcome :=
  (parse ["dump", path]).map fun command => ((command.execute schedule).run files).1

/-- A path that looks like an option is refused. -/
lemma printed_of_option [Packed.Codec] {schedule : Schedule} (hoption : LooksLikeOption path)
    (outcome : Outcome) :
    printed schedule path files ≠ .ok outcome := by
  unfold printed
  cases hparse : parse ["dump", path] with
  | error fault => exact nofun
  | ok command => exact absurd hparse (parse_dump_of_option hoption command)

/-- Any other path is printed. -/
lemma printed_of_plain [Packed.Codec] {schedule : Schedule} (hplain : ¬ LooksLikeOption path) :
    printed schedule path files = .ok (executeDump path false files) := by
  rw [printed, parse_dump_of_plain hplain]
  rfl

/-- **A log that was written is printed** with a line for each record, in order, when its path is
named, exactly if it is not misnamed and its path does not look like an option. A misnamed log is
one that is not compressed and has a name for a compressed one; how a log is taken to be stored is
how it is stored exactly if it is not misnamed. For a misnamed log nothing is printed, and that is a
failure, even if there are no records.

The codec may be any that unpacks what it has packed, if the log is compressed, and that refuses
what starts no frame, if the log is misnamed.

**Proof sketch.** However the log is closed, its content stands at its path (`close_fill`). It is
read as records if it is taken for what it is (`executeDump_of_eq`), and otherwise as a stream,
which it is not (`read_compressed_records`). A path that looks like an option is refused before
anything is read, and a failure is not the lines of records, so both conditions are needed. -/
theorem dump_gives_records [codec : Packed.Codec] {s : Settings} {files files' : Files}
    {log : LogWriter} {records : List Record}
    (hinverts : s.compression.isCompressed = true → codec.Inverts)
    (hrefuses : s.Misnamed → codec.RefusesUnframed)
    (hcreate : exec (LogWriter.create s.logPath s.compression) files = (.ok log, files'))
    (hstorable : ∀ r ∈ records, r.Storable) (schedule : Schedule) :
    let full := Sink.fill log records
    let cleaned := Sink.cleanup full files'
    ((dumpCompression s.logPath false).isCompressed = s.compression.isCompressed ↔
      ¬ s.Misnamed) ∧
    ∀ closed ∈ [cleaned.2.1, Sink.dispose cleaned.1 cleaned.2.1, Sink.dispose full files'],
      (printed schedule s.logPath closed = .ok { lines := records.map recordLine } ↔
        ¬ s.Misnamed ∧ ¬ LooksLikeOption s.logPath) ∧
      (s.Misnamed → ¬ LooksLikeOption s.logPath →
        printed schedule s.logPath closed =
          .ok { failure? := some ("reading " ++ s.logPath) }) := by
  intro full cleaned
  obtain ⟨location, rfl, hcreated⟩ := LogWriter.exec_createLog hcreate
  have hclose := LogWriter.close_fill s.logPath location s.compression records files'
  have hcleaned : cleaned = ((full.close files').1, (full.close files').2, .done) := rfl
  have hdispose : Sink.dispose full files' = (full.close files').2 := rfl
  have hclosed : ∀ closed ∈ [cleaned.2.1, Sink.dispose cleaned.1 cleaned.2.1,
      Sink.dispose full files'],
      closed = files'.put location (.file (logContent s.compression records)) := by
    rw [hcleaned, hdispose, hclose]
    exact List.forall_mem_cons.mpr ⟨rfl, List.forall_mem_cons.mpr ⟨rfl,
      List.forall_mem_singleton.mpr rfl⟩⟩
  refine ⟨dumpCompression_logPath_iff s, fun closed hmem => ?_⟩
  obtain rfl := hclosed closed hmem
  have hstored := hcreated.holds.put (logContent s.compression records)
  have hdump := executeDump_logPath hinverts hrefuses hstorable hstored
  constructor
  · by_cases hoption : LooksLikeOption s.logPath
    · exact iff_of_false (printed_of_option hoption _) fun h => h.2 hoption
    · rw [printed_of_plain hoption, hdump]
      split
      · rename_i hmisnamed
        refine iff_of_false (fun hsame => ?_) fun h => h.1 hmisnamed
        exact Option.some_ne_none _ (congrArg Outcome.failure? (Except.ok.inj hsame))
      · rename_i hnamed
        exact iff_of_true rfl ⟨hnamed, hoption⟩
  · intro hmisnamed hplain
    rw [printed_of_plain hplain, hdump, if_pos hmisnamed]

/-- A compressed log with one record that was only given up. -/
theorem dump_gives_records_compressed :
    let s : Settings := { outputDirectory := "", recordLog := "log", compression := .usual }
    let r : Record := { rule := .nakedReceiver, project := "p" }
    ∃ log files, exec (LogWriter.create s.logPath s.compression) {} = (.ok log, files) ∧
      printed (.eager 0) s.logPath (Sink.dispose (Sink.fill log [r]) files) =
        .ok { lines := ["p\tnaked-receiver"] } := by
  intro s r
  have hpath : s.logPath = "log.zst" := by decide +kernel
  have hcreate : exec (LogWriter.create s.logPath s.compression) {} =
      (.ok { path := "log.zst", location := ["log.zst"], compression := .usual },
        { root := .directory [("log.zst", .file [])] }) := by
    rw [hpath]
    rfl
  have hplain : ¬ LooksLikeOption s.logPath := by
    rintro ⟨c, rest, h⟩
    rw [hpath] at h
    simp at h
  have hstorable : ∀ r' ∈ [r], r'.Storable := by decide
  obtain ⟨-, hprinted⟩ := dump_gives_records (fun _ => Packed.storing_inverts)
    (fun _ => Packed.storing_refusesUnframed) hcreate hstorable (.eager 0)
  exact ⟨_, _, hcreate, (hprinted _ (by simp)).1.mpr ⟨by decide, hplain⟩⟩

/-- The same record in a log that is not compressed, under a name that no settings are refused for:
what the name says is wrong, and nothing is printed. -/
theorem dump_gives_records_misnamed :
    let s : Settings := { outputDirectory := "", recordLog := "log.zst" }
    let r : Record := { rule := .nakedReceiver, project := "p" }
    s.defect? = none ∧
      (dumpCompression s.logPath false).isCompressed ≠ s.compression.isCompressed ∧
      ∃ log files, exec (LogWriter.create s.logPath s.compression) {} = (.ok log, files) ∧
        printed (.eager 0) s.logPath (Sink.dispose (Sink.fill log [r]) files) =
          .ok { failure? := some "reading log.zst" } := by
  intro s r
  have hpath : s.logPath = "log.zst" := by decide +kernel
  have hcreate : exec (LogWriter.create s.logPath s.compression) {} =
      (.ok { path := "log.zst", location := ["log.zst"], compression := .plain },
        { root := .directory [("log.zst", .file [])] }) := by
    rw [hpath]
    rfl
  exact ⟨by decide, by decide +kernel, _, _, hcreate, by decide +kernel⟩

end Command

end EditIdioms
