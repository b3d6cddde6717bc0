import EditIdioms.Proofs.Broadcast.World
import EditIdioms.Proofs.Mining.LogPath
import EditIdioms.Proofs.Mining.Loss
import EditIdioms.Proofs.RecordLog.RoundTrip
import EditIdioms.Proofs.Tables
import EditIdioms.Run

set_option relaxedAutoImplicit false
set_option autoImplicit false

/-!
# What a run leaves behind

A run that gives a summary leaves three files: the record log, which is created before mining starts
and stored when the broadcast is closed, and after it the two tables. The log is named by the
settings, which are refused for an empty name but not for the name of a table. When the path of the
log leads to the file of a table, the table is written over the log. So the tables are always there,
and the log is there if that does not happen. When it does, the records cannot be read back, unless
there are none.

## Main definitions

* `Settings.published` — the records of a run.
* `Settings.Overwritten` — the path of the log leads to the file of a table.
* `Settings.Leaves` — the files of a run.

## Main results

* `runCrawl_retires` — what a run of mining does to the world.
* `exec_write_of_retired` — what finishing the sinks of a run does.
* `exec_mineLate_eq_ok_iff`, `exec_mineLate_of_mine` — what a run has done that gave a summary.
* `exists_leaves`, `Leaves.of_overwritten`, `Leaves.readLog_iff` — the files, when the log is
  overwritten, and what it gives.
* `mine_artifacts` — all this for a run.
-/

namespace EditIdioms

open Broadcast RecordLog

/-- **The world after mining.** When mining gives a summary, the sinks were filled with the records
of the script and finished one after the other.

**Proof sketch.** Mining is a session with the records of the script (`exec_runCrawl`). It gives a
summary only if it is quiet, and the world of a quiet session is what its sinks have left
(`session_world`). -/
lemma runCrawl_retires {σ ω : Type} [Sink σ ω] {m : Miner} {schedule : Schedule} {crawl : Crawl}
    {sinks : List σ} {world : ω} {summary : Summary} {b : Broadcast σ ω}
    (h : exec (m.runCrawl schedule crawl) (start sinks world) = (.ok summary, b)) :
    let records := (m.scriptCrawl crawl).records
    summary.stats.records = records.length ∧
      summary.reports = (sinks.map fun k =>
        { name := Sink.name k, consumed := records.length }) ∧
      Retired records sinks world b.world := by
  rw [exec_runCrawl, session_forget] at h
  obtain ⟨houtcome, rfl⟩ := Prod.mk.inj h
  obtain ⟨found, hending, hquiet, rfl⟩ := outcome_session_eq_ok_iff.mp houtcome
  exact ⟨m.counted_scriptCrawl crawl found hending, rfl, session_world hquiet⟩

/-! ## Finishing the sinks of a run -/

/-- **Finishing the sinks of a run** stores the log, and then writes the tables.

**Proof sketch.** The log comes first: filling and closing it puts its content in its place. The
writer of the tables has counted the records, and its cleanup, which succeeds, is writing the
tables. -/
lemma exec_write_of_retired [Packed.Codec] {records : List Record} {path directory : String}
    {location : List String} {compression : Compression} {files files' : Files}
    (h : Retired records
      [(.inl { path, location, compression } : RunSink), .inr { directory }] files files') :
    exec ({ directory, tally := .ofRecords records } : TableWriter).write
      (files.put location (.file (logContent compression records))) = (.ok (), files') := by
  obtain ⟨-, hclean, rfl⟩ := h
  have hlog : Sink.retire (Sink.fill (.inl { path, location, compression } : RunSink) records)
      files = files.put location (.file (logContent compression records)) := by
    rw [fill_inl]
    change (let out := (Sink.fill ({ path, location, compression } : LogWriter) records).close files
      Sink.dispose out.1 out.2) = _
    rw [LogWriter.close_fill]
    rfl
  rw [hlog, fill_inr, fill_tableWriter] at hclean ⊢
  exact exec_write_of_cleanup hclean

namespace Settings

variable {s : Settings} {chain : Chain} {schedule : Schedule} {files files' : Files}
  {summary : Summary}

/-! ## What a run has done -/

/-- The dataset of the settings. -/
def dataset (s : Settings) : Dataset := { root := s.datasetRoot, suffix := s.diffSuffix }

/-- The records that mining the dataset publishes when the files are as given: those of its script,
as mining follows it (`exec_mineCrawl`). -/
def publishedFrom (s : Settings) (chain : Chain) (files : Files) : List Record :=
  (Miner.scriptCrawl { chain, specialize := s.specialize } (s.dataset.crawl files)).records

/-- **The records of a run**, in the order in which they are published. The files are looked at
after the sinks have been opened. -/
def published (s : Settings) (chain : Chain) (files : Files) : List Record :=
  s.publishedFrom chain (exec s.openSinks files).2

/-- The sinks that are opened: a log and the tables. Directories are made, and a file is created. -/
lemma exec_openSinks {sinks : List RunSink} (h : exec s.openSinks files = (.ok sinks, files')) :
    ∃ location files₁,
      sinks = [.inl { path := s.logPath, location, compression := s.compression },
        .inr { directory := s.outputDirectory }] ∧
      files.Grows [] files₁ ∧ Disk.Created s.logPath location files₁ files' := by
  unfold openSinks at h
  obtain ⟨⟨⟩, files₁, hmake, h⟩ := exec_bind_eq_ok h
  obtain ⟨log, files₂, hcreate, h⟩ := exec_bind_eq_ok h
  obtain ⟨location, rfl, hcreated⟩ := LogWriter.exec_createLog hcreate
  cases h
  exact ⟨location, files₁, rfl, (Disk.growing_makeDirectories _).grows hmake, hcreated⟩

/-- A run that gives a summary has mined into the sinks. -/
lemma exec_mineInto [Packed.Codec] {sinks : List RunSink} {dataset : Dataset}
    (h : exec (s.mineInto chain schedule dataset sinks) files = (.ok summary, files')) :
    ∃ b : Broadcast RunSink Files,
      exec (Miner.runCrawl { chain, specialize := s.specialize } schedule (dataset.crawl files))
        (start sinks files) = (.ok summary, b) ∧ files' = b.world := by
  unfold mineInto at h
  rw [exec_get_bind] at h
  dsimp only at h
  rcases hrun : ((Miner.run { chain, specialize := s.specialize } schedule dataset files).run.run
    (broadcast sinks files)) with ⟨_ | found, b⟩ <;> rw [hrun] at h <;> cases h
  exact ⟨b, hrun, rfl⟩

/-- What comes after opening the sinks, if it gives a value. -/
lemma exec_opening_eq_ok_iff {k : List RunSink → Running Summary} :
    exec (do
      match ← (s.openSinks.run : StateM Files _) with
      | .error cause => throw (.files cause)
      | .ok sinks => k sinks : Running Summary) files = (.ok summary, files') ↔
      ∃ sinks files₁, exec s.openSinks files = (.ok sinks, files₁) ∧
        exec (k sinks) files₁ = (.ok summary, files') := by
  rw [exec_bind, exec_lift, perform_run]
  rcases exec s.openSinks files with ⟨_ | sinks, files₁⟩
  · constructor
    · intro h
      cases h
    · rintro ⟨_, _, hopen, -⟩
      cases hopen
  · constructor
    · exact fun h => ⟨sinks, files₁, rfl, h⟩
    · rintro ⟨_, _, hopen, h⟩
      cases hopen
      exact h

/-- **A run that gives a summary** has had settings without defect, has opened the sinks, has found
the dataset, and has mined it into the sinks. -/
lemma exec_mineLate_eq_ok_iff [Packed.Codec] :
    exec (s.mineLate chain schedule) files = (.ok summary, files') ↔
      s.defect? = none ∧ ∃ sinks files₁, exec s.openSinks files = (.ok sinks, files₁) ∧
        files₁.isDirectory s.datasetRoot = true ∧
        exec (s.mineInto chain schedule s.dataset sinks) files₁ = (.ok summary, files') := by
  unfold mineLate
  cases hdefect : s.defect? with
  | some defect => exact iff_of_false nofun nofun
  | none =>
    refine exec_opening_eq_ok_iff.trans ?_
    simp only [true_and]
    refine exists_congr fun sinks => exists_congr fun files₁ => and_congr_right fun _ => ?_
    rw [exec_get_bind]
    by_cases hroot : files₁.isDirectory s.datasetRoot = true
    · rw [show Dataset.open? files₁ _ _ = .ok s.dataset from if_pos hroot]
      exact (and_iff_right hroot).symm
    · rw [show Dataset.open? files₁ _ _ = .error _ from if_neg hroot]
      exact iff_of_false nofun fun h => hroot h.1

/-- What is ready has no defect, and the dataset is there. -/
lemma ready_eq_ok_iff {dataset : Dataset} : s.ready files = .ok dataset ↔
    s.defect? = none ∧ files.isDirectory s.datasetRoot = true ∧ dataset = s.dataset := by
  unfold ready Dataset.open?
  by_cases hroot : files.isDirectory s.datasetRoot = true
  · rw [if_pos hroot]
    cases hdefect : s.defect? with
    | some defect => exact iff_of_false nofun fun h => nomatch h.1
    | none => exact ⟨fun h => ⟨rfl, hroot, (Except.ok.inj h).symm⟩, fun h => by rw [h.2.2]; rfl⟩
  · rw [if_neg hroot]
    exact iff_of_false nofun fun h => hroot h.2.1

/-- **Looking for the dataset first** makes no difference to a run that gives a summary: a directory
that is there is still there when the sinks have been opened.

**Proof sketch.** The run has found its settings and its dataset in order, has opened the sinks and
has mined. Opening the sinks only makes directories and creates the log, so the root of the dataset
is still a directory afterwards, which is all that the later look at it asks for. -/
lemma exec_mineLate_of_mine [Packed.Codec]
    (h : exec (s.mine chain schedule) files = (.ok summary, files')) :
    exec (s.mineLate chain schedule) files = (.ok summary, files') := by
  unfold mine at h
  rw [exec_get_bind] at h
  cases hready : s.ready files with
  | error fault =>
    rw [hready] at h
    cases h
  | ok dataset =>
    rw [hready] at h
    obtain ⟨hdefect, hroot, rfl⟩ := ready_eq_ok_iff.mp hready
    obtain ⟨sinks, files₁, hopen, hmined⟩ := exec_opening_eq_ok_iff.mp h
    obtain ⟨log, files₀, rfl, hmade, hcreated⟩ := exec_openSinks hopen
    have hroot' := Files.isDirectory_grows (hmade.trans hcreated.grows) hroot
    exact exec_mineLate_eq_ok_iff.mpr ⟨hdefect, _, files₁, hopen, hroot', hmined⟩

/-! ## The files after a run -/

/-- The path of the log leads to the file of a table. -/
def Overwritten (s : Settings) (files : Files) : Prop :=
  files.SamePlace s.logPath (generalTablePath s.outputDirectory) ∨
    files.SamePlace s.logPath (projectTablePath s.outputDirectory)

/-- Where the files of a run stand, and what is in them. The log has its records if it does not
stand where a table does. -/
structure Leaves [Packed.Codec] (s : Settings) (records : List Record) (files : Files)
    (log general projects : List String) (content : List UInt8) : Prop where
  general_holds : files.Holds (generalTablePath s.outputDirectory) general
    (Text.bytes (generalTable (.ofRecords records)))
  projects_holds : files.Holds (projectTablePath s.outputDirectory) projects
    (Text.bytes (projectTable (.ofRecords records)))
  log_holds : files.Holds s.logPath log content
  content_eq : log ≠ general → log ≠ projects → content = logContent s.compression records

/-- **What a run has counted and left.**

**Proof sketch.** A run that succeeds has opened its sinks, mined into them and retired them without
a fault. Opening leaves an empty log behind, and opening it does not change what is published. The
counters and the reports are those of the crawl (`runCrawl_retires`). On retiring the log gets its
content first and then the two tables are written, which leave every file alone but their own: if
neither is at the place of the log, it still has that content. -/
lemma exists_leaves [Packed.Codec]
    (h : exec (s.mineLate chain schedule) files = (.ok summary, files')) :
    let records := s.published chain files
    summary.stats.records = records.length ∧
      summary.reports = [{ name := "serializer", consumed := records.length },
        { name := "statistics", consumed := records.length }] ∧
      ∃ log general projects content,
        s.Leaves records files' log general projects content := by
  intro records
  obtain ⟨-, sinks, files₁, hopen, -, hmined⟩ := exec_mineLate_eq_ok_iff.mp h
  obtain ⟨log, files₀, rfl, -, hcreated⟩ := exec_openSinks hopen
  obtain ⟨b, hran, rfl⟩ := exec_mineInto hmined
  obtain ⟨hcount, hreports, hretired⟩ := runCrawl_retires hran
  have hrecords : s.publishedFrom chain files₁ = records := by
    change _ = s.publishedFrom chain (exec s.openSinks files).2
    rw [hopen]
  change Retired (s.publishedFrom chain files₁) _ _ _ at hretired
  rw [hrecords] at hretired
  obtain ⟨general, projects, hgrows, hgeneral, hprojects⟩ :=
    exec_write (exec_write_of_retired hretired)
  have hlog := hcreated.holds.put (logContent s.compression records)
  obtain ⟨content, hcontent⟩ := hlog.exists_grows hgrows
  refine ⟨hrecords ▸ hcount, hrecords ▸ hreports, log, general, projects, content, hgeneral,
    hprojects, hcontent, fun hne hne' => ?_⟩
  exact hcontent.content_unique (hlog.grows hgrows (by simp [hne, hne']))

/-- The records of a log do not start like a word. -/
lemma not_startsWord_records {records : List Record} (hne : records ≠ []) :
    ¬ StartsWord (records.flatMap recordBytes) := by
  rintro ⟨first, second, rest, h, -, hsecond⟩
  obtain ⟨r, records, rfl⟩ := List.exists_cons_of_ne_nil hne
  obtain ⟨first', rest', hr⟩ := exists_recordBytes_eq r
  rw [List.flatMap_cons, hr, List.cons_append, List.cons_append] at h
  obtain ⟨-, rfl, -⟩ : first' = first ∧ 0 = second ∧ _ = rest := by simpa using h
  exact absurd hsecond (by decide)

/-- **A table is read as a log** of the records it was made of only if there are none.

**Proof sketch.** If there are records, the table starts with two letters, while a log of them has a
zero as its second byte. Without records both are empty. -/
lemma readLog_table [Packed.Codec] {path : String} {location : List String} {records : List Record}
    {count : TableRow → ℕ}
    (h : files.Holds path location (Text.bytes (.join
      ((Tally.ofRecords records).rows.map fun row => tableLine row (count row))))) :
    files.readLog path .plain = .ok records ↔ records = [] := by
  rw [readLog_eq_ok_iff h]
  constructor
  · intro hread
    by_contra hne
    have hword := startsWord_table (Tally.ofRecords_ne_nil hne) count
    rw [bytes_of_read hread] at hword
    exact not_startsWord_records hne hword
  · rintro rfl
    rw [show (Tally.ofRecords []).rows = [] from List.mergeSort_nil]
    rfl

/-- A log at the place of a table is not compressed, as no table has the ending for it. -/
lemma compression_eq_plain {log : List String} {content content' : List UInt8}
    {directory name : String} (hlog : files.Holds s.logPath log content)
    (htable : files.Holds (Path.join directory name) log content') (hname : '/' ∉ name.toList)
    (hending : ¬ compressedEnding.toList <:+ name.toList) :
    s.compression = .plain ∧ (Path.pieces s.logPath).getLast? = some name := by
  have hlast : (Path.pieces s.logPath).getLast? = some name := by
    rw [← hlog.getLast?_eq, htable.getLast?_eq, Path.getLast?_pieces_join hname]
  refine ⟨?_, hlast⟩
  cases hcompression : s.compression with
  | plain => rfl
  | zstd level =>
    have hsuffix := s.suffix_logPath_iff.mpr (.inl (by rw [hcompression]; rfl))
    obtain ⟨piece, hpiece, hend⟩ := Path.getLast?_pieces_of_suffix hsuffix (by decide)
    cases hlast.symm.trans hpiece
    exact absurd hend hending

/-- **A log that is overwritten** is one of the two tables: it stands where the table stands, and has
the lines of the table for its content. -/
lemma Leaves.exists_table [Packed.Codec] {records : List Record}
    {log general projects : List String} {content : List UInt8}
    (h : s.Leaves records files log general projects content) (hover : s.Overwritten files) :
    ∃ (name : String) (count : TableRow → ℕ),
      (name = generalTableName ∨ name = projectTableName) ∧
      files.Holds (Path.join s.outputDirectory name) log content ∧
      content = Text.bytes (.join
        ((Tally.ofRecords records).rows.map fun row => tableLine row (count row))) := by
  rcases hover with hgeneral | hprojects
  · obtain rfl := (h.log_holds.samePlace_iff h.general_holds).mp hgeneral
    obtain rfl := h.log_holds.content_unique h.general_holds
    exact ⟨_, fun row => row.occurrences, .inl rfl, h.general_holds, rfl⟩
  · obtain rfl := (h.log_holds.samePlace_iff h.projects_holds).mp hprojects
    obtain rfl := h.log_holds.content_unique h.projects_holds
    exact ⟨_, fun row => row.projects.length, .inr rfl, h.projects_holds, rfl⟩

/-- **Only a log that is not compressed** and has the file name of a table can be overwritten.

**Proof sketch.** A log that is overwritten stands where one of the tables stands
(`Leaves.exists_table`), and two paths lead to the same place only if they have the same last piece.
A compressed log has the ending for it and a table has not, so the log is plain
(`compression_eq_plain`). -/
lemma Leaves.of_overwritten [Packed.Codec] {records : List Record}
    {log general projects : List String} {content : List UInt8}
    (h : s.Leaves records files log general projects content) (hover : s.Overwritten files) :
    s.compression = .plain ∧
      ((Path.pieces s.logPath).getLast? = some generalTableName ∨
        (Path.pieces s.logPath).getLast? = some projectTableName) := by
  obtain ⟨name, -, hname, htable, -⟩ := h.exists_table hover
  have hplain : '/' ∉ name.toList ∧ ¬ compressedEnding.toList <:+ name.toList := by
    rcases hname with rfl | rfl <;> decide
  obtain ⟨hcompression, hlast⟩ := compression_eq_plain h.log_holds htable hplain.1 hplain.2
  refine ⟨hcompression, ?_⟩
  rcases hname with rfl | rfl
  · exact .inl hlast
  · exact .inr hlast

/-- **A log that is not overwritten** gives the records of the run; one that is overwritten only if
there are none.

**Proof sketch.** A log that is overwritten has the lines of a table for its content
(`Leaves.exists_table`), and these are no log (`readLog_table`), so both sides come down to there
being no records. Otherwise the log is at a
place apart from the tables, it has the content it was written with, and the records are read back
(`readLog_of_holds`). -/
lemma Leaves.readLog_iff [codec : Packed.Codec]
    (hinverts : s.compression.isCompressed = true → codec.Inverts) {records : List Record}
    {log general projects : List String} {content : List UInt8}
    (h : s.Leaves records files log general projects content)
    (hstorable : ∀ r ∈ records, r.Storable) :
    files.readLog s.logPath s.compression = .ok records ↔
      records = [] ∨ ¬ s.Overwritten files := by
  by_cases hover : s.Overwritten files
  · rw [(h.of_overwritten hover).1, or_iff_left (not_not_intro hover)]
    obtain ⟨name, count, -, -, rfl⟩ := h.exists_table hover
    exact readLog_table h.log_holds
  · refine iff_of_true ?_ (.inr hover)
    obtain ⟨hgeneral, hprojects⟩ := not_or.mp hover
    rw [h.log_holds.samePlace_iff h.general_holds] at hgeneral
    rw [h.log_holds.samePlace_iff h.projects_holds] at hprojects
    have hlog := h.log_holds
    rw [h.content_eq hgeneral hprojects] at hlog
    exact readLog_of_holds hinverts hstorable hlog

/-- **The files after a run.** When a run gives a summary, whether the dataset was looked for before
or after the sinks were opened, then as many records were published as it says, both sinks have had
all of them, and the tables are those of these records, in the order of publication. Reading the log
at its path with the compression of the settings gives these records exactly if its path does not
lead to the file of a table, or if there are none. That can only happen to a log that is not
compressed, and whose file name is that of a table. If the log is compressed, the codec may be any
that unpacks what it has packed.

**Proof sketch.** The run was a quiet session, so the world is what the sinks have left that were
filled with all records: the log was stored, and after it the tables were written
(`exec_write_of_retired`). Their files are two, so the tables are there (`exec_write`). The file of
the log is only touched by that if it is one of them (`exists_leaves`), and a table of records that
there are is no log of them (`readLog_table`). -/
theorem mine_artifacts [codec : Packed.Codec]
    (hinverts : s.compression.isCompressed = true → codec.Inverts)
    (hran : exec (s.mine chain schedule) files = (.ok summary, files') ∨
      exec (s.mineLate chain schedule) files = (.ok summary, files'))
    (hstorable : ∀ r ∈ s.published chain files, r.Storable) :
    let records := s.published chain files
    summary.stats.records = records.length ∧
      summary.reports = [{ name := "serializer", consumed := records.length },
        { name := "statistics", consumed := records.length }] ∧
      files'.content (generalTablePath s.outputDirectory) =
        .ok (Text.bytes (generalTable (.ofRecords records))) ∧
      files'.content (projectTablePath s.outputDirectory) =
        .ok (Text.bytes (projectTable (.ofRecords records))) ∧
      (files'.readLog s.logPath s.compression = .ok records ↔
        records = [] ∨ ¬ s.Overwritten files') ∧
      (s.Overwritten files' → s.compression = .plain ∧
        ((Path.pieces s.logPath).getLast? = some generalTableName ∨
          (Path.pieces s.logPath).getLast? = some projectTableName)) := by
  intro records
  have hlate := hran.elim exec_mineLate_of_mine id
  obtain ⟨hcount, hreports, log, general, projects, content, hleaves⟩ := exists_leaves hlate
  exact ⟨hcount, hreports, hleaves.general_holds.content_eq, hleaves.projects_holds.content_eq,
    hleaves.readLog_iff hinverts hstorable, hleaves.of_overwritten⟩

/-- A run with one record, whose log has the file name of the first table. -/
theorem mine_artifacts_single :
    let s : Settings :=
      { datasetRoot := "d", outputDirectory := "o", recordLog := "out-general.csv",
        specialize := false, diffSuffix := ".j" }
    let chain : Chain := [.onInsert "any" fun _ => .ok (some .nakedReceiver)]
    let document := "[\"\",[[]],[[[\"Block\",null]]],[\x7b\"Insert\":[0]\x7d]]"
    let files : Files :=
      { root := .directory [("d", .directory [("p", .directory
          [("a.j", .file (Text.bytes document))])])] }
    let records : List Record := [{ rule := .nakedReceiver, project := "p" }]
    ∃ summary files', exec (s.mine chain (Schedule.eager 1)) files = (.ok summary, files') ∧
      s.published chain files = records ∧ summary.stats.records = 1 ∧
      files'.content (generalTablePath s.outputDirectory) =
        .ok (Text.bytes (generalTable (.ofRecords records))) ∧
      (files'.readLog s.logPath s.compression ≠ .ok records ↔ s.Overwritten files') := by
  intro s chain document files records
  have hsummary : (exec (s.mine chain (Schedule.eager 1)) files).1 =
      .ok { projects := 1, files := 1, stats := { edits := 1, records := 1 },
            reports := [{ name := "serializer", consumed := 1 },
              { name := "statistics", consumed := 1 }] } := by
    decide +kernel
  have hpublished : s.published chain files = records := by
    decide +kernel
  have hran : exec (s.mine chain (Schedule.eager 1)) files = (.ok _, _) := Prod.ext hsummary rfl
  obtain ⟨hcount, -, hgeneral, -, hlog, -⟩ :=
    mine_artifacts (fun _ => Packed.storing_inverts) (.inl hran) (by rw [hpublished]; decide)
  rw [hpublished] at hcount hgeneral hlog
  refine ⟨_, _, hran, hpublished, hcount, hgeneral, ?_⟩
  exact (not_congr hlog).trans (by simp [records])

/-- In a run with one record the log is the first table, and is overwritten: what is read is not
that record, and no record at all. -/
theorem mine_artifacts_overwritten :
    let s : Settings :=
      { datasetRoot := "d", outputDirectory := "o", recordLog := "out-general.csv",
        specialize := false, diffSuffix := ".j" }
    let chain : Chain := [.onInsert "any" fun _ => .ok (some .nakedReceiver)]
    let document := "[\"\",[[]],[[[\"Block\",null]]],[\x7b\"Insert\":[0]\x7d]]"
    let files : Files :=
      { root := .directory [("d", .directory [("p", .directory
          [("a.j", .file (Text.bytes document))])])] }
    let ran := exec (s.mine chain (Schedule.eager 1)) files
    s.defect? = none ∧ (ran.1.map (·.stats.records)) = .ok 1 ∧
      ran.2.readLog s.logPath s.compression = .error (.log (.format .alternative)) := by
  decide +kernel

end Settings

end EditIdioms
