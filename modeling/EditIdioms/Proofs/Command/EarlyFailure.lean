import EditIdioms.Command.Basic
import EditIdioms.Proofs.Files.Making
import EditIdioms.Proofs.Mining.Artifacts

set_option relaxedAutoImplicit false
set_option autoImplicit false

/-!
# Failing before mining

Before a command mines anything it reads the settings, looks for the dataset, checks the settings,
makes the output directory and opens the record log, in this order. When one of these steps fails
the command ends there. No file has been touched by then, not even the record log that may be there
from before, and there are no tables. The last two steps may have made directories on the way to the
output directory.

## Main definitions

* `EarlyStep`, `MineOptions.FailsAt` — the steps, and failing at one of them.
* `Command.carryOut` — what a command line prints, and the files it leaves.
* `EarlyStep.Spares` — what is left when a step has failed.

## Main results

* `spares_of_growsAlong` — what failing with new directories leaves.
* `perform_of_failsAt` — a command ends at the step that fails.
* `exec_mine_of_not_failsAt` — if no step fails, the command mines into open sinks.
* `early_failure_spares_files` — all this for a command line.
-/

namespace EditIdioms

/-- The steps of a command before it mines, in their order. -/
inductive EarlyStep where
  /-- The settings file is read and decoded. -/
  | settings
  /-- The dataset is looked for. -/
  | dataset
  /-- The settings are checked. -/
  | check
  /-- The output directory is made. -/
  | directory
  /-- The record log is opened. -/
  | log
deriving DecidableEq

/-- A step fails, when all steps before it have been taken. -/
inductive MineOptions.FailsAt (o : MineOptions) (files : Files) : EarlyStep → Prop
  | settings {path : String} {fault : RunFault} (named : o.settingsFile? = some path)
    (failed : Settings.load files path = .error fault) : FailsAt o files .settings
  | dataset {s : Settings} (loaded : o.settings files = .ok s)
    (failed : files.isDirectory s.datasetRoot = false) : FailsAt o files .dataset
  | check {s : Settings} {defect : SettingsDefect} (loaded : o.settings files = .ok s)
    (found : files.isDirectory s.datasetRoot = true) (failed : s.defect? = some defect) :
    FailsAt o files .check
  | directory {s : Settings} {cause : Cause} {files' : Files} (loaded : o.settings files = .ok s)
    (found : files.isDirectory s.datasetRoot = true) (sound : s.defect? = none)
    (failed : exec (Disk.makeDirectories s.outputDirectory) files = (.error cause, files')) :
    FailsAt o files .directory
  | log {s : Settings} {cause : Cause} {files₁ files' : Files} (loaded : o.settings files = .ok s)
    (found : files.isDirectory s.datasetRoot = true) (sound : s.defect? = none)
    (made : exec (Disk.makeDirectories s.outputDirectory) files = (.ok (), files₁))
    (failed : exec (LogWriter.create s.logPath s.compression) files₁ = (.error cause, files')) :
    FailsAt o files .log

/-- What a command line prints, and the files it leaves, unless it is refused. -/
def Command.carryOut [Packed.Codec] (schedule : Schedule) (arguments : List String)
    (files : Files) : Except UsageFault (Outcome × Files) :=
  (parse arguments).map fun command => perform (command.execute schedule) files

/-- What is left when a step has failed. The files are the same, and so are the directories unless
some were to be made. What is new are directories on the way to the output directory. -/
structure EarlyStep.Spares (step : EarlyStep) (o : MineOptions) (files files' : Files) : Prop where
  file_iff : ∀ l content, files'.root.at? l = some (.file content) ↔
    files.root.at? l = some (.file content)
  directory : ∀ l entries, files.root.at? l = some (.directory entries) →
    ∃ entries', files'.root.at? l = some (.directory entries')
  here : files'.here = files.here
  unchanged : step ≠ .directory → step ≠ .log → files' = files
  new : ∀ l e, files'.root.at? l = some e → files.root.at? l = none →
    e.isDirectory = true ∧ ∃ s q, o.settings files = .ok s ∧
      Disk.OnTheWay s.outputDirectory q ∧ files'.locateBare q = .ok (.present l e)

variable {o : MineOptions} {files files' files₁ : Files} {s : Settings} {schedule : Schedule}
  {step : EarlyStep}

/-! ## What is left -/

/-- A step that has changed nothing spares everything. -/
lemma EarlyStep.Spares.refl (step : EarlyStep) (o : MineOptions) (files : Files) :
    step.Spares o files files :=
  ⟨fun _ _ => Iff.rfl, fun _ _ h => ⟨_, h⟩, rfl, fun _ _ => rfl, fun _ _ h h' =>
    nomatch h.symm.trans h'⟩

/-- **A step that has made directories** on the way spares everything else. -/
lemma spares_of_growsAlong (hs : o.settings files = .ok s)
    (hgrows : files.GrowsAlong (Disk.OnTheWay s.outputDirectory) files')
    (hstep : step = .directory ∨ step = .log) : step.Spares o files files' := by
  refine ⟨fun l content => hgrows.file_iff, fun l entries h => hgrows.grows.root.directory h,
    hgrows.grows.here, fun hne hne' => ?_, fun l e he hnone => ?_⟩
  · rcases hstep with hstep | hstep
    · exact absurd hstep hne
    · exact absurd hstep hne'
  · obtain ⟨hdirectory, q, hq, hlocate⟩ := hgrows.new he hnone
    exact ⟨hdirectory, s, q, hs, hq, hlocate⟩

/-! ## The steps -/

namespace Settings

/-- Nothing is done when a run is not ready. -/
lemma exec_mine_of_not_ready [Packed.Codec] {chain : Chain}
    (h : ∀ dataset, s.ready files ≠ .ok dataset) :
    ∃ fault, exec (s.mine chain schedule) files = (.error fault, files) := by
  unfold mine
  rw [exec_get_bind]
  cases hready : s.ready files with
  | error fault => exact ⟨fault, rfl⟩
  | ok dataset => exact absurd hready (h dataset)

/-- What a run does that is ready. -/
lemma exec_mine_of_ready [Packed.Codec] {chain : Chain} {dataset : Dataset}
    (h : s.ready files = .ok dataset) :
    exec (s.mine chain schedule) files =
      match exec s.openSinks files with
      | (.ok sinks, files₁) => exec (s.mineInto chain schedule dataset sinks) files₁
      | (.error cause, files₁) => (.error (.files cause), files₁) := by
  unfold mine
  rw [exec_get_bind, h]
  dsimp only
  rw [exec_bind, exec_lift, perform_run]
  rcases exec s.openSinks files with ⟨_ | sinks, files₁⟩ <;> rfl

/-- Opening the sinks ends where the directory cannot be made. -/
lemma exec_openSinks_of_directory {cause : Cause}
    (h : exec (Disk.makeDirectories s.outputDirectory) files = (.error cause, files')) :
    exec s.openSinks files = (.error cause, files') := by
  unfold openSinks
  rw [exec_bind, h]

/-- What opening the sinks does when the directory is made. -/
lemma exec_openSinks_of_made
    (h : exec (Disk.makeDirectories s.outputDirectory) files = (.ok (), files₁)) :
    exec s.openSinks files =
      match exec (LogWriter.create s.logPath s.compression) files₁ with
      | (.ok log, files') => (.ok [.inl log, .inr { directory := s.outputDirectory }], files')
      | (.error cause, files') => (.error cause, files') := by
  unfold openSinks
  rw [exec_bind_ok h, exec_bind]
  rcases exec (LogWriter.create s.logPath s.compression) files₁ with ⟨_ | log, files'⟩ <;> rfl

end Settings

/-- A log that cannot be created changes nothing. -/
lemma LogWriter.exec_createLog_error {path : String} {compression : Compression} {cause : Cause}
    (h : exec (create path compression) files = (.error cause, files')) : files' = files := by
  unfold create at h
  rw [exec_bind] at h
  rcases hcreate : exec (Disk.create path) files with ⟨_ | location, files₁⟩ <;>
    rw [hcreate] at h <;> cases h
  exact Disk.exec_create_error hcreate

/-- There are settings unless their file cannot be read. -/
lemma MineOptions.exists_settings (h : ¬ o.FailsAt files .settings) :
    ∃ s, o.settings files = .ok s := by
  unfold settings
  cases hnamed : o.settingsFile? with
  | none => exact ⟨_, rfl⟩
  | some path =>
    cases hload : Settings.load files path with
    | error fault => exact absurd (.settings hnamed hload) h
    | ok s =>
      refine ⟨o.applyTo s, ?_⟩
      dsimp only
      rw [hload]
      rfl

namespace Command

/-- A command ends when the settings cannot be had. -/
lemma perform_executeMine_of_error [Packed.Codec] {fault : RunFault}
    (h : o.settings files = .error fault) :
    perform (executeMine o schedule) files =
      ({ failure? := some (settingsFailure o) }, files) := by
  unfold executeMine
  rw [perform_bind, perform_get, h]
  rfl

/-- A command fails when the run does. -/
lemma perform_executeMine_of_fault [Packed.Codec] {fault : RunFault}
    (hs : o.settings files = .ok s)
    (h : exec (s.mine .standard schedule) files = (.error fault, files')) :
    perform (executeMine o schedule) files =
      ({ failure? := some fault.message }, files') := by
  unfold executeMine
  rw [perform_bind, perform_get, hs]
  dsimp only
  rw [perform_bind, perform_run, h]
  rfl

/-- **A command ends at the step that fails**, with a reason and nothing else printed, and all files
are spared.

**Proof sketch.** By the step that fails. Up to the check nothing has been changed, so the files are
the same: the settings give the reason (`settingsFailure`), or the run is not ready
(`exec_mine_of_not_ready`). After it the run opens its sinks, and stops where the directories cannot
be made or the log cannot be created. What has been made by then are directories on the way to the
output directory (`Disk.growsAlong_makeDirectories`). -/
lemma perform_of_failsAt [Packed.Codec] (schedule : Schedule) (h : o.FailsAt files step) :
    ∃ reason files', perform (executeMine o schedule) files =
      ({ failure? := some reason }, files') ∧ step.Spares o files files' := by
  cases h with
  | @settings path fault hnamed hfailed =>
    have hsettings : o.settings files = .error fault := by
      rw [MineOptions.settings, hnamed]
      dsimp only
      rw [hfailed]
      rfl
    exact ⟨_, files, perform_executeMine_of_error hsettings, .refl _ _ _⟩
  | dataset hs hfailed =>
    obtain ⟨fault, hmine⟩ := Settings.exec_mine_of_not_ready fun dataset hready =>
      Bool.false_ne_true (hfailed.symm.trans (Settings.ready_eq_ok_iff.mp hready).2.1)
    exact ⟨_, files, perform_executeMine_of_fault hs hmine, .refl _ _ _⟩
  | check hs hfound hfailed =>
    obtain ⟨fault, hmine⟩ := Settings.exec_mine_of_not_ready fun dataset hready =>
      nomatch hfailed.symm.trans (Settings.ready_eq_ok_iff.mp hready).1
    exact ⟨_, files, perform_executeMine_of_fault hs hmine, .refl _ _ _⟩
  | @directory s cause files' hs hfound hsound hfailed =>
    have hmine : exec (s.mine .standard schedule) files = (.error (.files cause), files') := by
      rw [Settings.exec_mine_of_ready (Settings.ready_eq_ok_iff.mpr ⟨hsound, hfound, rfl⟩),
        Settings.exec_openSinks_of_directory hfailed]
    have hgrows := (Disk.growsAlong_makeDirectories s.outputDirectory).rel hfailed
    exact ⟨_, files', perform_executeMine_of_fault hs hmine,
      spares_of_growsAlong hs hgrows (.inl rfl)⟩
  | @log s cause files₁ files' hs hfound hsound hmade hfailed =>
    have hmine : exec (s.mine .standard schedule) files = (.error (.files cause), files') := by
      rw [Settings.exec_mine_of_ready (Settings.ready_eq_ok_iff.mpr ⟨hsound, hfound, rfl⟩),
        Settings.exec_openSinks_of_made hmade, hfailed]
    obtain rfl := LogWriter.exec_createLog_error hfailed
    have hgrows := (Disk.growsAlong_makeDirectories s.outputDirectory).rel hmade
    exact ⟨_, files', perform_executeMine_of_fault hs hmine,
      spares_of_growsAlong hs hgrows (.inr rfl)⟩

/-- **If no step fails**, the command mines into open sinks.

**Proof sketch.** One step after the other is taken, since it does not fail and those before it have
been taken: there are settings, the dataset is there, the settings have no defect, the directories
are made, and the log is created. So the run is ready and has its two sinks, which is where mining
starts. -/
lemma exec_mine_of_not_failsAt [Packed.Codec] (schedule : Schedule)
    (h : ∀ step, ¬ o.FailsAt files step) :
    ∃ s sinks files₁, o.settings files = .ok s ∧ exec s.openSinks files = (.ok sinks, files₁) ∧
      exec (s.mine .standard schedule) files =
        exec (s.mineInto .standard schedule s.dataset sinks) files₁ := by
  obtain ⟨s, hs⟩ := MineOptions.exists_settings fun hfails => h _ hfails
  have hfound : files.isDirectory s.datasetRoot = true := by
    rw [← Bool.not_eq_false]
    exact fun hmissing => h _ (.dataset hs hmissing)
  have hsound : s.defect? = none := by
    rw [Option.eq_none_iff_forall_ne_some]
    exact fun defect hdefect => h _ (.check hs hfound hdefect)
  have hmine : exec (s.mine .standard schedule) files = _ :=
    Settings.exec_mine_of_ready (Settings.ready_eq_ok_iff.mpr ⟨hsound, hfound, rfl⟩)
  rcases hmade : exec (Disk.makeDirectories s.outputDirectory) files with ⟨cause | ⟨⟨⟩⟩, files₁⟩
  · exact absurd (.directory hs hfound hsound hmade) (h _)
  rcases hlog : exec (LogWriter.create s.logPath s.compression) files₁ with ⟨cause | log, files'⟩
  · exact absurd (.log hs hfound hsound hmade hlog) (h _)
  have hopen := Settings.exec_openSinks_of_made hmade
  rw [hlog] at hopen
  rw [hopen] at hmine
  exact ⟨s, _, files', hs, hopen, hmine⟩

end Command

/-- **Failing before mining spares all files.** A command to mine ends at the first step that fails,
with a reason and nothing else printed. If the settings cannot be had, the dataset is not there or
the settings are refused, everything is as it was. If the output directory cannot be made or the log
cannot be opened, every file is where it was, with the same content, and there are no others, so
there is no table that was not there before. All directories are still there, and the new ones are
on the way to the output directory. When no step fails, the sinks have been opened and mining
starts.

**Proof sketch.** Making directories touches no file and adds directories on the way only
(`Disk.growsAlong_makeDirectories`), and creating a file that cannot be created changes nothing
(`Disk.exec_create_error`). -/
theorem early_failure_spares_files [Packed.Codec] {arguments : List String}
    (hparse : Command.parse arguments = .ok (.mine o)) (files : Files) (schedule : Schedule) :
    (∀ step, o.FailsAt files step → ∃ reason files',
      Command.carryOut schedule arguments files = .ok ({ failure? := some reason }, files') ∧
        step.Spares o files files') ∧
    ((∀ step, ¬ o.FailsAt files step) → ∃ s sinks files₁, o.settings files = .ok s ∧
      exec s.openSinks files = (.ok sinks, files₁) ∧
        exec (s.mine .standard schedule) files =
          exec (s.mineInto .standard schedule s.dataset sinks) files₁) := by
  refine ⟨fun step hfails => ?_, Command.exec_mine_of_not_failsAt schedule⟩
  obtain ⟨reason, files', hperform, hspares⟩ := Command.perform_of_failsAt schedule hfails
  refine ⟨reason, files', ?_, hspares⟩
  rw [Command.carryOut, hparse]
  exact congrArg Except.ok hperform

/-- An empty dataset, and settings with a log in a directory that is not there. -/
def misplacedLog : Files where
  root := .directory [("data", .directory []),
    ("s.json", .file (Text.bytes "\x7b\"record_log\":\"no/log\"\x7d"))]

/-- The output directory is made with the one above it, and then the log cannot be opened. -/
theorem early_failure_spares_files_log :
    let arguments := ["mine", "data", "-o", "new/deep", "--config", "s.json"]
    let o : MineOptions := { dataset? := "data", output? := "new/deep", settingsFile? := "s.json" }
    Command.parse arguments = .ok (.mine o) ∧ o.FailsAt misplacedLog .log ∧
      misplacedLog.isDirectory "new" = false ∧
      (exec (Disk.makeDirectories "new/deep") misplacedLog).2.isDirectory "new/deep" = true ∧
      ∃ reason files', Command.carryOut (.eager 1) arguments misplacedLog =
          .ok ({ failure? := some reason }, files') ∧
        EarlyStep.log.Spares o misplacedLog files' := by
  intro arguments o
  have hparse : Command.parse arguments = .ok (.mine o) := rfl
  have hs : o.settings misplacedLog =
      .ok { datasetRoot := "data", outputDirectory := "new/deep", recordLog := "no/log" } := by
    decide +kernel
  let made := (exec (Disk.makeDirectories "new/deep") misplacedLog).2
  have hmade : exec (Disk.makeDirectories "new/deep") misplacedLog = (.ok (), made) :=
    Prod.ext (by decide +kernel) rfl
  have hfails : o.FailsAt misplacedLog .log := by
    rcases hlog : exec (LogWriter.create "new/deep/no/log" .plain) made with ⟨cause | log, files'⟩
    · exact .log hs (by decide +kernel) rfl hmade hlog
    · have hnone : (exec (LogWriter.create "new/deep/no/log" .plain) made).1.isOk = false := by
        decide +kernel
      rw [hlog] at hnone
      cases hnone
  exact ⟨hparse, hfails, by decide +kernel, by decide +kernel,
    (early_failure_spares_files hparse misplacedLog (.eager 1)).1 _ hfails⟩

end EditIdioms
