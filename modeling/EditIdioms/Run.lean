import EditIdioms.Mining
import EditIdioms.RecordLog.Writer
import EditIdioms.Tables

/-!
# Runs

A run takes its settings from a file or from elsewhere, looks for the dataset, checks the settings,
makes the output directory, opens the record log and only then starts mining. Nothing is written to
an existing file before the log is opened, and nothing but the log is opened before the end.

## Main definitions

* `RunFault` — what can go wrong, and its wording.
* `Settings.load` — settings from a file.
* `Settings.logPath` — where the record log is.
* `Settings.openSinks` — makes the output directory and opens the log.
* `Settings.mine` — a whole run.
* `Settings.mineLate` — a run that looks for the dataset after the sinks have been opened.
-/

set_option autoImplicit false

namespace EditIdioms

/-- What can go wrong with a run. -/
inductive RunFault where
  | files (cause : Cause)
  | unreadableSettings (path : String) (fault : ReadFault)
  | undecodableSettings (fault : Json.Fault)
  | settings (defect : SettingsDefect)
  | mining (fault : MiningFault)
deriving DecidableEq

/-- The wording of a defect. -/
def SettingsDefect.message : SettingsDefect → String
  | emptyRecordLog => "record log name is empty"
  | emptySuffix => "diff suffix is empty"
  | levelOutOfRange level => "zstd level " ++ integerText level.toInt ++ " is out of range 1..=22"

/-- The wording of a fault. -/
def RunFault.message : RunFault → String
  | files cause => "I/O error: " ++ cause.message
  | unreadableSettings path fault =>
    "Configuration error: cannot read " ++ path ++ ": " ++ fault.message
  | undecodableSettings _ => "JSON error"
  | settings defect => "Configuration error: " ++ defect.message
  | mining fault => fault.message

/-- The sinks of a run. -/
abbrev RunSink := LogWriter ⊕ TableWriter

namespace Settings

/-- Loads settings from a file. -/
def load (files : Files) (path : String) : Except RunFault Settings :=
  match files.text path with
  | .error fault => .error (.unreadableSettings path fault)
  | .ok text =>
    match Document.decode Document.readSettings text with
    | .ok settings => .ok settings
    | .error fault => .error (.undecodableSettings fault)

/-- Where the record log is. -/
def logPath (s : Settings) : String := Path.join s.outputDirectory s.recordLogName

/-- Makes the output directory and opens the record log. -/
def openSinks (s : Settings) : Disk (List RunSink) := do
  Disk.makeDirectories s.outputDirectory
  let log ← LogWriter.create s.logPath s.compression
  return [.inl log, .inr { directory := s.outputDirectory }]

/-- A computation on files that may end a run. -/
abbrev Running (α : Type) := ExceptT RunFault (StateM Files) α

/-- What must hold before anything is changed: the dataset is there and the settings have no
defect. -/
def ready (s : Settings) (files : Files) : Except RunFault Dataset := do
  match Dataset.open? files s.datasetRoot s.diffSuffix with
  | .error fault => throw (.mining (.dataset fault))
  | .ok dataset =>
    match s.defect? with
    | some defect => throw (.settings defect)
    | none => return dataset

/-- The broadcast of a run with the given sinks. -/
def broadcast [Packed.Codec] (sinks : List RunSink) (files : Files) : Broadcast RunSink Files :=
  .start sinks files

/-- Mines a dataset into sinks that have been opened. -/
def mineInto [Packed.Codec] (s : Settings) (chain : Chain) (schedule : Schedule) (dataset : Dataset)
    (sinks : List RunSink) : Running Summary := do
  let files ← get
  let miner : Miner := { chain, specialize := s.specialize }
  let (result, b) := (miner.run schedule dataset files).run.run (broadcast sinks files)
  set b.world
  match result with
  | .ok summary => return summary
  | .error fault => throw (.mining fault)

/-- Mines the dataset of the settings with a chain, under a schedule of the workers. -/
def mine [Packed.Codec] (s : Settings) (chain : Chain) (schedule : Schedule) :
    Running Summary := do
  match s.ready (← get) with
  | .error fault => throw fault
  | .ok dataset =>
    match ← (s.openSinks.run : StateM Files _) with
    | .error cause => throw (.files cause)
    | .ok sinks => s.mineInto chain schedule dataset sinks

/-- Mines the dataset of the settings, which is looked for only when the sinks have been opened. If
it is not there, the sinks are given up. -/
def mineLate [Packed.Codec] (s : Settings) (chain : Chain) (schedule : Schedule) :
    Running Summary := do
  match s.defect? with
  | some defect => throw (.settings defect)
  | none =>
    match ← (s.openSinks.run : StateM Files _) with
    | .error cause => throw (.files cause)
    | .ok sinks =>
      let files ← get
      match Dataset.open? files s.datasetRoot s.diffSuffix with
      | .error fault =>
        set ((Broadcasting.abandon schedule).run (broadcast sinks files)).2.world
        throw (.mining (.dataset fault))
      | .ok dataset => s.mineInto chain schedule dataset sinks

end Settings

end EditIdioms
