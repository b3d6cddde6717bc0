import EditIdioms.Command.Arguments
import EditIdioms.Packed.Frame
import EditIdioms.Run

/-!
# Commands

What the commands do with files, and what they print.

## Main definitions

* `MineOptions.settings` — the settings of a run: from the usual ones, a file and the options, the
  later ones winning.
* `Outcome` — what a command prints, and why it failed if it did.
* `Command.execute` — carries out a command.

## Implementation notes

A command is carried out with any codec for compressed logs. Where none is given it is
`Packed.storing`, which is imported for that.
-/

set_option autoImplicit false

namespace EditIdioms

namespace MineOptions

/-- Options on top of settings. Compression is only switched on where there is none, and
specialization only off. -/
def applyTo (o : MineOptions) (s : Settings) : Settings :=
  { s with
    datasetRoot := o.dataset?.getD s.datasetRoot
    outputDirectory := o.output?.getD s.outputDirectory
    diffSuffix := o.suffix?.getD s.diffSuffix
    compression := if o.compress && !s.compression.isCompressed then .usual else s.compression
    specialize := s.specialize && !o.noSpecialize }

/-- The settings of a run. -/
def settings (o : MineOptions) (files : Files) : Except RunFault Settings :=
  match o.settingsFile? with
  | none => .ok (o.applyTo {})
  | some path => (Settings.load files path).map o.applyTo

end MineOptions

/-- What a command prints, line by line, and why it failed. -/
structure Outcome where
  lines : List String := []
  failure? : Option String := none
deriving DecidableEq

namespace Command

/-- The lines about a run that ended well. -/
def summaryLines (s : Settings) (summary : Summary) : List String :=
  [ "Projects:    " ++ decimalText summary.projects,
    "Files:       " ++ decimalText summary.files,
    "Edits:       " ++ decimalText summary.stats.edits,
    "Unmatched:   " ++ decimalText summary.stats.unmatched,
    "Records:     " ++ decimalText summary.stats.records,
    "Specialized: " ++ decimalText summary.stats.specialized,
    "Record log:  " ++ s.logPath ]

/-- Why the settings of a run could not be had. -/
def settingsFailure (o : MineOptions) : String := "loading config " ++ o.settingsFile?.getD ""

/-- Mines a dataset. -/
def executeMine [Packed.Codec] (o : MineOptions) (schedule : Schedule) :
    StateM Files Outcome := do
  match o.settings (← get) with
  | .error _ => return { failure? := some (settingsFailure o) }
  | .ok s =>
    match ← (s.mine .standard schedule).run with
    | .ok summary => return { lines := summaryLines s summary }
    | .error fault => return { failure? := some fault.message }

/-- How a log is compressed, going by what was said and by the end of its name. -/
def dumpCompression (log : String) (compressed : Bool) : Compression :=
  if compressed || log.endsWith Settings.compressedEnding then .usual else .plain

/-- A record on a line. -/
def recordLine (r : Record) : String := r.project ++ "\t" ++ r.rule.text

/-- Prints the records of a log up to the first fault. -/
def executeDump [Packed.Codec] (log : String) (compressed : Bool) (files : Files) : Outcome :=
  match files.logSource log (dumpCompression log compressed) with
  | .error cause => { failure? := some (RunFault.files cause).message }
  | .ok source =>
    let (records, fault?) := source.read
    { lines := records.map recordLine
      failure? := fault?.map fun _ => "reading " ++ log }

/-- Lists the rules with their tiers. -/
def ruleLines : List String := RuleTag.all.map fun tag => tag.id ++ "\t" ++ tag.tier.text

/-- Carries out a command. -/
def execute [Packed.Codec] (schedule : Schedule) : Command → StateM Files Outcome
  | .mine options => executeMine options schedule
  | .dump log compressed => return executeDump log compressed (← get)
  | .rules => return { lines := ruleLines }

end Command

end EditIdioms
