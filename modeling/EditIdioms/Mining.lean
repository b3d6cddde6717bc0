import EditIdioms.Broadcast.Basic
import EditIdioms.Dataset
import EditIdioms.Detector.Standard
import EditIdioms.Refinement

/-!
# Mining a dataset

Every edit of every document is classified, and the rules found are published in the order of the
edits, a specialized record right behind its base record. When mining stops, for whatever reason,
the broadcast is closed, so that the workers that are still well finish their work; and when it
stopped because a worker had ended, that worker's own failure is what is reported.

## Main definitions

* `Stats` — what is counted.
* `MiningFault` — what can go wrong.
* `Miner`, `mineDiff`, `mineCrawl` — mining.
* `runCrawl`, `run` — mining with the broadcast closed at the end.
-/

set_option autoImplicit false

namespace EditIdioms

/-- What is counted while mining. -/
structure Stats where
  /-- Edits looked at. -/
  edits : Nat := 0
  /-- Edits in which no rule was found. -/
  unmatched : Nat := 0
  /-- Records published. -/
  records : Nat := 0
  /-- Specialized records among them. -/
  specialized : Nat := 0
deriving DecidableEq

/-- Two counts together. -/
def Stats.add (s t : Stats) : Stats where
  edits := s.edits + t.edits
  unmatched := s.unmatched + t.unmatched
  records := s.records + t.records
  specialized := s.specialized + t.specialized

/-- Why mining stops. -/
inductive MiningFault where
  | dataset (fault : DatasetFault)
  | broadcast (fault : BroadcastFault)
  /-- A detector reached outside a tree. -/
  | arena (fault : ArenaFault)
deriving DecidableEq

/-- The wording of a fault. -/
def MiningFault.message : MiningFault → String
  | dataset fault => "Source error: " ++ fault.message
  | broadcast fault => "Pipeline error: " ++ fault.message
  | arena (.outside id) => "no node " ++ id.text

/-- How edits become rules. -/
structure Miner where
  chain : Chain := .standard
  /-- Whether base rules are narrowed. -/
  specialize : Bool := true

/-- What mining a whole dataset gives. -/
structure Summary where
  projects : Nat := 0
  files : Nat := 0
  stats : Stats := {}
  reports : List Report := []
deriving DecidableEq

namespace Miner

/-- The rules to publish for a rule that was found. -/
def rulesFor (m : Miner) (rule : Rule) : List Rule :=
  rule :: if m.specialize then rule.refine?.toList else []

/-- What one edit adds to the counts when everything it leads to is published. -/
def countFor (m : Miner) : Option Rule → Stats
  | none => { edits := 1, unmatched := 1 }
  | some rule =>
    let published := (m.rulesFor rule).length
    { edits := 1, records := published, specialized := published - 1 }

variable {σ ω : Type} [Sink σ ω]

/-- A computation on a broadcast that may stop mining. -/
abbrev Mining (σ ω α : Type) [Sink σ ω] := ExceptT MiningFault (StateM (Broadcast σ ω)) α

/-- An action of the producer. -/
def broadcasting {α : Type} (action : Broadcasting σ ω α) : Mining σ ω α := do
  match ← (action.run : StateM (Broadcast σ ω) _) with
  | .ok a => return a
  | .error fault => throw (.broadcast fault)

/-- Publishes rules as records of a project. -/
def publishAll (schedule : Schedule) (project : String) : List Rule → Mining σ ω Unit
  | [] => return ()
  | rule :: rest => do
    broadcasting (Broadcasting.publish schedule { rule, project })
    publishAll schedule project rest

/-- Classifies edits one by one and publishes what they lead to. -/
def mineEdits (m : Miner) (schedule : Schedule) (project : String) :
    List (Edit Site) → Mining σ ω Stats
  | [] => return {}
  | edit :: rest => do
    match m.chain.classify edit with
    | .error fault => throw (.arena fault)
    | .ok rule? =>
      publishAll schedule project ((rule?.map m.rulesFor).getD [])
      return (m.countFor rule?).add (← mineEdits m schedule project rest)

/-- Mines a compared file. -/
def mineDiff (m : Miner) (schedule : Schedule) (project : String) (diff : FileDiff) :
    Mining σ ω Stats :=
  m.mineEdits schedule project diff.edits

/-- Mines the documents of a project. -/
def mineDiffs (m : Miner) (schedule : Schedule) (project : String) :
    List FileDiff → Mining σ ω Summary
  | [] => return {}
  | diff :: rest => do
    let stats ← m.mineDiff schedule project diff
    let others ← mineDiffs m schedule project rest
    return { others with files := others.files + 1, stats := stats.add others.stats }

/-- Mines projects one after the other. -/
def mineProjects (m : Miner) (schedule : Schedule) (crawl : Crawl) :
    List Project → Mining σ ω Summary
  | [] => return {}
  | project :: rest => do
    match crawl.diffs project with
    | .error fault => throw (.dataset fault)
    | .ok diffs =>
      let here ← m.mineDiffs schedule project.id diffs
      let others ← mineProjects m schedule crawl rest
      return {
        projects := others.projects + 1
        files := here.files + others.files
        stats := here.stats.add others.stats }

/-- Mines what a crawl finds. -/
def mineCrawl (m : Miner) (schedule : Schedule) (crawl : Crawl) : Mining σ ω Summary := do
  match crawl.projects with
  | .error fault => throw (.dataset fault)
  | .ok projects => m.mineProjects schedule crawl projects

/-- What to report, from how mining ended and how the broadcast was closed. -/
def outcome : Except MiningFault Summary → Except BroadcastFault (List Report) →
    Except MiningFault Summary
  | .ok summary, .ok reports => .ok { summary with reports }
  | .error (.broadcast (.disconnected _ _)), .error cause => .error (.broadcast cause)
  | .error fault, _ => .error fault
  | .ok _, .error cause => .error (.broadcast cause)

/-- Mines what a crawl finds and closes the broadcast. -/
def runCrawl (m : Miner) (schedule : Schedule) (crawl : Crawl) : Mining σ ω Summary :=
  show StateM (Broadcast σ ω) _ from do
    let mined ← (m.mineCrawl schedule crawl).run
    let closed ← (Broadcasting.close schedule).run
    return outcome mined closed

/-- Mines a dataset and closes the broadcast; the files are looked at as they are when mining
starts. -/
def run (m : Miner) (schedule : Schedule) (dataset : Dataset) (files : Files) :
    Mining σ ω Summary :=
  m.runCrawl schedule (dataset.crawl files)

end Miner

end EditIdioms
