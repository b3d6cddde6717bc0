import EditIdioms.Packed.Frame
import EditIdioms.Proofs.Broadcast.World
import EditIdioms.Proofs.Mining.Loss
import EditIdioms.Proofs.Mining.Stream
import EditIdioms.Proofs.Tables
import EditIdioms.Proofs.Tally
import EditIdioms.RecordLog.Writer

set_option relaxedAutoImplicit false
set_option autoImplicit false

/-!
# Mining with and without refining

Whether rules are refined is asked only when a rule has been found, so a miner that refines and one
that does not go the same way and differ in the specialized records alone. Two runs with well sinks
are therefore told apart by these records, and by the rows that the tables have for them.

## Main definitions

* `Record.isBase`, `TableRow.isBase` — records and rows of base rules.
* `Summary.Agrees`, `SameEnding` — what two runs have in common.
* `Script.Trims` — a script without the specialized records of another one.
* `withTables`, `Broadcast.Shows` — sinks and the tables, and what has become of them.

## Main results

* `trims_scriptCrawl` — the scripts of the two miners.
* `shows_of_quiet` — a run with well sinks shows the records of its script.
* `specialization_only_adds` — the two runs.
-/

namespace EditIdioms

open Broadcast

/-- The record is one of a base rule. -/
def Record.isBase (r : Record) : Bool := r.rule.tier = .base

/-- The row is one of a base rule. -/
def TableRow.isBase (row : TableRow) : Bool := row.tag.tier = .base

/-- As many edits were looked at, and as many of them had no rule. -/
structure Stats.Agrees (s t : Stats) : Prop where
  edits_eq : s.edits = t.edits
  unmatched_eq : s.unmatched = t.unmatched

/-- As many projects, files and edits were looked at, and as many edits had no rule. -/
structure Summary.Agrees (s t : Summary) : Prop where
  projects_eq : s.projects = t.projects
  files_eq : s.files = t.files
  stats_agrees : s.stats.Agrees t.stats

/-- Both give a value, and the values are related, or both fail in the same way. -/
inductive SameEnding {ε α : Type} (R : α → α → Prop) : Except ε α → Except ε α → Prop
  | ok {a a' : α} (related : R a a') : SameEnding R (.ok a) (.ok a')
  | error (e : ε) : SameEnding R (.error e) (.error e)

/-- Counts that agree do so when more is counted that agrees. -/
lemma Stats.Agrees.add {s s' t t' : Stats} (hs : s.Agrees s') (ht : t.Agrees t') :
    (s.add t).Agrees (s'.add t') :=
  ⟨congrArg₂ (· + ·) hs.edits_eq ht.edits_eq, congrArg₂ (· + ·) hs.unmatched_eq ht.unmatched_eq⟩

/-- Values that are related and then changed in related ways. -/
lemma SameEnding.map {ε ε' α β : Type} {R : α → α → Prop} {S : β → β → Prop} {x x' : Except ε α}
    {f : ε → ε'} {g g' : α → β} (h : SameEnding R x x')
    (hg : ∀ {a a'}, R a a' → S (g a) (g' a')) :
    SameEnding S ((x.mapError f).map g) ((x'.mapError f).map g') := by
  cases h with
  | ok related => exact .ok (hg related)
  | error e => exact .error (f e)

/-! ## Scripts without specialized records -/

namespace Script

variable {α β γ : Type} {R : α → α → Prop} {S : β → β → Prop} {T : γ → γ → Prop}

/-- The second script has the base records of the first one, and they end in the same way. -/
structure Trims (R : α → α → Prop) (p p' : Script α) : Prop where
  records_eq : p'.records = p.records.filter (·.isBase)
  ending : SameEnding R p.ending p'.ending

/-- Scripts that give related values publish nothing. -/
lemma trims_value {a a' : α} (h : R a a') : (value a).Trims R (value a') := ⟨rfl, .ok h⟩

/-- Scripts that meet the same obstacle publish nothing. -/
lemma trims_obstructed (obstacle : Obstacle) :
    (obstructed obstacle : Script α).Trims R (obstructed obstacle) := ⟨rfl, .error obstacle⟩

/-- **Scripts in sequence** are without the specialized records of both parts.

**Proof sketch.** By how the first scripts end, which is in the same way. With an obstacle nothing
comes after them. With values, which are related, the records are those of both parts, and a filter
goes through a list in two parts. -/
lemma Trims.andThen {p p' : Script α} {k k' : α → Script β} (hp : p.Trims R p')
    (hk : ∀ {a a'}, R a a' → (k a).Trims S (k' a')) :
    (p.andThen k).Trims S (p'.andThen k') := by
  obtain ⟨records, ending⟩ := p
  obtain ⟨records', ending'⟩ := p'
  obtain ⟨hrecords, hending⟩ := hp
  cases hending with
  | error obstacle => exact ⟨hrecords, .error obstacle⟩
  | @ok a a' h =>
    refine ⟨?_, (hk h).ending⟩
    rw [andThen_of_ok rfl, andThen_of_ok rfl]
    change records' ++ (k' a').records = (records ++ (k a).records).filter (·.isBase)
    rw [List.filter_append, ← (hk h).records_eq, ← hrecords]

/-- Two scripts in sequence, with a value made of both. -/
lemma Trims.add {p p' : Script α} {q q' : Script β} {f f' : α → β → γ} (hp : p.Trims R p')
    (hq : q.Trims S q') (hf : ∀ {a a' b b'}, R a a' → S b b' → T (f a b) (f' a' b')) :
    (p.andThen fun a => q.andThen fun b => value (f a b)).Trims T
      (p'.andThen fun a => q'.andThen fun b => value (f' a b)) :=
  hp.andThen fun ha => hq.andThen fun hb => trims_value (hf ha hb)

end Script

namespace Miner

variable {chain : Chain}

/-- Refining adds to the counts of an edit only what is not compared. -/
lemma agrees_countFor (rule? : Option Rule) :
    (countFor { chain, specialize := true } rule?).Agrees
      (countFor { chain, specialize := false } rule?) := by
  cases rule? with
  | none => exact ⟨rfl, rfl⟩
  | some rule => exact ⟨rfl, rfl⟩

/-- **A base rule** is published by both miners, and nothing of what it is refined to is one. -/
lemma trims_scriptRules {rule? : Option Rule} (hbase : ∀ rule ∈ rule?, rule.tier = .base)
    (project : String) :
    (scriptRules { chain, specialize := true } project rule?).Trims (fun _ _ => True)
      (scriptRules { chain, specialize := false } project rule?) := by
  refine ⟨?_, .ok trivial⟩
  cases rule? with
  | none => rfl
  | some rule =>
    have hrule : rule.tier = .base := hbase rule rfl
    have hfirst : Record.isBase ⟨rule, project⟩ = true := decide_eq_true hrule
    cases hrefine : rule.refine? with
    | none => simp [scriptRules, Script.publish, rulesFor, hrefine, hfirst]
    | some special =>
      have hspecial : Record.isBase ⟨special, project⟩ = false := by
        simp [Record.isBase, Rule.tier_of_refine? hrefine]
      simp [scriptRules, Script.publish, rulesFor, hrefine, hfirst, hspecial]

variable (hchain : ∀ d ∈ chain, d.FindsBase)
include hchain

/-- Of the records for the edits of a document the base records are those that are published without
specializing. -/
lemma trims_scriptEdits (project : String) (edits : List (Edit Site)) :
    (scriptEdits { chain, specialize := true } project edits).Trims Stats.Agrees
      (scriptEdits { chain, specialize := false } project edits) := by
  induction edits with
  | nil => exact Script.trims_value ⟨rfl, rfl⟩
  | cons edit edits ih =>
    unfold scriptEdits
    dsimp only
    cases hclassify : chain.classify edit with
    | error fault => exact Script.trims_obstructed _
    | ok rule? =>
      have hbase : ∀ rule ∈ rule?, rule.tier = .base := by
        rintro rule rfl
        exact Chain.tier_of_classify hchain hclassify
      exact (trims_scriptRules hbase project).add ih fun _ hstats =>
        (agrees_countFor rule?).add hstats

/-- So it is for the documents of a project, one after another. -/
lemma trims_scriptDiffs (project : String) (diffs : List FileDiff) :
    (scriptDiffs { chain, specialize := true } project diffs).Trims Summary.Agrees
      (scriptDiffs { chain, specialize := false } project diffs) := by
  induction diffs with
  | nil => exact Script.trims_value ⟨rfl, rfl, rfl, rfl⟩
  | cons d diffs ih =>
    exact (trims_scriptEdits hchain project d.edits).add ih fun hstats hothers =>
      ⟨hothers.projects_eq, congrArg (· + 1) hothers.files_eq, hstats.add hothers.stats_agrees⟩

/-- So it is for the projects of a crawl, and an obstacle is met in the same place. -/
lemma trims_scriptProjects (crawl : Crawl) (projects : List Project) :
    (scriptProjects { chain, specialize := true } crawl projects).Trims Summary.Agrees
      (scriptProjects { chain, specialize := false } crawl projects) := by
  induction projects with
  | nil => exact Script.trims_value ⟨rfl, rfl, rfl, rfl⟩
  | cons project projects ih =>
    unfold scriptProjects
    cases crawl.diffs project with
    | error fault => exact Script.trims_obstructed _
    | ok diffs =>
      exact (trims_scriptDiffs hchain project.id diffs).add ih fun hhere hothers =>
        ⟨congrArg (· + 1) hothers.projects_eq,
          congrArg₂ (· + ·) hhere.files_eq hothers.files_eq,
          hhere.stats_agrees.add hothers.stats_agrees⟩

/-- **The scripts of the two miners**: without specializing the base records of the other script are
published, and both scripts end in the same way. -/
lemma trims_scriptCrawl (crawl : Crawl) :
    (scriptCrawl { chain, specialize := true } crawl).Trims Summary.Agrees
      (scriptCrawl { chain, specialize := false } crawl) := by
  unfold scriptCrawl
  cases crawl.projects with
  | error fault => exact Script.trims_obstructed _
  | ok projects => exact trims_scriptProjects hchain crawl projects

end Miner

/-! ## Runs with well sinks -/

variable {σ τ : Type} [Sink σ Files] [Sink τ Files]

/-- Sinks of any kind, and the one for the tables, which is finished last. -/
def withTables (sinks : List σ) (directory : String) : List (σ ⊕ TableWriter) :=
  sinks.map .inl ++ [.inr { directory }]

/-- Every sink has had the records and one cleanup, and the tables have the rows. -/
structure Broadcast.Shows (b : Broadcast (Observed (σ ⊕ TableWriter)) Files) (sinks : List σ)
    (directory : String) (records : List Record) (rows : List TableRow) : Prop where
  calls_eq : b.workers.map (·.sink.calls) =
    (withTables sinks directory).map fun _ => records.map Call.accepted ++ [.cleanup .done]
  general_eq : b.world.content (generalTablePath directory) =
    .ok (Text.bytes (tableText (·.occurrences) rows))
  projects_eq : b.world.content (projectTablePath directory) =
    .ok (Text.bytes (tableText (·.projects.length) rows))

/-- The records are those of the calls. -/
lemma Broadcast.Shows.records_eq {b : Broadcast (Observed (σ ⊕ TableWriter)) Files}
    {sinks : List σ} {directory : String} {records records' : List Record} {rows : List TableRow}
    (h : b.Shows sinks directory records rows)
    (hcalls : b.workers.map (·.sink.calls) = (withTables sinks directory).map fun _ =>
      records'.map Call.accepted ++ [.cleanup .done]) : records = records' := by
  have hlast := congrArg List.getLast? (h.calls_eq.symm.trans hcalls)
  simp only [withTables, List.map_append, List.map_cons, List.map_nil, List.getLast?_concat,
    Option.some.injEq, List.append_cancel_right_eq] at hlast
  exact List.map_injective_iff.mpr (fun _ _ h => (Call.consume.inj h).1) hlast

/-- **A run with well sinks** shows the records of its script, and ends as the script does.

**Proof sketch.** Such a run is a quiet session (`exec_runCrawl`), in which all sinks have had the
same (`session_quiet_calls`) and were finished one after the other (`session_world`), the one for
the tables last (`Retired.exists_last`). -/
lemma shows_of_quiet (m : Miner) (schedule : Schedule) (crawl : Crawl) (sinks : List σ)
    (directory : String) (files : Files) :
    let ran := exec (m.runCrawl schedule crawl)
      (start ((withTables sinks directory).map Observed.of) files)
    let p := m.scriptCrawl crawl
    ran.2.Quiet →
      ran.2.Shows sinks directory p.records (Tally.ofRecords p.records).rows ∧
        ran.1 = (p.ending.mapError Obstacle.fault).map fun found => { found with
          reports := (withTables sinks directory).map fun k =>
            { name := Sink.name k, consumed := p.records.length } } := by
  intro ran p hquiet
  have hran : ran = _ := exec_runCrawl m schedule crawl _ files
  rw [hran] at hquiet ⊢
  dsimp only at hquiet ⊢
  obtain ⟨hfault, -, -⟩ := session_quiet hquiet
  obtain ⟨world, hclean, hworld⟩ := (session_world hquiet).exists_last
  rw [fill_inr, fill_tableWriter] at hclean hworld
  obtain ⟨general, projects, -, hgeneral, hprojects⟩ := exec_write (exec_write_of_cleanup hclean)
  refine ⟨⟨session_quiet_calls hquiet, ?_, ?_⟩, ?_⟩
  · rw [hworld]
    exact hgeneral.content_eq
  · rw [hworld]
    exact hprojects.content_eq
  · rw [session_quiet_closed hquiet, hfault]
    change Miner.outcome (p.ending.mapError Obstacle.fault) _ = _
    cases p.ending with
    | ok found => rfl
    | error obstacle => cases obstacle <;> rfl

/-- **Refining only adds.** Mine what a crawl finds with the standard chain, once with refining and
once without, whatever the sinks and the schedules are, and let the sinks be well in both runs. Then
the records of the second run are the base records of the first one, in the same order; both runs
have looked at as many projects, files and edits, and found no rule in as many edits, or they fail
in the same way; and the tables of the second run are those of the first one without the rows of the
specialized rules.

**Proof sketch.** The script of the second run has the base records of the first one, and ends in
the same way, since what is found is a base rule and what it is refined to is not
(`trims_scriptCrawl`). Each run shows its script (`shows_of_quiet`). A table of the base records has
the rows of the base rules, since sorting does not change the order of rows that are equally
frequent (`Tally.rows_filter`). -/
theorem specialization_only_adds (crawl : Crawl) (schedule schedule' : Schedule) (sinks : List σ)
    (sinks' : List τ) (directory directory' : String) (files files' : Files) :
    let refining := exec (Miner.runCrawl { specialize := true } schedule crawl)
      (start ((withTables sinks directory).map Observed.of) files)
    let plain := exec (Miner.runCrawl { specialize := false } schedule' crawl)
      (start ((withTables sinks' directory').map Observed.of) files')
    refining.2.Quiet → plain.2.Quiet →
      ∃ records, let rows := (Tally.ofRecords records).rows
        refining.2.Shows sinks directory records rows ∧
        plain.2.Shows sinks' directory' (records.filter (·.isBase)) (rows.filter (·.isBase)) ∧
        SameEnding Summary.Agrees refining.1 plain.1 := by
  intro refining plain hquiet hquiet'
  obtain ⟨hshows, hending⟩ := shows_of_quiet _ schedule crawl sinks directory files hquiet
  obtain ⟨hshows', hending'⟩ := shows_of_quiet _ schedule' crawl sinks' directory' files' hquiet'
  have htrims := Miner.trims_scriptCrawl Chain.standard_findsBase crawl
  refine ⟨_, hshows, ?_, ?_⟩
  · rw [htrims.records_eq] at hshows'
    exact Tally.rows_filter (fun tag => tag.tier = .base) _ ▸ hshows'
  · rw [show refining.1 = _ from hending, show plain.1 = _ from hending']
    exact htrims.ending.map fun found => ⟨found.projects_eq, found.files_eq, found.stats_agrees⟩

/-- A constant that is moved by one and a boundary that is lost in one project, and another boundary
in a second one. Of the four rows of the first run two are left. -/
theorem specialization_only_adds_boundary :
    let both : FileDiff :=
      { before := { nodes := #[{ kind := .literal (.int 3) }, { kind := .binary .lessEqual }] },
        after := { nodes := #[{ kind := .literal (.int 4) }, { kind := .binary .lessThan }] },
        operations := [.update ⟨0⟩ ⟨0⟩, .update ⟨1⟩ ⟨1⟩] }
    let crawl : Crawl :=
      { projects := .ok [{ id := "p", path := "p" }, { id := "q", path := "q" }],
        diffs := fun project => .ok [if project.id = "p" then both else shiftedBoundary] }
    let sinks : List LogWriter := [{ path := "l", location := ["l"], compression := .plain }]
    let files : Files := { root := .directory [] }
    let refining := exec (Miner.runCrawl { specialize := true } (Schedule.eager 2) crawl)
      (start ((withTables sinks "o").map Observed.of) files)
    let plain := exec (Miner.runCrawl { specialize := false } Schedule.idle crawl)
      (start ((withTables sinks "o").map Observed.of) files)
    let constant : Rule := .literalReplaced (.int 3) (some (.int 4))
    let operator : Rule := .binaryOperatorReplaced .lessEqual .lessThan
    let stream : List Record :=
      [⟨constant, "p"⟩, ⟨.inlineConstant, "p"⟩, ⟨operator, "p"⟩, ⟨.conditionalBoundary, "p"⟩,
        ⟨operator, "q"⟩, ⟨.conditionalBoundary, "q"⟩]
    refining.2.Quiet ∧ plain.2.Quiet ∧
      refining.2.Shows sinks "o" stream
        [⟨.binaryOperatorReplaced, 2, ["p", "q"]⟩, ⟨.conditionalBoundary, 2, ["p", "q"]⟩,
          ⟨.literalReplaced, 1, ["p"]⟩, ⟨.inlineConstant, 1, ["p"]⟩] ∧
      plain.2.Shows sinks "o" [⟨constant, "p"⟩, ⟨operator, "p"⟩, ⟨operator, "q"⟩]
        [⟨.binaryOperatorReplaced, 2, ["p", "q"]⟩, ⟨.literalReplaced, 1, ["p"]⟩] ∧
      SameEnding Summary.Agrees refining.1 plain.1 := by
  intro both crawl sinks files refining plain constant operator stream
  have hquiet : refining.2.Quiet := by decide +kernel
  have hquiet' : plain.2.Quiet := by decide +kernel
  obtain ⟨records, hshows, hshows', hending⟩ :=
    specialization_only_adds crawl _ _ sinks sinks "o" "o" files files hquiet hquiet'
  have hrecords : records = stream := by
    refine hshows.records_eq ?_
    decide +kernel
  have htally : Tally.ofRecords stream =
      [⟨.literalReplaced, 1, ["p"]⟩, ⟨.inlineConstant, 1, ["p"]⟩,
        ⟨.binaryOperatorReplaced, 2, ["p", "q"]⟩, ⟨.conditionalBoundary, 2, ["p", "q"]⟩] := by
    decide +kernel
  have hrows : (Tally.ofRecords stream).rows =
      [⟨.binaryOperatorReplaced, 2, ["p", "q"]⟩, ⟨.conditionalBoundary, 2, ["p", "q"]⟩,
        ⟨.literalReplaced, 1, ["p"]⟩, ⟨.inlineConstant, 1, ["p"]⟩] := by
    rw [htally, Tally.rows]
    simp [List.mergeSort, List.MergeSort.Internal.splitInTwo]
  rw [hrecords, hrows] at hshows hshows'
  exact ⟨hquiet, hquiet', hshows, hshows', hending⟩

end EditIdioms
