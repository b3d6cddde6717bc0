import EditIdioms.Proofs.Broadcast.Session
import EditIdioms.Proofs.Detector.Slots
import EditIdioms.Proofs.Mining.Script
import EditIdioms.Proofs.Tiers

set_option relaxedAutoImplicit false
set_option autoImplicit false

/-!
# The stream of records and its counts

With the standard chain every operation that counts leads to a piece of the stream: to nothing, to a
base record, or to a base record with a specialized one right behind it. Mining publishes the pieces
in the order of the operations, and what it counts are sums over the pieces. Since base rules come
from detectors and specialized ones from refining, the specialized records of the stream are the
second ones of their pieces, so there are never more of them than of the others.

## Main definitions

* `Located`, `Crawl.located` — operations with the file and the project they are found in.
* `Miner.Leads` — the piece of the stream that an operation leads to.
* `Stats.Counts` — what the counts of a stream are.
* `Miner.Mines` — a script whose records are the pieces of operations, with their counts.

## Main results

* `Stats.Counts.add` — streams one after the other are counted by adding.
* `mines_scriptEdits`, `mines_scriptProjects` — the scripts of mining consist of pieces.
* `mined_stream` — what mining publishes and counts.
-/

namespace EditIdioms

open Broadcasting

/-- An operation, with the file and the project it is found in. -/
structure Located where
  project : String
  file : FileDiff
  operation : Edit NodeId

/-- The operations of a file that count, in script order. -/
def FileDiff.located (d : FileDiff) (project : String) : List Located :=
  (d.operations.filter (d.Names ·)).map fun operation => { project, file := d, operation }

/-- The operations that count in all files of all projects, in the order of the crawl. -/
def Crawl.located (projects : List Project) (files : Project → List FileDiff) : List Located :=
  projects.flatMap fun p => (files p).flatMap (·.located p.id)

/-- The piece of the stream that an operation leads to. -/
inductive Miner.Leads (m : Miner) (l : Located) : List Record → Prop
  /-- No rule was found. -/
  | unmatched (slot : m.chain.Fills l.file l.operation none) : Leads m l []
  /-- A base rule was found, and is not refined. -/
  | base {rule : Rule} (slot : m.chain.Fills l.file l.operation (some rule))
    (tier : rule.tier = .base) (unrefined : m.specialize = true → rule.refine? = none) :
    Leads m l [⟨rule, l.project⟩]
  /-- A base rule was found, and its specialized rule comes right behind it. -/
  | refined {rule special : Rule} (slot : m.chain.Fills l.file l.operation (some rule))
    (tier : rule.tier = .base) (enabled : m.specialize = true)
    (refined : rule.refine? = some special) (special_tier : special.tier = .specialized) :
    Leads m l [⟨rule, l.project⟩, ⟨special, l.project⟩]

/-- The counts are those of a stream that a number of operations led to. -/
structure Stats.Counts (s : Stats) (operations : ℕ) (stream : List Record) : Prop where
  edits_eq : s.edits = operations
  edits_split : s.edits = s.unmatched + (s.records - s.specialized)
  records_eq : s.records = stream.length
  specialized_eq : s.specialized = stream.countP (·.rule.tier = .specialized)
  specialized_le : s.specialized ≤ s.records - s.specialized

/-! ## Counting -/

/-- No counter has counted anything where there is nothing to count. -/
lemma Stats.counts_empty : ({} : Stats).Counts 0 [] := ⟨rfl, rfl, rfl, rfl, Nat.le_refl _⟩

/-- **Streams one after the other** are counted by adding. -/
lemma Stats.Counts.add {s t : Stats} {n k : ℕ} {first second : List Record} (hs : s.Counts n first)
    (ht : t.Counts k second) : (s.add t).Counts (n + k) (first ++ second) := by
  obtain ⟨hedits, hsplit, hrecords, hspecialized, hle⟩ := hs
  obtain ⟨hedits', hsplit', hrecords', hspecialized', hle'⟩ := ht
  refine ⟨?_, ?_, ?_, ?_, ?_⟩ <;> unfold Stats.add
  · dsimp only
    rw [hedits, hedits']
  · dsimp only
    omega
  · dsimp only
    rw [hrecords, hrecords', List.length_append]
  · dsimp only
    rw [hspecialized, hspecialized', List.countP_append]
  · dsimp only
    omega

/-! ## Pieces -/

namespace Miner

/-- **An operation leads to one piece only.**

**Proof sketch.** An operation resolves to one edit and the chain gives one slot for it, so two ways
to lead somewhere have the same slot. An empty slot leads to nothing only. A rule alone and a rule
with its refinement exclude each other, as the rule is refined in one case and not in the other, and
the refinement of a rule is one. -/
lemma rightUnique_leads (m : Miner) : Relator.RightUnique m.Leads := by
  intro l piece piece' h h'
  have hslot : ∀ {slot slot' : Option Rule}, m.chain.Fills l.file l.operation slot →
      m.chain.Fills l.file l.operation slot' → slot = slot' := by
    rintro slot slot' ⟨edit, hresolve, hclassify⟩ ⟨edit', hresolve', hclassify'⟩
    obtain rfl := Option.some.inj (hresolve.symm.trans hresolve')
    exact Except.ok.inj (hclassify.symm.trans hclassify')
  cases h with
  | unmatched hnone =>
    cases h' with
    | unmatched _ => rfl
    | base hsome => exact nomatch hslot hnone hsome
    | refined hsome => exact nomatch hslot hnone hsome
  | base hsome _ hunrefined =>
    cases h' with
    | unmatched hnone => exact nomatch hslot hnone hsome
    | base hsome' =>
      obtain rfl := Option.some.inj (hslot hsome hsome')
      rfl
    | refined hsome' _ henabled hrefined =>
      obtain rfl := Option.some.inj (hslot hsome hsome')
      exact nomatch (hunrefined henabled).symm.trans hrefined
  | refined hsome _ henabled hrefined =>
    cases h' with
    | unmatched hnone => exact nomatch hslot hnone hsome
    | base hsome' _ hunrefined =>
      obtain rfl := Option.some.inj (hslot hsome hsome')
      exact nomatch (hunrefined henabled).symm.trans hrefined
    | refined hsome' _ _ hrefined' =>
      obtain rfl := Option.some.inj (hslot hsome hsome')
      obtain rfl := Option.some.inj (hrefined.symm.trans hrefined')
      rfl

/-- The script publishes the pieces that operations lead to, one after the other, and gives a value
with their counts. -/
def Mines {α : Type} (m : Miner) (p : Script α) (count : α → Stats) (ls : List Located) : Prop :=
  ∃ pieces a, List.Forall₂ m.Leads ls pieces ∧
    p = { records := pieces.flatten, ending := .ok a } ∧
      (count a).Counts ls.length pieces.flatten

/-- A script that gives a value with nothing counted. -/
lemma mines_value {α : Type} {m : Miner} {a : α} {count : α → Stats} (h : count a = {}) :
    m.Mines (.value a) count [] :=
  ⟨[], a, .nil, rfl, h ▸ Stats.counts_empty⟩

/-- Two scripts in sequence whose counts are added. -/
lemma Mines.add {α β γ : Type} {m : Miner} {p : Script α} {q : Script β} {f : α → β → γ}
    {count : α → Stats} {count' : β → Stats} {count'' : γ → Stats} {ls ls' : List Located}
    (hp : m.Mines p count ls) (hq : m.Mines q count' ls')
    (hf : ∀ a b, count'' (f a b) = (count a).add (count' b)) :
    m.Mines (p.andThen fun a => q.andThen fun b => .value (f a b)) count'' (ls ++ ls') := by
  obtain ⟨pieces, a, hleads, rfl, hcounts⟩ := hp
  obtain ⟨pieces', b, hleads', rfl, hcounts'⟩ := hq
  refine ⟨pieces ++ pieces', f a b, List.rel_append hleads hleads', ?_, ?_⟩
  · simp only [Script.andThen, Script.value, List.flatten_append, List.append_nil]
  · rw [hf, List.length_append, List.flatten_append]
    exact hcounts.add hcounts'

variable (specialize : Bool)

/-- **An operation leads to one piece**, and its edit is counted with it.

**Proof sketch.** By the slot. An empty one leads to the empty piece. A rule of the standard chain
is a base rule (`Chain.tier_of_standard_classify`); it is alone unless the miner specializes and a
refiner applies, and then the special rule follows it. In each case the piece is what the script
publishes, and the counters are those of the rules in it. -/
lemma mines_scriptRules {l : Located} {edit : Edit Site} {rule? : Option Rule}
    (hresolve : l.file.resolve? l.operation = some edit)
    (hclassify : Chain.standard.classify edit = .ok rule?) :
    let m : Miner := { specialize }
    m.Mines (m.scriptRules l.project rule?) (fun _ => m.countFor rule?) [l] := by
  intro m
  have hslot : m.chain.Fills l.file l.operation rule? := ⟨edit, hresolve, hclassify⟩
  cases rule? with
  | none =>
    exact ⟨[[]], (), .cons (.unmatched hslot) .nil, rfl, ⟨rfl, rfl, rfl, rfl, Nat.le_refl _⟩⟩
  | some rule =>
    have hbase := Chain.tier_of_standard_classify hclassify
    have hone : m.rulesFor rule = [rule] → (m.specialize = true → rule.refine? = none) →
        m.Mines (m.scriptRules l.project (some rule)) (fun _ => m.countFor (some rule)) [l] := by
      intro hrules hunrefined
      refine ⟨[[⟨rule, l.project⟩]], (), .cons (.base hslot hbase hunrefined) .nil, ?_, ?_⟩
      · simp [scriptRules, Script.publish, hrules]
      · rw [countFor, hrules]
        exact ⟨rfl, rfl, rfl, by simp [hbase], Nat.zero_le _⟩
    cases hspecialize : m.specialize with
    | false => exact hone (by simp [rulesFor, hspecialize]) (by simp [hspecialize])
    | true =>
      cases hrefine : rule.refine? with
      | none => exact hone (by simp [rulesFor, hrefine]) fun _ => hrefine
      | some special =>
        have hspecial := Rule.tier_of_refine? hrefine
        have hrules : m.rulesFor rule = [rule, special] := by
          simp [rulesFor, hspecialize, hrefine]
        refine ⟨[[⟨rule, l.project⟩, ⟨special, l.project⟩]], (),
          .cons (.refined hslot hbase hspecialize hrefine hspecial) .nil, ?_, ?_⟩
        · simp [scriptRules, Script.publish, hrules]
        · rw [countFor, hrules]
          exact ⟨rfl, rfl, rfl, by simp [hbase, hspecial], Nat.le_refl _⟩

/-! ## The scripts of mining -/

/-- **The edits of a file** lead to the pieces of its operations.

**Proof sketch.** Induction on the operations that count along with their edits. The chain gives a
slot for each edit, as no standard detector is a fault; that edit leads to its piece
(`mines_scriptRules`), and the others to theirs. -/
lemma mines_scriptEdits (project : String) (d : FileDiff) :
    let m : Miner := { specialize }
    m.Mines (m.scriptEdits project d.edits) id (d.located project) := by
  intro m
  have hedits := d.rel_edits
  unfold FileDiff.located
  generalize d.operations.filter (d.Names ·) = operations, d.edits = edits at hedits
  induction hedits with
  | nil => exact mines_value rfl
  | @cons operation edit operations edits hresolve _ ih =>
    obtain ⟨rule?, hrule⟩ := Chain.standard_classify_isOk edit
    have hfirst := mines_scriptRules specialize (l := { project, file := d, operation }) hresolve
      hrule
    have hclassify : m.chain.classify edit = .ok rule? := hrule
    unfold scriptEdits
    rw [hclassify]
    exact hfirst.add ih fun _ _ => rfl

/-- The files of a project lead to the pieces of their operations. -/
lemma mines_scriptDiffs (project : String) (diffs : List FileDiff) :
    let m : Miner := { specialize }
    m.Mines (m.scriptDiffs project diffs) (·.stats) (diffs.flatMap (·.located project)) := by
  intro m
  induction diffs with
  | nil => exact mines_value rfl
  | cons d diffs ih => exact (mines_scriptEdits specialize project d).add ih fun _ _ => rfl

/-- **The projects of a crawl** lead to the pieces of the operations in their files. -/
lemma mines_scriptProjects {crawl : Crawl} {files : Project → List FileDiff}
    {projects : List Project} (hfiles : ∀ p ∈ projects, crawl.diffs p = .ok (files p)) :
    let m : Miner := { specialize }
    m.Mines (m.scriptProjects crawl projects) (·.stats) (Crawl.located projects files) := by
  intro m
  induction projects with
  | nil => exact mines_value rfl
  | cons p projects ih =>
    have hrest := ih fun p' hp' => hfiles p' (List.mem_cons_of_mem _ hp')
    unfold scriptProjects
    rw [hfiles p List.mem_cons_self]
    exact (mines_scriptDiffs specialize p.id (files p)).add hrest fun _ _ => rfl

end Miner

/-! ## The stream -/

variable {σ ω : Type} [Sink σ ω]

/-- Every worker takes the records, if they are published one after the other. -/
def Broadcast.Accepts (b : Broadcast σ ω) (schedule : Schedule) (records : List Record) : Prop :=
  (perform (publishInTurn schedule records) b).1.2 = none

/-- The broadcast after records were published one after the other. -/
def Broadcast.after (b : Broadcast σ ω) (schedule : Schedule) (records : List Record) :
    Broadcast σ ω :=
  (perform (publishInTurn schedule records) b).2

/-- A computation publishes the pieces that operations lead to, whatever the broadcast is, and gives
a value with their counts, if every worker takes them. -/
def Streams {α : Type} (m : Miner) (schedule : Schedule) (c : Miner.Mining σ ω α)
    (count : α → Stats) (ls : List Located) : Prop :=
  ∃ pieces, List.Forall₂ m.Leads ls pieces ∧
    ∀ b : Broadcast σ ω, b.Accepts schedule pieces.flatten →
      ∃ a, exec c b = (.ok a, b.after schedule pieces.flatten) ∧
        (count a).Counts ls.length pieces.flatten

/-- What follows the script of pieces publishes the pieces. -/
lemma Miner.Mines.streams {α : Type} {m : Miner} {schedule : Schedule} {c : Miner.Mining σ ω α}
    {p : Script α} {count : α → Stats} {ls : List Located} (hp : m.Mines p count ls)
    (hc : Follows schedule c p) : Streams m schedule c count ls := by
  obtain ⟨pieces, a, hleads, rfl, hcounts⟩ := hp
  refine ⟨pieces, hleads, fun b haccepts => ⟨a, ?_, hcounts⟩⟩
  rw [hc b]
  dsimp only
  rw [haccepts]
  rfl

/-- **What mining publishes and counts.** Mining a file with the standard chain publishes the pieces
that the operations that count lead to, in script order. Each piece is empty, or a base record, or a
base record and the specialized one that it is refined to, and no piece has two of these if
refining is not enabled. The edits counted are these operations, the records and the specialized
records counted are those of the stream, and the edits without a rule make up for the rest. The same
holds of a crawl, with the operations of all files of all projects in the order of the crawl.

**Proof sketch.** Each edit is classified (`Chain.standard_classify_isOk`), as a base rule
(`Chain.tier_of_standard_classify`) that may be refined to a specialized one
(`Rule.tier_of_refine?`), so its script has one piece (`mines_scriptRules`). Scripts in sequence
have the pieces of both, and their counts are added (`Mines.add`). Mining follows its script. -/
theorem mined_stream (specialize : Bool) (schedule : Schedule) :
    let m : Miner := { specialize }
    (∀ (project : String) (d : FileDiff),
      Streams m schedule (m.mineDiff schedule project d : Miner.Mining σ ω Stats) id
        (d.located project)) ∧
    ∀ (crawl : Crawl) (projects : List Project) (files : Project → List FileDiff),
      crawl.projects = .ok projects → (∀ p ∈ projects, crawl.diffs p = .ok (files p)) →
        Streams m schedule (m.mineCrawl schedule crawl : Miner.Mining σ ω Summary) (·.stats)
          (Crawl.located projects files) := by
  intro m
  constructor
  · intro project d
    exact (Miner.mines_scriptEdits specialize project d).streams (follows_mineEdits m project _)
  · intro crawl projects files hprojects hfiles
    have hmines := Miner.mines_scriptProjects specialize hfiles
    have hscript : m.scriptCrawl crawl = m.scriptProjects crawl projects := by
      rw [Miner.scriptCrawl, hprojects]
    exact (hscript ▸ hmines : m.Mines (m.scriptCrawl crawl) _ _).streams (follows_mineCrawl m crawl)

/-- A comparison has lost its boundary. The second operation names nothing, and the last one is no
idiom. -/
def shiftedBoundary : FileDiff where
  before.nodes := #[{ kind := .binary .lessEqual }]
  after.nodes := #[{ kind := .binary .lessThan }]
  operations := [.update ⟨0⟩ ⟨0⟩, .delete ⟨7⟩, .insert ⟨0⟩]

/-- The stream of two projects with such a file in each. -/
theorem mined_stream_boundary :
    let m : Miner := { specialize := true }
    let projects : List Project := [{ id := "p", path := "p" }, { id := "q", path := "q" }]
    let crawl : Crawl := { projects := .ok projects, diffs := fun _ => .ok [shiftedBoundary] }
    let base : Rule := .binaryOperatorReplaced .lessEqual .lessThan
    let stream : List Record := [⟨base, "p"⟩, ⟨.conditionalBoundary, "p"⟩, ⟨base, "q"⟩,
      ⟨.conditionalBoundary, "q"⟩]
    let b : Broadcast Tape (List (List Record)) := .start [{ label := "x", room := 4 }] []
    b.Accepts (Schedule.eager 1) stream ∧ ∃ summary,
      exec (m.mineCrawl (Schedule.eager 1) crawl) b =
        (.ok summary, b.after (Schedule.eager 1) stream) ∧ summary.stats.Counts 4 stream := by
  intro m projects crawl base stream b
  have haccepts : b.Accepts (Schedule.eager 1) stream := by
    unfold Broadcast.Accepts
    decide +kernel
  have hstreams : Streams m (Schedule.eager 1)
      (m.mineCrawl (Schedule.eager 1) crawl : Miner.Mining Tape (List (List Record)) Summary)
      (·.stats) (Crawl.located projects fun _ => [shiftedBoundary]) :=
    (mined_stream true (Schedule.eager 1)).2 crawl projects _ rfl fun _ _ => rfl
  obtain ⟨pieces, hleads, hstream⟩ := hstreams
  have hrule : Chain.standard.Fills shiftedBoundary (.update ⟨0⟩ ⟨0⟩)
      (some (.binaryOperatorReplaced .lessEqual .lessThan)) := ⟨_, rfl, by decide +kernel⟩
  have hnone : Chain.standard.Fills shiftedBoundary (.insert ⟨0⟩) none :=
    ⟨_, rfl, by decide +kernel⟩
  have hrefine : Rule.refine? (.binaryOperatorReplaced .lessEqual .lessThan) =
      some .conditionalBoundary := by decide +kernel
  have hchanged (project : String) : m.Leads ⟨project, shiftedBoundary, .update ⟨0⟩ ⟨0⟩⟩
      [⟨base, project⟩, ⟨.conditionalBoundary, project⟩] := .refined hrule rfl rfl hrefine rfl
  have hpassed (project : String) : m.Leads ⟨project, shiftedBoundary, .insert ⟨0⟩⟩ [] :=
    .unmatched hnone
  have hexpected : List.Forall₂ m.Leads (Crawl.located projects fun _ => [shiftedBoundary])
      [[⟨base, "p"⟩, ⟨.conditionalBoundary, "p"⟩], [], [⟨base, "q"⟩, ⟨.conditionalBoundary, "q"⟩],
        []] :=
    .cons (hchanged "p") (.cons (hpassed "p") (.cons (hchanged "q") (.cons (hpassed "q") .nil)))
  obtain rfl := List.right_unique_forall₂' (Miner.rightUnique_leads m) hleads hexpected
  exact ⟨haccepts, hstream b haccepts⟩

end EditIdioms
