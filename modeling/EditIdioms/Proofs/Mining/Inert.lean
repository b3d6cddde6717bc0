import EditIdioms.Proofs.Code.Loops
import EditIdioms.Proofs.Dataset.Removal
import EditIdioms.Proofs.Mining.Stream

set_option relaxedAutoImplicit false
set_option autoImplicit false

/-!
# Bad documents and mining

Mining depends on the files only through what the walk finds, so it is the same without the files
that nothing comes of. What cannot be mined is not loaded: the trees of a loaded document have no
cycles, so every loop of a detector comes to an end, and only a worker can stop mining.

## Main results

* `Crawl.Agrees.runCrawl_eq` — mining depends on what is found only.
* `Miner.mineCrawl_ends` — only a worker can stop mining.
* `useless_files_are_inert` — mining is the same without useless files, and comes to an end.
-/

namespace EditIdioms

variable {σ ω : Type} [Sink σ ω] {crawl crawl' : Crawl}

/-! ## What mining depends on -/

/-- Mining projects depends on what is found in them. -/
lemma Miner.mineProjects_congr (m : Miner) (schedule : Schedule) {projects : List Project}
    (h : ∀ p ∈ projects, crawl'.diffs p = crawl.diffs p) :
    (m.mineProjects schedule crawl' projects : Miner.Mining σ ω Summary) =
      m.mineProjects schedule crawl projects := by
  induction projects with
  | nil => rfl
  | cons p projects ih =>
    unfold mineProjects
    rw [h p List.mem_cons_self, ih fun p' hp' => h p' (List.mem_cons_of_mem _ hp')]

/-- What projects lead to depends on what is found in them. -/
lemma Miner.scriptProjects_congr (m : Miner) {projects : List Project}
    (h : ∀ p ∈ projects, crawl'.diffs p = crawl.diffs p) :
    m.scriptProjects crawl' projects = m.scriptProjects crawl projects := by
  induction projects with
  | nil => rfl
  | cons p projects ih =>
    unfold scriptProjects
    rw [h p List.mem_cons_self, ih fun p' hp' => h p' (List.mem_cons_of_mem _ hp')]

/-- **Mining depends on what is found only.** -/
lemma Crawl.Agrees.runCrawl_eq (h : crawl.Agrees crawl') (m : Miner) (schedule : Schedule) :
    (m.runCrawl schedule crawl' : Miner.Mining σ ω Summary) = m.runCrawl schedule crawl := by
  have hmine : (m.mineCrawl schedule crawl' : Miner.Mining σ ω Summary) =
      m.mineCrawl schedule crawl := by
    unfold Miner.mineCrawl
    rw [h.projects_eq]
    cases hprojects : crawl.projects with
    | error fault => rfl
    | ok projects => exact m.mineProjects_congr schedule (h.diffs_eq projects hprojects)
  unfold Miner.runCrawl
  rw [hmine]

/-- What a crawl leads to depends on what is found only. -/
lemma Crawl.Agrees.scriptCrawl_eq (h : crawl.Agrees crawl') (m : Miner) :
    m.scriptCrawl crawl' = m.scriptCrawl crawl := by
  unfold Miner.scriptCrawl
  rw [h.projects_eq]
  cases hprojects : crawl.projects with
  | error fault => rfl
  | ok projects => exact m.scriptProjects_congr (h.diffs_eq projects hprojects)

/-! ## How mining ends -/

/-- **Only a worker can stop mining** when everything can be listed: the standard chain is never a
fault. -/
lemma Miner.mineCrawl_ends (specialize : Bool) (schedule : Schedule) {projects : List Project}
    {found : Project → List FileDiff} (hprojects : crawl.projects = .ok projects)
    (hfound : ∀ p ∈ projects, crawl.diffs p = .ok (found p)) (b : Broadcast σ ω) :
    let m : Miner := { specialize }
    (∃ summary, (exec (m.mineCrawl schedule crawl) b).1 = .ok summary) ∨
      ∃ fault, (exec (m.mineCrawl schedule crawl) b).1 = .error (.broadcast fault) := by
  intro m
  obtain ⟨pieces, summary, -, hscript, -⟩ := Miner.mines_scriptProjects specialize hfound
  have hcrawl : m.scriptCrawl crawl = { records := pieces.flatten, ending := .ok summary } := by
    rw [Miner.scriptCrawl, hprojects]
    exact hscript
  rw [follows_mineCrawl m crawl b, hcrawl]
  dsimp only
  cases (perform (Broadcasting.publishInTurn schedule pieces.flatten) b).1.2 with
  | none => exact .inl ⟨summary, rfl⟩
  | some fault => exact .inr ⟨fault, rfl⟩

/-- **Files that nothing comes of are inert.** A dataset is a directory in a tree of files, and the
system may refuse to read some of the files in it. When files are removed whose names are not
accepted, or that cannot be loaded, and all directories stay, then the same records are to be
published, and mining the dataset is the same computation on every broadcast, with the same summary.
And whatever is in the files, the check of a document ends without a fault, all projects can be
listed, the loops over the trees of what was loaded come to an end, and mining gives a summary
unless a worker stops it.

**Proof sketch.** A path by which the walk comes leads to what the walk comes to, before and after,
so the walk finds the same documents but for useless ones (`sameDocuments_kept`); they are sorted,
and the others keep their order. What is loaded is sound (`sound_of_loadDiff`), so its trees have no
cycles. -/
theorem useless_files_are_inert {files : Files} {ds : Dataset} {base : List String}
    {entries : List (String × Entry)} (hproper : files.root.Proper)
    (hroot : files.locate ds.root = .ok (.present base (.directory entries)))
    (refuses : String → Option Cause) (schedule : Schedule) :
    let crawl := ds.crawlUnless refuses files
    (∀ gone, ds.Useless refuses files base gone → ∀ m : Miner,
      m.scriptCrawl (ds.crawlUnless refuses (files.without gone)) = m.scriptCrawl crawl ∧
      (m.runCrawl schedule (ds.crawlUnless refuses (files.without gone)) :
        Miner.Mining σ ω Summary) = m.runCrawl schedule crawl) ∧
    (∀ path content d, files.content path = .ok content → DecodesTo content d →
      (∃ defect?, d.before.validate = .ok defect?) ∧ ∃ defect?, d.after.validate = .ok defect?) ∧
    (∃ (projects : List Project) (found : Project → List FileDiff),
      crawl.projects = .ok projects ∧ ∀ p ∈ projects, crawl.diffs p = .ok (found p) ∧
        ∀ d ∈ found p, ∀ s : Site, s.tree = d.before ∨ s.tree = d.after → s.LoopsEnd) ∧
    (∀ (specialize : Bool) (b : Broadcast σ ω),
      let m : Miner := { specialize }
      (∃ summary, (exec (m.mineCrawl schedule crawl) b).1 = .ok summary) ∨
        ∃ fault, (exec (m.mineCrawl schedule crawl) b).1 = .error (.broadcast fault)) ∧
    ds.crawlUnless (fun _ => none) files = ds.crawl files := by
  intro crawl
  obtain ⟨projects, found, hprojects, hfound⟩ := ds.exists_found refuses hproper hroot
  refine ⟨fun gone huseless m => ?_, fun _ _ d _ _ => ?_, ⟨projects, found, hprojects, ?_⟩,
    fun specialize b => ?_, rfl⟩
  · have hagrees := Dataset.agrees_without hproper hroot huseless
    exact ⟨hagrees.scriptCrawl_eq m, hagrees.runCrawl_eq m schedule⟩
  · exact ⟨d.before.validate_isOk, d.after.validate_isOk⟩
  · intro p hp
    obtain ⟨hdiffs, hsound⟩ := hfound p hp
    refine ⟨hdiffs, fun d hd s hs => ?_⟩
    rcases hs with hs | hs
    · exact (hsound d hd).before_forest.grounded.acyclic.loopsEnd hs
    · exact (hsound d hd).after_forest.grounded.acyclic.loopsEnd hs
  · exact Miner.mineCrawl_ends specialize schedule hprojects (fun p hp => (hfound p hp).1) b

/-- A dataset of one project with one good document. The tree in another one is a node below itself,
the third one is no text, the fourth one must not be read, and a file has a name that is not
accepted. -/
def spoiled : List (String × Entry) :=
  let tree (op : String) := "[[[\x7b\"BinaryOperator\":[\"" ++ op ++ "\"]\x7d]]]"
  let good := "[\"\"," ++ tree "LessEqual" ++ "," ++ tree "LessThan" ++
    ",[\x7b\"Update\":[0,0]\x7d]]"
  let loop := "[\"\",[[]],[[[\"Block\",0,[0]]]],[]]"
  [("p", .directory [
    ("loop.json", .file (Text.bytes loop)),
    ("good.json", .file (Text.bytes good)),
    ("notes.txt", .file (Text.bytes good)),
    ("below", .directory [("late.json", .file [0xff])]),
    ("secret.json", .file (Text.bytes good))])]

/-- Without all files but the good document the same two records are published. -/
theorem useless_files_are_inert_spoiled :
    let ds : Dataset := { root := "data", suffix := ".json" }
    let files : Files := { root := .directory [("data", .directory spoiled)] }
    let refuses (path : String) : Option Cause :=
      if path = "data/p/secret.json" then some .notFound else none
    let gone (location : List String) : Bool :=
      location ∈ [["data", "p", "loop.json"], ["data", "p", "notes.txt"],
        ["data", "p", "below", "late.json"], ["data", "p", "secret.json"]]
    let m : Miner := {}
    let crawl := ds.crawlUnless refuses files
    let crawl' := ds.crawlUnless refuses (files.without gone)
    (m.runCrawl (Schedule.eager 1) crawl' : Miner.Mining Tape (List (List Record)) Summary) =
        m.runCrawl (Schedule.eager 1) crawl ∧
      (m.scriptCrawl crawl').records =
        [⟨.binaryOperatorReplaced .lessEqual .lessThan, "p"⟩, ⟨.conditionalBoundary, "p"⟩] := by
  intro ds files refuses gone m crawl crawl'
  have hproper : files.root.Proper := by
    have hbelow : (Entry.directory [("late.json", .file [0xff])]).Proper :=
      .directory (by decide) (by decide +kernel) (by simp [Entry.Proper.file])
    refine .directory (by decide) (by decide +kernel) ?_
    rw [List.forall_mem_singleton]
    refine .directory (by decide) (by decide +kernel) ?_
    unfold spoiled
    rw [List.forall_mem_singleton]
    refine .directory (by decide +kernel) (by decide +kernel) ?_
    simp [Entry.Proper.file, hbelow]
  have huseless : ds.Useless refuses files ["data"] gone := by
    intro location hgone
    have hmem : location ∈ [["data", "p", "loop.json"], ["data", "p", "notes.txt"],
        ["data", "p", "below", "late.json"], ["data", "p", "secret.json"]] := by
      simpa [gone] using hgone
    simp only [List.mem_cons, List.not_mem_nil, or_false] at hmem
    rcases hmem with rfl | rfl | rfl | rfl
    · exact ⟨["p", "loop.json"], rfl, .inr
        ⟨.malformed "data/p/loop.json" (.treeAfter (.cyclic ⟨0⟩)), by decide +kernel⟩⟩
    · exact ⟨["p", "notes.txt"], rfl, .inl (by decide +kernel)⟩
    · exact ⟨["p", "below", "late.json"], rfl, .inr
        ⟨.unreadable "data/p/below/late.json" .notText, by decide +kernel⟩⟩
    · exact ⟨["p", "secret.json"], rfl, .inr
        ⟨.unreadable "data/p/secret.json" (.refused .notFound), by decide +kernel⟩⟩
  have hroot : files.locate ds.root = .ok (.present ["data"] (.directory spoiled)) :=
    Files.locate_name rfl (by decide +kernel) rfl
  obtain ⟨hinert, -⟩ := @useless_files_are_inert Tape (List (List Record)) _ _ _ _ _ hproper hroot
    refuses (Schedule.eager 1)
  exact ⟨(hinert gone huseless m).2, by decide +kernel⟩

end EditIdioms
