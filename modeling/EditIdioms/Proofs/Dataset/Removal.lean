import EditIdioms.Proofs.Dataset.Loading
import EditIdioms.Proofs.Files.Removal
import EditIdioms.Proofs.Text.Order

set_option relaxedAutoImplicit false
set_option autoImplicit false

/-!
# Files that nothing comes of

A file of a dataset whose name is not accepted, or that cannot be loaded, might as well not be
there: the walk finds the same projects without it, and loads the same from each of them. The system
may refuse to read any of the files.

## Main definitions

* `Dataset.walkPath` — the path by which the walk comes to a place.
* `Dataset.Useless` — nothing comes of the files at some locations.
* `SameDocuments` — documents of which the same ones are loaded.
* `Crawl.Agrees` — crawls that find the same.

## Main results

* `sameDocuments_kept` — the walk through what is left of a dataset.
* `Dataset.agrees_without` — a crawl finds the same without useless files.
* `Dataset.exists_found` — what a crawl finds.
-/

namespace EditIdioms

/-! ## Loading -/

section Loading

variable {refuses : String → Option Cause} {files files' : Files} {path : String} {d : FileDiff}

/-- What is loaded depends on the content of the file only. -/
lemma loadUnless_congr (h : files'.content path = files.content path) :
    loadUnless refuses files' path = loadUnless refuses files path := by
  unfold loadUnless loadDiff Files.text
  rw [h]

/-- What is loaded is sound, whatever the system refuses to read. -/
lemma sound_of_loadUnless (h : loadUnless refuses files path = .ok d) : d.Sound := by
  unfold loadUnless at h
  split at h
  · cases h
  · exact sound_of_loadDiff h

/-- Nothing is found by a path that is too long, whatever the files are. -/
lemma Files.content_of_isTooLong (h : Path.isTooLong path = true) (files files' : Files) :
    files'.content path = files.content path := by
  have hlocate : files'.locate path = files.locate path := by
    unfold locate locatePieces
    simp only [h, if_true]
  unfold content entry
  rw [hlocate]

end Loading

/-! ## The walk through what is left -/

/-- The path by which the walk comes to where the names lead, from the root of the dataset on. -/
def Dataset.walkPath (ds : Dataset) (names : List String) : String := names.foldl Path.join ds.root

/-- Nothing comes of the files at some locations in the dataset, which is the directory at `base`:
the path by which the walk comes to each of them has a name that is not accepted, or the file cannot
be loaded. -/
def Dataset.Useless (ds : Dataset) (refuses : String → Option Cause) (files : Files)
    (base : List String) (gone : List String → Bool) : Prop :=
  ∀ location, gone location = true → ∃ names, location = base ++ names ∧
    (acceptsName ds.suffix (ds.walkPath names) = false ∨
      ∃ fault, loadUnless refuses files (ds.walkPath names) = .error fault)

/-- Of both lists of documents the same ones can be loaded, and those of the second list give the
same in the files that are left. -/
structure SameDocuments (refuses : String → Option Cause) (files files' : Files)
    (paths paths' : List String) : Prop where
  filter_eq : (paths'.filter fun path => (loadUnless refuses files path).toOption.isSome) =
    paths.filter fun path => (loadUnless refuses files path).toOption.isSome
  load_eq : ∀ path ∈ paths', loadUnless refuses files' path = loadUnless refuses files path

section Walk

variable {ds : Dataset} {refuses : String → Option Cause} {files files' : Files}
  {base : List String} {gone : List String → Bool} {paths paths' rest rest' : List String}

/-- The same document is in both lists. -/
lemma SameDocuments.singleton {path : String} {p : Prop} [Decidable p]
    (h : files'.content path = files.content path) :
    SameDocuments refuses files files' (if p then [path] else []) (if p then [path] else []) := by
  refine ⟨rfl, fun path' hmem => ?_⟩
  split at hmem
  · obtain rfl := List.mem_singleton.mp hmem
    exact loadUnless_congr h
  · cases hmem

/-- One list of documents behind another one. -/
lemma SameDocuments.append (h : SameDocuments refuses files files' paths paths')
    (h' : SameDocuments refuses files files' rest rest') :
    SameDocuments refuses files files' (paths ++ rest) (paths' ++ rest') := by
  refine ⟨?_, fun path hmem => ?_⟩
  · rw [List.filter_append, List.filter_append, h.filter_eq, h'.filter_eq]
  · rcases List.mem_append.mp hmem with hmem | hmem
    · exact h.load_eq path hmem
    · exact h'.load_eq path hmem

/-- **The same is loaded** from both lists when they are sorted. -/
lemma SameDocuments.loadable_eq (h : SameDocuments refuses files files' paths paths') :
    loadable refuses files' (paths'.mergeSort Path.atMost) =
      loadable refuses files (paths.mergeSort Path.atMost) := by
  have hfilter : ∀ paths : List String, loadable refuses files (paths.mergeSort Path.atMost) =
      loadable refuses files ((paths.filter fun path =>
        (loadUnless refuses files path).toOption.isSome).mergeSort Path.atMost) := by
    intro paths
    rw [← filter_mergeSort Path.atMost_trans Path.atMost_total]
    unfold loadable
    rw [List.filterMap_filter]
    refine List.filterMap_congr fun path _ => ?_
    cases (loadUnless refuses files path).toOption <;> rfl
  have hload : loadable refuses files' (paths'.mergeSort Path.atMost) =
      loadable refuses files (paths'.mergeSort Path.atMost) := by
    refine List.filterMap_congr fun path hmem => ?_
    rw [h.load_eq path (List.mem_mergeSort.mp hmem)]
  rw [hload, hfilter, h.filter_eq, ← hfilter]

/-- A file is found again unless it is useless.

**Proof sketch.** If the file is gone it was useless: either its name is not accepted, so it was on
neither list, or it cannot be loaded, so it does not count. If it is kept, it is on both lists or on
neither. Its path leads to it before and after (`Files.locate_without`), unless the path is too
long, and then it leads nowhere before and after; so the content found there is the same. -/
lemma sameDocuments_file (hproper : files.root.Proper)
    (huseless : ds.Useless refuses files base gone) {content : List UInt8} {names : List String}
    (hlocate : Path.isTooLong (ds.walkPath names) = false →
      files.locate (ds.walkPath names) = .ok (.present (base ++ names) (.file content))) :
    SameDocuments refuses files (files.without gone)
      ((Entry.file content).documents ds.suffix (ds.walkPath names))
      ((((Entry.file content).kept gone (base ++ names)).map
        (·.documents ds.suffix (ds.walkPath names))).getD []) := by
  rw [Entry.kept]
  by_cases hgone : gone (base ++ names)
  · rw [if_pos hgone]
    refine ⟨?_, fun path hmem => absurd hmem List.not_mem_nil⟩
    obtain ⟨names', heq, hbad⟩ := huseless _ hgone
    obtain rfl := List.append_cancel_left heq
    rw [Entry.documents]
    rcases hbad with hname | ⟨fault, hload⟩
    · rw [hname, if_neg Bool.false_ne_true]
      rfl
    · split
      · rw [List.filter_cons_of_neg (by rw [hload]; exact Bool.false_ne_true)]
        rfl
      · rfl
  · rw [if_neg hgone]
    refine SameDocuments.singleton ?_
    cases hlong : Path.isTooLong (ds.walkPath names) with
    | true => exact Files.content_of_isTooLong hlong files _
    | false =>
      have hkept : Entry.kept gone (base ++ names) (.file content) = some (.file content) := by
        rw [Entry.kept, if_neg hgone]
      have hleft := Files.locate_without hproper (hlocate hlong) hkept
      exact (Files.Holds.content_eq hleft).trans (Files.Holds.content_eq (hlocate hlong)).symm

/-- What is listed in a directory is found again if each entry is.

**Proof sketch.** Induction on the entries. One that is left has the documents of what is left of
it, and one that is not has none; in both cases they are followed by those of the other entries. -/
lemma sameDocuments_keptOf {path : String} {location : List String}
    {listed : List (String × Entry)}
    (h : ∀ x ∈ listed, SameDocuments refuses files (files.without gone)
      (x.2.documents ds.suffix (Path.join path x.1))
      (((x.2.kept gone (location ++ [x.1])).map
        (·.documents ds.suffix (Path.join path x.1))).getD [])) :
    SameDocuments refuses files (files.without gone) (Entry.documentsOf ds.suffix path listed)
      (Entry.documentsOf ds.suffix path (Entry.keptOf gone location listed)) := by
  induction listed with
  | nil => exact ⟨rfl, fun path hmem => nomatch hmem⟩
  | cons x listed ih =>
    obtain ⟨name, e⟩ := x
    obtain ⟨hchild, hrest⟩ := List.forall_mem_cons.mp h
    have hbehind := ih hrest
    rw [Entry.documentsOf, Entry.keptOf]
    dsimp only at hchild
    cases hkept : e.kept gone (location ++ [name]) with
    | some left =>
      rw [hkept] at hchild
      exact hchild.append hbehind
    | none =>
      rw [hkept] at hchild
      exact hchild.append hbehind

/-- **The walk through what is left** of an entry finds the same documents but for useless ones.

**Proof sketch.** Induction on the entry. A path that is too long leads nowhere before and after;
any other path by which the walk comes leads to what it comes to. -/
lemma sameDocuments_kept (hproper : files.root.Proper)
    (huseless : ds.Useless refuses files base gone)
    {e : Entry} (he : e.Proper) {names : List String}
    (hlocate : Path.isTooLong (ds.walkPath names) = false →
      files.locate (ds.walkPath names) = .ok (.present (base ++ names) e)) :
    SameDocuments refuses files (files.without gone) (e.documents ds.suffix (ds.walkPath names))
      (((e.kept gone (base ++ names)).map
        (·.documents ds.suffix (ds.walkPath names))).getD []) := by
  induction he generalizing names with
  | file content => exact sameDocuments_file hproper huseless hlocate
  | @directory entries hnodup hnamed _ ih =>
    rw [Entry.kept, Option.map_some, Option.getD_some, Entry.documents, Entry.documents]
    cases hlong : Path.isTooLong (ds.walkPath names) with
    | true =>
      rw [if_pos rfl, if_pos rfl]
      exact SameDocuments.singleton (Files.content_of_isTooLong hlong files _)
    | false =>
      rw [if_neg Bool.false_ne_true, if_neg Bool.false_ne_true]
      refine sameDocuments_keptOf fun x hmem => ?_
      have hpath : ds.walkPath (names ++ [x.1]) = Path.join (ds.walkPath names) x.1 :=
        List.foldl_append
      have hplace : base ++ (names ++ [x.1]) = base ++ names ++ [x.1] :=
        (List.append_assoc ..).symm
      rw [← hpath, ← hplace]
      refine ih _ hmem fun hlong' => ?_
      rw [hpath] at hlong' ⊢
      rw [hplace]
      exact Files.locate_join (hlocate hlong) (hnamed _ hmem) (Entry.lookup_of_mem hnodup hmem)
        hlong'

/-! ## What a crawl finds -/

variable {entries : List (String × Entry)} {path : String} {location : List String}

/-- A directory is listed at its path. -/
lemma Dataset.listing_of_locate
    (h : files.locate path = .ok (.present location (.directory entries))) :
    listing files path = .ok entries := by
  unfold listing Files.list Files.entry
  rw [h]
  rfl

/-- The projects that can be listed, from the names of the directories in the root. -/
def Dataset.projectsNamed (ds : Dataset) (names : List String) : List Project :=
  ((names.map fun name => { id := name, path := Path.join ds.root name : Project }).filter
    fun p => !Path.isTooLong p.path).mergeSort fun p q => Text.atMost p.id q.id

/-- The projects are the directories in the root. -/
lemma Dataset.projects_eq
    (hroot : files.locate ds.root = .ok (.present base (.directory entries))) :
    ds.projects files =
      .ok (ds.projectsNamed ((entries.filter (·.2.isDirectory)).map Prod.fst)) := by
  unfold projects projectsNamed
  rw [listing_of_locate hroot, List.map_map]
  rfl

/-- **A project is a directory** to which its path leads.

**Proof sketch.** A project comes from an entry of the root that is a directory and whose path is
not too long. In a proper tree no name is listed twice, so looking the name up gives that entry, and
its path, which is that of the root and the name, leads to it. -/
lemma Dataset.exists_of_mem_projects (hproper : files.root.Proper)
    (hroot : files.locate ds.root = .ok (.present base (.directory entries))) {p : Project}
    (hp : p ∈ ds.projectsNamed ((entries.filter (·.2.isDirectory)).map Prod.fst)) :
    ∃ name inside, p = { id := name, path := ds.walkPath [name] } ∧
      Path.isTooLong p.path = false ∧ (Entry.directory inside).Proper ∧
        files.locate p.path = .ok (.present (base ++ [name]) (.directory inside)) := by
  unfold projectsNamed at hp
  obtain ⟨hmem, hlong⟩ := List.mem_filter.mp (List.mem_mergeSort.mp hp)
  rw [Bool.not_eq_true'] at hlong
  obtain ⟨name, hname, rfl⟩ := List.mem_map.mp hmem
  obtain ⟨⟨name, e⟩, hfilter, rfl⟩ := List.mem_map.mp hname
  obtain ⟨hlisted, hdirectory⟩ := List.mem_filter.mp hfilter
  cases hproper.of_at? (Files.at?_of_locate hroot) with
  | directory hnodup hnamed hbelow =>
    cases e with
    | file content => cases hdirectory
    | directory inside =>
      exact ⟨name, inside, rfl, hlong, hbelow _ hlisted, Files.locate_join hroot (hnamed _ hlisted)
        (Entry.lookup_of_mem hnodup hlisted) hlong⟩

/-- What is found in a project. -/
lemma Dataset.diffs_of_locate {p : Project} {inside : List (String × Entry)}
    (h : files.locate p.path = .ok (.present location (.directory inside))) :
    (ds.crawlUnless refuses files).diffs p =
      .ok (loadable refuses files
        ((Entry.documentsOf ds.suffix p.path inside).mergeSort Path.atMost)) := by
  change ds.diffsUnless refuses files p = _
  unfold diffsUnless documents
  rw [listing_of_locate h]
  rfl

end Walk

/-- Two crawls find the same projects, and the same in each of them. -/
structure Crawl.Agrees (crawl crawl' : Crawl) : Prop where
  projects_eq : crawl'.projects = crawl.projects
  diffs_eq : ∀ projects, crawl.projects = .ok projects → ∀ p ∈ projects,
    crawl'.diffs p = crawl.diffs p

namespace Dataset

variable {ds : Dataset} {refuses : String → Option Cause} {files : Files} {base : List String}
  {gone : List String → Bool} {entries : List (String × Entry)}

/-- **A crawl finds the same without useless files.**

**Proof sketch.** The root leads to the same directory without the useless files, in which the same
directories are listed, so the projects are the same. Each of them is found at the same place, with
what is kept of it. The documents below it are the same but for useless ones (`sameDocuments_kept`),
and so is what is loaded after sorting (`SameDocuments.loadable_eq`). -/
lemma agrees_without (hproper : files.root.Proper)
    (hroot : files.locate ds.root = .ok (.present base (.directory entries)))
    (huseless : ds.Useless refuses files base gone) :
    (ds.crawlUnless refuses files).Agrees (ds.crawlUnless refuses (files.without gone)) := by
  have hprojects := projects_eq hroot
  have hroot' : (files.without gone).locate ds.root =
      .ok (.present base (.directory (Entry.keptOf gone base entries))) :=
    Files.locate_without hproper hroot (by rw [Entry.kept])
  constructor
  · change ds.projects (files.without gone) = ds.projects files
    rw [projects_eq hroot', hprojects, Entry.directories_keptOf]
  · intro projects hfound p hp
    cases hprojects.symm.trans hfound
    obtain ⟨name, inside, rfl, hlong, hinside, hlocate⟩ := exists_of_mem_projects hproper hroot hp
    have hlocate' : (files.without gone).locate (ds.walkPath [name]) =
        .ok (.present (base ++ [name]) (.directory (Entry.keptOf gone (base ++ [name]) inside))) :=
      Files.locate_without hproper hlocate (by rw [Entry.kept])
    have hsame := sameDocuments_kept hproper huseless hinside fun _ => hlocate
    rw [Entry.kept, Option.map_some, Option.getD_some, Entry.documents, Entry.documents, hlong,
      if_neg Bool.false_ne_true, if_neg Bool.false_ne_true] at hsame
    rw [diffs_of_locate hlocate, diffs_of_locate hlocate', hsame.loadable_eq]

/-- **What a crawl finds**: all projects can be listed, and everything loaded from them is sound.

**Proof sketch.** The projects are directories to which their paths lead (`exists_of_mem_projects`),
so each of them can be listed. What is found in one is loaded from a path, unless the system refuses
to read it, and what is loaded is sound (`sound_of_loadUnless`). -/
lemma exists_found (ds : Dataset) (refuses : String → Option Cause) (hproper : files.root.Proper)
    (hroot : files.locate ds.root = .ok (.present base (.directory entries))) :
    ∃ (projects : List Project) (found : Project → List FileDiff),
      (ds.crawlUnless refuses files).projects = .ok projects ∧
      ∀ p ∈ projects, (ds.crawlUnless refuses files).diffs p = .ok (found p) ∧
        ∀ d ∈ found p, d.Sound := by
  refine ⟨_, fun p => (((ds.crawlUnless refuses files).diffs p).toOption).getD [],
    projects_eq hroot, fun p hp => ?_⟩
  obtain ⟨name, inside, rfl, -, -, hlocate⟩ := exists_of_mem_projects hproper hroot hp
  have hfound : (ds.crawlUnless refuses files).diffs { id := name, path := ds.walkPath [name] } =
      _ := diffs_of_locate hlocate
  dsimp only
  rw [hfound]
  refine ⟨rfl, fun d hd => ?_⟩
  obtain ⟨path, -, hload⟩ := List.mem_filterMap.mp hd
  cases h : loadUnless refuses files path with
  | error fault =>
    rw [h] at hload
    cases hload
  | ok d' =>
    rw [h] at hload
    cases hload
    exact sound_of_loadUnless h

end Dataset

end EditIdioms
