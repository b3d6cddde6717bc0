import EditIdioms.Proofs.Dataset.Removal
import EditIdioms.Proofs.Files.Components
import EditIdioms.Proofs.Files.Reordering

set_option relaxedAutoImplicit false
set_option autoImplicit false

/-!
# What a crawl finds

The projects of a dataset are the directories that its root lists, and the documents of a project
are the files with an accepted name at any depth below it. Both come in an order that their names
tell, so that it does not matter in which order directories list: the same names in the same order
are the same list. Documents are ordered by the names on the way to them and not by the text of
their paths, in which a slash would count as a character.

The system follows paths up to a limit. A directory with a longer path does not count as one. Among
the projects it is missing; below a project it is not entered, but no file in it could be loaded
either.

## Main definitions

* `Entry.locations` — where the files below an entry stand.
* `Dataset.Accepts`, `Dataset.Finds` — the documents of a project, in order.
* `Dataset.ListsProjects` — the projects of a dataset, in order.

## Main results

* `Entry.mem_locations`, `Entry.nodup_locations` — each file stands in one place.
* `Dataset.filter_documents` — what can be loaded of the documents that a walk comes to.
* `Dataset.Finds.unique`, `Dataset.ListsProjects.unique` — the order is told by the names.
* `Dataset.crawl_complete` — a crawl finds everything, in whatever order directories list.
-/

namespace EditIdioms

/-! ## Files below an entry -/

mutual

/-- The names that lead to the files below an entry, in the order in which directories list. -/
def Entry.locations : Entry → List (List String)
  | .file _ => [[]]
  | .directory entries => locationsIn entries

/-- The names that lead to the files below what a directory lists. -/
def Entry.locationsIn : List (String × Entry) → List (List String)
  | [] => []
  | (name, e) :: rest => e.locations.map (name :: ·) ++ locationsIn rest

end

namespace Entry

variable {e : Entry} {entries : List (String × Entry)} {names : List String}

/-- The files below a directory are those below its entries. -/
lemma locationsIn_eq (entries : List (String × Entry)) :
    locationsIn entries = entries.flatMap fun x => x.2.locations.map (x.1 :: ·) := by
  induction entries with
  | nil => rfl
  | cons x rest ih => rw [locationsIn, List.flatMap_cons, ih]

/-- **The locations are those of the files.**

**Proof sketch.** Induction on the entry. A file is at the end of no names. In a directory the first
name leads to the entry that has it, which is the only one as the names are different, and the rest
of the names leads on from there. -/
lemma mem_locations (h : e.Proper) :
    names ∈ e.locations ↔ ∃ content, e.at? names = some (.file content) := by
  induction h generalizing names with
  | file content =>
    rw [locations, List.mem_singleton]
    cases names with
    | nil => exact iff_of_true rfl ⟨content, rfl⟩
    | cons name names => exact iff_of_false nofun nofun
  | @directory entries hnodup _ _ ih =>
    rw [locations, locationsIn_eq, List.mem_flatMap]
    constructor
    · rintro ⟨x, hx, hmem⟩
      obtain ⟨below, hbelow, rfl⟩ := List.mem_map.mp hmem
      obtain ⟨content, hcontent⟩ := (ih x hx).mp hbelow
      exact ⟨content, Option.bind_eq_some_iff.mpr ⟨x.2, lookup_of_mem hnodup hx, hcontent⟩⟩
    · rintro ⟨content, hcontent⟩
      cases names with
      | nil => cases hcontent
      | cons name names =>
        obtain ⟨child, hchild, hrest⟩ := Option.bind_eq_some_iff.mp hcontent
        have hx := mem_of_lookup hchild
        exact ⟨(name, child), hx, List.mem_map.mpr ⟨names, (ih _ hx).mpr ⟨content, hrest⟩, rfl⟩⟩

/-- **No location comes twice** in a proper tree, as no directory lists a name twice. -/
lemma nodup_locations (h : e.Proper) : e.locations.Nodup := by
  induction h with
  | file content => exact List.nodup_singleton _
  | @directory entries hnodup _ _ ih =>
    rw [locations, locationsIn_eq, List.nodup_flatMap]
    refine ⟨fun x hx => (ih x hx).map fun _ _ heq => (List.cons.inj heq).2, ?_⟩
    refine (List.pairwise_map.mp hnodup).imp fun {x y} hne names hnames hnames' => hne ?_
    obtain ⟨below, -, rfl⟩ := List.mem_map.mp hnames
    obtain ⟨below', -, heq⟩ := List.mem_map.mp hnames'
    exact (List.cons.inj heq).1.symm

/-- The names that lead to a file are names that files can have. -/
lemma isEntryName_of_mem_locations (h : e.Proper) (hnames : names ∈ e.locations) :
    ∀ name ∈ names, Files.IsEntryName name := by
  obtain ⟨content, hcontent⟩ := (mem_locations h).mp hnames
  exact Files.isEntryName_of_at? h hcontent

end Entry

namespace Dataset

/-! ## Documents that a walk comes to -/

section Documents

variable {suffix path : String} {loads : String → Bool} {e : Entry} {listed : List (String × Entry)}

/-- What a directory lists, entry by entry. -/
lemma filter_documentsOf
    (h : ∀ x ∈ listed, (x.2.documents suffix (Path.join path x.1)).filter loads =
      ((x.2.locations.map (Path.walk (Path.join path x.1))).filter
        (acceptsName suffix)).filter loads) :
    (Entry.documentsOf suffix path listed).filter loads =
      (((Entry.locationsIn listed).map (Path.walk path)).filter
        (acceptsName suffix)).filter loads := by
  induction listed with
  | nil => rfl
  | cons x listed ih =>
    obtain ⟨name, e⟩ := x
    obtain ⟨hchild, hrest⟩ := List.forall_mem_cons.mp h
    have hwalk : (e.locations.map (name :: ·)).map (Path.walk path) =
        e.locations.map (Path.walk (Path.join path name)) := List.map_map
    rw [Entry.documentsOf, Entry.locationsIn, List.filter_append, hchild, ih hrest, List.map_append,
      hwalk, List.filter_append, List.filter_append]

/-- **What can be loaded** of the documents that a walk comes to is what can be loaded of the files
with an accepted name, in the order in which directories list. Nothing can be loaded by a path that
is too long.

**Proof sketch.** Induction on the entry. A directory whose path is too long counts as a document
itself and is not entered; neither it nor a file below it can be loaded. -/
lemma filter_documents (hlong : ∀ path, Path.isTooLong path = true → loads path = false)
    (h : e.Proper) (path : String) :
    (e.documents suffix path).filter loads =
      ((e.locations.map (Path.walk path)).filter (acceptsName suffix)).filter loads := by
  induction h generalizing path with
  | file content =>
    rw [Entry.documents, Entry.locations, List.map_singleton]
    change _ = ([path].filter (acceptsName suffix)).filter loads
    cases hname : acceptsName suffix path with
    | true => rw [if_pos rfl, List.filter_cons_of_pos hname, List.filter_nil]
    | false =>
      rw [if_neg Bool.false_ne_true, List.filter_cons_of_neg (by simp [hname])]
      rfl
  | @directory entries hnodup hnamed hbelow ih =>
    rw [Entry.documents]
    cases htoo : Path.isTooLong path with
    | true =>
      -- both sides are empty, since the paths below the directory are no shorter than its own
      have hnone : (if acceptsName suffix path then [path] else []).filter loads = [] := by
        refine List.filter_eq_nil_iff.mpr fun path' hmem => ?_
        split at hmem
        · obtain rfl := List.mem_singleton.mp hmem
          rw [hlong path' htoo]
          exact Bool.false_ne_true
        · cases hmem
      rw [if_pos rfl, hnone, eq_comm, List.filter_eq_nil_iff]
      intro path' hmem
      obtain ⟨names, hnames, rfl⟩ := List.mem_map.mp (List.mem_filter.mp hmem).1
      have hnamed' := Entry.isEntryName_of_mem_locations (.directory hnodup hnamed hbelow) hnames
      rw [hlong _ (Path.isTooLong_walk hnamed' htoo)]
      exact Bool.false_ne_true
    | false =>
      rw [if_neg Bool.false_ne_true]
      exact filter_documentsOf fun x hx => ih x hx (Path.join path x.1)

/-- Nothing is loaded from a file that cannot be read. -/
lemma toOption_loadDiff_of_error {files : Files} {cause : Cause}
    (h : files.content path = .error cause) : (loadDiff files path).toOption = none := by
  unfold loadDiff Files.text
  rw [h]
  rfl

/-- Nothing is loaded by a path that is too long. -/
lemma toOption_loadDiff_of_isTooLong {files : Files} (h : Path.isTooLong path = true) :
    (loadDiff files path).toOption = none := by
  have hcontent : ∃ cause, files.content path = .error cause := by
    unfold Files.content Files.entry Files.locate Files.locatePieces
    rw [if_pos h]
    split
    · exact ⟨_, rfl⟩
    · split <;> exact ⟨_, rfl⟩
  obtain ⟨cause, hcause⟩ := hcontent
  exact toOption_loadDiff_of_error hcause

end Documents

/-! ## Documents in order -/

/-- The names lead to a file in a project, and the last of them is accepted. -/
def Accepts (ds : Dataset) (inside : List (String × Entry)) (names : List String) : Prop :=
  (∃ content, (Entry.directory inside).at? names = some (.file content)) ∧
    ∃ name, names.getLast? = some name ∧ acceptsName ds.suffix name = true

/-- The names of all documents of a project, each once, in the order of their names. -/
structure Finds (ds : Dataset) (inside : List (String × Entry)) (found : List (List String)) :
    Prop where
  mem_iff : ∀ names, names ∈ found ↔ ds.Accepts inside names
  ascending : found.Pairwise fun names names' => Path.namesAtMost names' names = false

/-- The names of the documents of a project, in the order in which directories list. -/
def located (ds : Dataset) (inside : List (String × Entry)) : List (List String) :=
  (Entry.directory inside).locations.filter fun names =>
    names.getLast?.any (acceptsName ds.suffix)

section Found

variable {ds : Dataset} {files : Files} {path : String} {location names : List String}
  {inside inside' : List (String × Entry)}

/-- The documents are told by their names. -/
lemma Finds.unique {found found' : List (List String)} (h : ds.Finds inside found)
    (h' : ds.Finds inside' found')
    (hsame : ∀ names, ds.Accepts inside names ↔ ds.Accepts inside' names) : found = found' := by
  refine eq_of_ascending Path.namesAtMost_total h.ascending h'.ascending fun names => ?_
  rw [h.mem_iff, h'.mem_iff, hsame]

/-- What is located are the files with an accepted name. -/
lemma mem_located (h : (Entry.directory inside).Proper) :
    names ∈ ds.located inside ↔ ds.Accepts inside names := by
  rw [located, List.mem_filter, Entry.mem_locations h, Option.any_eq_true]
  exact Iff.rfl

/-- **The located documents find all of a project** when they are sorted. -/
lemma finds_located (h : (Entry.directory inside).Proper) :
    ds.Finds inside ((ds.located inside).mergeSort Path.namesAtMost) where
  mem_iff names := by rw [List.mem_mergeSort, mem_located h]
  ascending := by
    refine ascending_mergeSort id Path.namesAtMost_trans Path.namesAtMost_total
      Path.namesAtMost_antisymm ?_
    rw [List.map_id]
    exact (Entry.nodup_locations h).filter _

/-- The paths of files with an accepted name are those of what is located. -/
lemma filter_acceptsName_walk (h : (Entry.directory inside).Proper) (hpath : path ≠ "") :
    (((Entry.directory inside).locations.map (Path.walk path)).filter (acceptsName ds.suffix)) =
      (ds.located inside).map (Path.walk path) := by
  rw [List.filter_map, located]
  refine congrArg _ (List.filter_congr fun names hmem => ?_)
  obtain ⟨content, hcontent⟩ := (Entry.mem_locations h).mp hmem
  have hnames := Files.isEntryName_of_at? h hcontent
  cases hlast : names.getLast? with
  | none =>
    rw [List.getLast?_eq_none_iff] at hlast
    subst hlast
    cases hcontent
  | some name =>
    have hname := hnames name (List.mem_of_getLast? hlast)
    rw [Function.comp_apply, Option.any_some, acceptsName, acceptsName,
      Path.fileName?_walk hpath hnames hlast, Path.fileName?_of_isEntryName hname]

/-- The paths of what is located are in the order of the names. -/
lemma mergeSort_map_walk (h : (Entry.directory inside).Proper) (hpath : path ≠ "") :
    ((ds.located inside).map (Path.walk path)).mergeSort Path.atMost =
      ((ds.located inside).mergeSort Path.namesAtMost).map (Path.walk path) := by
  refine (List.map_mergeSort fun names hnames names' hnames' => ?_).symm
  exact (Path.atMost_walk hpath
    (Entry.isEntryName_of_mem_locations h (List.mem_filter.mp hnames).1)
    (Entry.isEntryName_of_mem_locations h (List.mem_filter.mp hnames').1)).symm

/-- **The documents of a project** are loaded one after the other, in the order of their names.

**Proof sketch.** The walk gives paths in the order in which directories list their entries, and
among them those of directories that are too far below to be looked into. None of the latter can be
loaded, so of the walk and of the located files the same documents are loaded
(`SameDocuments.loadable_eq`). Sorting the paths is sorting the names that lead to them
(`mergeSort_map_walk`). -/
lemma diffs_eq {p : Project} (h : (Entry.directory inside).Proper)
    (hlocate : files.locate p.path = .ok (.present location (.directory inside))) :
    ds.diffs files p = .ok (((ds.located inside).mergeSort Path.namesAtMost).filterMap fun names =>
      (loadDiff files (Path.walk p.path names)).toOption) := by
  obtain ⟨hpath, -, hshort, -⟩ := Files.locate_eq_ok_iff.mp hlocate
  have hdocuments : (Entry.directory inside).documents ds.suffix p.path =
      Entry.documentsOf ds.suffix p.path inside := by
    rw [Entry.documents, hshort, if_neg Bool.false_ne_true]
  have hsame : SameDocuments (fun _ => none) files files
      ((ds.located inside).map (Path.walk p.path))
      (Entry.documentsOf ds.suffix p.path inside) := by
    refine ⟨?_, fun _ _ => rfl⟩
    rw [← hdocuments, ← filter_acceptsName_walk h hpath]
    refine filter_documents (fun path htoo => ?_) h p.path
    change (loadDiff files path).toOption.isSome = false
    rw [toOption_loadDiff_of_isTooLong htoo]
    rfl
  have hdiffs : ds.diffs files p = _ := diffs_of_locate hlocate
  rw [hdiffs, hsame.loadable_eq, mergeSort_map_walk h hpath, loadable, List.filterMap_map]
  rfl

end Found

/-! ## Projects in order -/

/-- The projects of a dataset whose root lists the entries, each once, by name. -/
structure ListsProjects (ds : Dataset) (entries : List (String × Entry))
    (projects : List Project) : Prop where
  mem_iff : ∀ p, p ∈ projects ↔ p.path = Path.join ds.root p.id ∧
    Path.isTooLong p.path = false ∧ ∃ inside, (p.id, Entry.directory inside) ∈ entries
  ascending : projects.Pairwise fun p q => Text.atMost q.id p.id = false

section Projects

variable {ds : Dataset} {entries entries' : List (String × Entry)}

/-- The projects are told by their names. -/
lemma ListsProjects.unique {projects projects' : List Project}
    (h : ds.ListsProjects entries projects) (h' : ds.ListsProjects entries' projects')
    (hsame : ∀ name, (∃ inside, (name, Entry.directory inside) ∈ entries) ↔
      ∃ inside, (name, Entry.directory inside) ∈ entries') : projects = projects' := by
  refine eq_of_ascending (fun p q => Text.atMost_total p.id q.id) h.ascending h'.ascending
    fun p => ?_
  rw [h.mem_iff, h'.mem_iff, hsame]

/-- The names of the directories among entries. -/
lemma mem_directories {name : String} :
    name ∈ (entries.filter (·.2.isDirectory)).map Prod.fst ↔
      ∃ inside, (name, Entry.directory inside) ∈ entries := by
  rw [List.mem_map]
  constructor
  · rintro ⟨⟨_, e⟩, hmem, rfl⟩
    obtain ⟨hlisted, hdirectory⟩ := List.mem_filter.mp hmem
    cases e with
    | file content => cases hdirectory
    | directory inside => exact ⟨inside, hlisted⟩
  · rintro ⟨inside, hmem⟩
    exact ⟨_, List.mem_filter.mpr ⟨hmem, rfl⟩, rfl⟩

/-- **The projects of a dataset** are listed by name.

**Proof sketch.** Sorting and filtering keep the members: they are the directories whose paths are
not too long. The names in a directory are all different, and so are those of the directories among
them, so the sorted list ascends strictly. -/
lemma listsProjects (h : (Entry.directory entries).Proper) : ds.ListsProjects entries
    (ds.projectsNamed ((entries.filter (·.2.isDirectory)).map Prod.fst)) where
  mem_iff p := by
    rw [projectsNamed, List.mem_mergeSort, List.mem_filter, Bool.not_eq_true', List.mem_map]
    constructor
    · rintro ⟨⟨name, hname, rfl⟩, hlong⟩
      exact ⟨rfl, hlong, mem_directories.mp hname⟩
    · rintro ⟨hpath, hlong, hinside⟩
      refine ⟨⟨p.id, mem_directories.mpr hinside, ?_⟩, hlong⟩
      rw [← hpath]
  ascending := by
    refine ascending_mergeSort Project.id (fun p q r => Text.atMost_trans p.id q.id r.id)
      (fun p q => Text.atMost_total p.id q.id) (fun p q => Text.atMost_antisymm p.id q.id) ?_
    cases h with
    | directory hnodup _ _ =>
      have hnames : ((entries.filter (·.2.isDirectory)).map Prod.fst).Nodup :=
        hnodup.sublist (List.filter_sublist.map _)
      refine List.Nodup.sublist (List.filter_sublist.map _) ?_
      rw [List.map_map]
      change (List.map id _).Nodup
      rwa [List.map_id]

end Projects

end Dataset

/-! ## Other orders -/

/-- The same directories are listed in another order. -/
lemma Entry.Reordered.exists_directory_iff {entries entries' : List (String × Entry)}
    (h : (Entry.directory entries).Reordered (.directory entries')) (name : String) :
    (∃ inside, (name, Entry.directory inside) ∈ entries) ↔
      ∃ inside, (name, Entry.directory inside) ∈ entries' := by
  have honeway : ∀ {entries entries' : List (String × Entry)},
      (Entry.directory entries).Reordered (.directory entries') →
        (∃ inside, (name, Entry.directory inside) ∈ entries) →
          ∃ inside, (name, Entry.directory inside) ∈ entries' := by
    rintro entries entries' h ⟨inside, hmem⟩
    cases h with
    | directory hnames hbelow =>
      obtain ⟨e', he'⟩ := exists_of_mem hnames hmem
      cases hbelow hmem he' with
      | directory => exact ⟨_, he'⟩
  exact ⟨honeway h, honeway h.symm⟩

/-- The same is loaded when directories list in another order. -/
lemma Files.Reordered.toOption_loadDiff {files files' : Files} (h : files.Reordered files')
    (path : String) : (loadDiff files' path).toOption = (loadDiff files path).toOption := by
  cases hcontent : files.content path with
  | ok content =>
    have hsame : loadUnless (fun _ => none) files' path = loadUnless (fun _ => none) files path :=
      loadUnless_congr ((h.content_eq hcontent).trans hcontent.symm)
    exact congrArg _ hsame
  | error cause =>
    rw [Dataset.toOption_loadDiff_of_error hcontent]
    cases hcontent' : files'.content path with
    | ok content =>
      rw [h.symm.content_eq hcontent'] at hcontent
      cases hcontent
    | error cause' => exact Dataset.toOption_loadDiff_of_error hcontent'

namespace Dataset

variable {ds : Dataset} {files files' : Files} {p : Project} {base location : List String}
  {entries inside : List (String × Entry)}

/-- The projects are the same when directories list in another order. -/
lemma projects_eq_of_reordered (hproper : files.root.Proper) (hsame : files.Reordered files')
    (hroot : files.locate ds.root = .ok (.present base (.directory entries))) :
    ds.projects files' = ds.projects files := by
  have hentries : (Entry.directory entries).Proper := hproper.of_at? (Files.at?_of_locate hroot)
  obtain ⟨e', hroot', hreordered⟩ := hsame.locate hroot
  cases hreordered with
  | @directory _ entries' hnames hbelow =>
    have hlisted : (Entry.directory entries).Reordered (.directory entries') :=
      .directory hnames hbelow
    rw [projects_eq hroot, projects_eq hroot']
    exact congrArg _ ((listsProjects (hlisted.proper hentries)).unique
      (listsProjects hentries) fun name => (hlisted.exists_directory_iff name).symm)

/-- The documents of a project are the same when directories list in another order.

**Proof sketch.** The directory of the project is found again with its contents in another order,
and it is a proper one too. The sorted list of what is located in it has the files with an accepted
name as its members, which are the same in any order, and a sorted list is told by its members. Each
of them loads to the same (`Files.Reordered.toOption_loadDiff`). -/
lemma diffs_eq_of_reordered (hproper : files.root.Proper) (hsame : files.Reordered files')
    (hlocate : files.locate p.path = .ok (.present location (.directory inside))) :
    ds.diffs files' p = ds.diffs files p := by
  have hinside : (Entry.directory inside).Proper := hproper.of_at? (Files.at?_of_locate hlocate)
  obtain ⟨e', hlocate', hreordered⟩ := hsame.locate hlocate
  cases hreordered with
  | @directory _ inside' hnames hbelow =>
    have hlisted : (Entry.directory inside).Reordered (.directory inside') :=
      .directory hnames hbelow
    have hinside' := hlisted.proper hinside
    have hsorted : ds.Finds inside ((ds.located inside).mergeSort Path.namesAtMost) :=
      finds_located hinside
    have hfound := (finds_located hinside').unique hsorted fun names =>
      and_congr_left fun _ => exists_congr fun content => hlisted.at?_file_iff.symm
    rw [diffs_eq hinside hlocate, diffs_eq hinside' hlocate', hfound]
    simp only [hsame.toOption_loadDiff]

/-- **A crawl is complete**, and does not depend on the order in which directories list. The
projects are the directories in the root whose paths are not too long, each once and by name, and a
project is where its path leads. From any directory, whichever path leads to it, exactly the files
with an accepted name at any depth are loaded, each once and in the order of the names on the way to
them, and those that cannot be loaded are left out. Each file is read at its path, unless that is
too long. When the same files are listed in another order, the same is found.

**Proof sketch.** A walk comes to the files in the order in which directories list, and passes over
none that could be loaded (`filter_documents`). The order of the paths is that of the names
(`mergeSort_map_walk`). What is found is told by its members and its order (`Finds.unique`,
`ListsProjects.unique`), and the members do not depend on how directories list. -/
theorem crawl_complete (hproper : files.root.Proper)
    (hroot : files.locate ds.root = .ok (.present base (.directory entries))) :
    (∃ projects, ds.projects files = .ok projects ∧ ds.ListsProjects entries projects ∧
      ∀ p ∈ projects, ∃ inside, (p.id, Entry.directory inside) ∈ entries ∧
        files.locate p.path = .ok (.present (base ++ [p.id]) (.directory inside))) ∧
    (∀ (p : Project) (location : List String) (inside : List (String × Entry)),
      files.locate p.path = .ok (.present location (.directory inside)) →
        (∃ found, ds.Finds inside found ∧ ds.diffs files p = .ok (found.filterMap fun names =>
          (loadDiff files (Path.walk p.path names)).toOption)) ∧
        ∀ names content, (Entry.directory inside).at? names = some (.file content) →
          Path.isTooLong (Path.walk p.path names) = false →
            files.content (Path.walk p.path names) = .ok content) ∧
    ∀ files', files.Reordered files' → ds.projects files' = ds.projects files ∧
      ∀ (p : Project) (location : List String) (inside : List (String × Entry)),
        files.locate p.path = .ok (.present location (.directory inside)) →
          ds.diffs files' p = ds.diffs files p := by
  have hentries : (Entry.directory entries).Proper := hproper.of_at? (Files.at?_of_locate hroot)
  refine ⟨⟨_, projects_eq hroot, listsProjects hentries, fun p hp => ?_⟩,
    fun p location inside hlocate => ?_, fun files' hsame =>
      ⟨projects_eq_of_reordered hproper hsame hroot,
        fun p location inside => diffs_eq_of_reordered hproper hsame⟩⟩
  · obtain ⟨name, inside, rfl, -, -, hlocate⟩ := exists_of_mem_projects hproper hroot hp
    have hat := Entry.at?_append_singleton (Files.at?_of_locate hroot) name
    rw [Files.at?_of_locate hlocate] at hat
    exact ⟨inside, Entry.mem_of_lookup hat.symm, hlocate⟩
  · have hinside : (Entry.directory inside).Proper := hproper.of_at? (Files.at?_of_locate hlocate)
    refine ⟨⟨_, finds_located hinside, diffs_eq hinside hlocate⟩, fun names content hat hlong => ?_⟩
    exact Files.Holds.content_eq (Files.locate_walk hinside hlocate hat hlong)

/-- A root with two projects and a file, and a project with a directory that has an accepted name.
The document in `a` comes before the one in `a.b`, though a dot comes before a slash. It is the same
when the directories list the other way around. -/
theorem crawl_complete_backward :
    let document : Entry := .file (Text.bytes
      "\x7b\"before\":\x7b\"nodes\":[]\x7d,\"after\":\x7b\"nodes\":[]\x7d,\"operations\":[]\x7d")
    let inside : List (String × Entry) := [("a.b", .directory [("x.json", document)]),
      ("z.json", .directory [("y.JSON", document), ("n.txt", document)]),
      ("a", .directory [("x.json", document)])]
    let entries : List (String × Entry) :=
      [("q", .directory []), ("note.json", document), ("p", .directory inside)]
    let entries' : List (String × Entry) :=
      [("p", .directory inside.reverse), ("note.json", document), ("q", .directory [])]
    let files : Files := { root := .directory [("data", .directory entries)] }
    let files' : Files := { root := .directory [("data", .directory entries')] }
    let ds : Dataset := { root := "data", suffix := ".json" }
    let p : Project := { id := "p", path := "data/p" }
    (files.root.Proper ∧ files.locate ds.root = .ok (.present ["data"] (.directory entries)) ∧
      files.locate p.path = .ok (.present ["data", "p"] (.directory inside)) ∧
      files.Reordered files') ∧
    (∃ projects, ds.projects files = .ok projects ∧ ds.projects files' = .ok projects ∧
      p ∈ projects) ∧
    ds.Finds inside [["a", "x.json"], ["a.b", "x.json"], ["z.json", "y.JSON"]] ∧
    (ds.diffs files p).toOption.map (·.map (·.path)) =
      some ["data/p/a/x.json", "data/p/a.b/x.json", "data/p/z.json/y.JSON"] ∧
    ds.diffs files' p = ds.diffs files p := by
  intro document inside entries entries' files files' ds p
  have hproper : files.root.Proper := by decide +kernel
  have hroot : files.locate ds.root = .ok (.present ["data"] (.directory entries)) :=
    Files.locate_name rfl (by decide +kernel) rfl
  have hpath : files.locate p.path = .ok (.present ["data", "p"] (.directory inside)) := by
    rw [show p.path = Path.join ds.root "p" by decide +kernel]
    exact Files.locate_join hroot (by decide +kernel) rfl (by decide +kernel)
  have hinside : (Entry.directory inside).Proper := hproper.of_at? (Files.at?_of_locate hpath)
  have hlisted : (Entry.directory entries).Reordered (.directory entries') := by
    refine .of_forall (by decide) (by decide) ?_
    simp only [entries, List.forall_mem_cons]
    exact ⟨⟨_, List.mem_cons_of_mem _ (List.mem_cons_of_mem _ List.mem_cons_self),
        .refl (by decide)⟩,
      ⟨_, List.mem_cons_of_mem _ List.mem_cons_self, .file _⟩,
      ⟨_, List.mem_cons_self, .of_perm hinside (List.reverse_perm inside).symm⟩,
      List.forall_mem_nil _⟩
  have hreordered : files.Reordered files' := by
    refine ⟨.of_forall (List.nodup_singleton _) (.refl _) ?_, rfl⟩
    exact List.forall_mem_singleton.mpr ⟨_, List.mem_singleton_self _, hlisted⟩
  obtain ⟨⟨projects, hprojects, hall, -⟩, hdiffs, horder⟩ :=
    @crawl_complete ds files _ _ hproper hroot
  obtain ⟨⟨found, hfound, hloaded⟩, -⟩ := hdiffs p _ _ hpath
  obtain ⟨hprojects', hsame⟩ := horder files' hreordered
  have hp : p ∈ projects :=
    (hall.mem_iff p).mpr ⟨by decide +kernel, by decide +kernel, inside, by simp [entries, p]⟩
  have hnames : ds.Finds inside [["a", "x.json"], ["a.b", "x.json"], ["z.json", "y.JSON"]] := by
    have hperm : [["a", "x.json"], ["a.b", "x.json"], ["z.json", "y.JSON"]].Perm
        (ds.located inside) := by decide +kernel
    refine ⟨fun names => ?_, by decide +kernel⟩
    rw [← mem_located hinside, hperm.mem_iff]
  refine ⟨⟨hproper, hroot, hpath, hreordered⟩,
    ⟨projects, hprojects, hprojects'.trans hprojects, hp⟩, hnames, ?_, hsame p _ _ hpath⟩
  rw [hloaded, hfound.unique hnames fun _ => Iff.rfl]
  decide +kernel

/-- A project whose path is too long is not among the projects. The path of the root is as long as a
path can be, most of it slashes, so that no directory in it has a path that the system follows. -/
theorem crawl_passes_over_long :
    let entries : List (String × Entry) := [("project", .directory [])]
    let files : Files := { root := .directory [("data", .directory entries)] }
    let ds : Dataset :=
      { root := "data" ++ String.ofList (List.replicate 4091 '/'), suffix := ".diff.json" }
    files.root.Proper ∧ files.locate ds.root = .ok (.present ["data"] (.directory entries)) ∧
      ds.projects files = .ok [] := by
  intro entries files ds
  have hlength : ds.root.utf8ByteSize = 4095 := by
    rw [String.utf8ByteSize_append, Files.utf8ByteSize_slashes]
    rfl
  have hroot : files.locate ds.root = .ok (.present ["data"] (.directory entries)) := by
    refine Files.locate_slashes (Files.locate_name rfl (by decide +kernel) rfl) ?_
    rw [Path.isTooLong, hlength]
    rfl
  have hlong : Path.isTooLong (Path.join ds.root "project") = true := by
    have hname : '/' ∉ "project".toList := by decide +kernel
    have hsize : 4095 + 7 ≤ (Path.join ds.root "project").utf8ByteSize :=
      hlength ▸ Path.utf8ByteSize_le_join hname
    rw [Path.isTooLong, Path.limit, decide_eq_true_eq]
    omega
  refine ⟨by decide +kernel, hroot, ?_⟩
  rw [projects_eq hroot]
  change Except.ok (([Project.mk "project" (Path.join ds.root "project")].filter fun p =>
    !Path.isTooLong p.path).mergeSort _) = _
  rw [List.filter_cons_of_neg (by simp [hlong]), List.filter_nil, List.mergeSort_nil]

end Dataset

end EditIdioms
