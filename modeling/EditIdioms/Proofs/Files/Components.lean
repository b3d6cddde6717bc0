import EditIdioms.Proofs.Files.Walk
import EditIdioms.Proofs.Text.Order

set_option relaxedAutoImplicit false
set_option autoImplicit false

/-!
# The components of the paths of a walk

A walk puts names behind the path of the directory where it starts. The names are the last
components of the paths that it comes to, whatever the start looks like: a slash at its end and dots
in it do not count. So two such paths are in the order of the names behind the start, and which file
names are accepted can be told from the names alone.

## Main definitions

* `Path.walk` — the path of a place below a directory.

## Main results

* `Path.components_walk` — the components of such a path.
* `Path.atMost_walk` — the order of such paths.
* `Path.fileName?_walk` — the file name of such a path.
* `Files.locate_walk` — where they lead.
* `Files.locate_slashes` — slashes at the end of the path of a directory.
-/

namespace EditIdioms

namespace Path

open EditIdioms.Files

variable {path base name : String} {names : List String}

/-! ## Components -/

/-- The components of an absolute path. -/
lemma components_of_absolute (h : isAbsolute path = true) :
    components path = top :: (pieces path).filter fun piece => piece ≠ "" && piece ≠ "." := by
  rw [components, if_pos h]

/-- The components of a relative path. Its first piece counts even if it is a dot. -/
lemma components_of_relative (h : isAbsolute path = false) {first : String} {rest : List String}
    (hpieces : pieces path = first :: rest) :
    components path = (if first = "" then [] else [first]) ++
      rest.filter fun piece => piece ≠ "" && piece ≠ "." := by
  rw [components, if_neg (by simp [h]), hpieces]
  by_cases hdot : first = "."
  · subst hdot
    rfl
  · split
    · rename_i heq
      exact absurd (List.cons.inj heq).1 hdot
    · by_cases hempty : first = ""
      · simp [hempty]
      · simp [hempty, hdot]

/-- Only the empty path has a single piece that is empty. -/
lemma eq_empty_of_pieces (h : pieces path = [""]) : path = "" := by
  rw [← String.toList_eq_nil_iff]
  unfold pieces at h
  cases hpath : path.toList with
  | nil => rfl
  | cons c cs =>
    rw [hpath] at h
    by_cases hc : c = '/'
    · rw [hc, split_cons_slash, List.map_cons, List.cons.injEq, List.map_eq_nil_iff] at h
      exact absurd h.2 (split_ne_nil cs)
    · obtain ⟨piece, rest, hsplit⟩ := List.exists_cons_of_ne_nil (split_ne_nil cs)
      rw [split_cons_of_ne hc hsplit, List.map_cons, List.cons.injEq,
        String.ofList_eq_empty_iff] at h
      exact absurd h.1 (List.cons_ne_nil c piece)

/-- **The last component of a path below a directory** is the name there, and the others are those
of the directory.

**Proof sketch.** The pieces of the joined path are those of the directory, less an empty one at the
end, and the name (`pieces_join`). Components leave out empty pieces and dots, and the name is
neither, so it is the last one. In a relative path a dot in the first place counts; the first piece
is the same on both sides, as the directory has one. -/
lemma components_join (hbase : base ≠ "") (hname : IsEntryName name) :
    components (join base name) = components base ++ [name] := by
  obtain ⟨⟨hempty, hdot, -, -⟩, hslash, -⟩ := hname
  have habsolute := isAbsolute_join hbase hslash
  obtain ⟨front, hfront, hpieces⟩ := pieces_join hbase hslash
  cases hstart : isAbsolute base with
  | true =>
    rw [hstart] at habsolute
    rw [components_of_absolute habsolute, components_of_absolute hstart, hpieces]
    rcases hfront with hfront | hfront <;> simp [hfront, hempty, hdot]
  | false =>
    -- the first piece stays the first one, so that it counts the same on both sides
    rw [hstart] at habsolute
    cases front with
    | nil =>
      rcases hfront with hfront | hfront
      · exact absurd hfront (pieces_ne_nil base)
      · exact absurd (eq_empty_of_pieces hfront) hbase
    | cons first rest =>
      rw [components_of_relative habsolute hpieces]
      rcases hfront with hfront | hfront <;>
        simp [components_of_relative hstart hfront, hempty, hdot]

/-- The file name of a path below a directory is the name there. -/
lemma fileName?_join (hbase : base ≠ "") (hname : IsEntryName name) :
    fileName? (join base name) = some name := by
  have htop : name ≠ top := by
    rintro rfl
    exact hname.slashless (by decide)
  rw [fileName?, components_join hbase hname, List.getLast?_concat, Option.filter_some]
  simp [htop, hname.isName.2.1, hname.isName.2.2.1]

/-- The file name of a name is the name. -/
lemma fileName?_of_isEntryName (hname : IsEntryName name) : fileName? name = some name := by
  obtain ⟨⟨hempty, hdot, hdots, -⟩, hslash, -⟩ := hname
  have htop : name ≠ top := by
    rintro rfl
    exact hslash (by decide)
  rw [fileName?, components_of_relative (isAbsolute_of_notMem hslash) (pieces_of_notMem hslash),
    if_neg hempty]
  simp [htop, hdot, hdots]

/-! ## Walks -/

/-- The path by which a walk comes to where the names lead from the directory at a path on. -/
def walk (path : String) (names : List String) : String := names.foldl join path

/-- The walk goes on with one more name. -/
lemma walk_append_singleton (path : String) (names : List String) (name : String) :
    walk path (names ++ [name]) = join (walk path names) name := List.foldl_append

/-- The path of a walk is not empty. -/
lemma walk_ne_empty (hpath : path ≠ "") (hnames : ∀ name ∈ names, IsEntryName name) :
    walk path names ≠ "" := by
  induction names generalizing path with
  | nil => exact hpath
  | cons name names ih =>
    obtain ⟨hname, hrest⟩ := List.forall_mem_cons.mp hnames
    exact ih (join_ne_empty hpath hname.slashless) hrest

/-- **The components of the path of a walk** end with the names. -/
lemma components_walk (hpath : path ≠ "") (hnames : ∀ name ∈ names, IsEntryName name) :
    components (walk path names) = components path ++ names := by
  induction names generalizing path with
  | nil => rw [List.append_nil]; rfl
  | cons name names ih =>
    obtain ⟨hname, hrest⟩ := List.forall_mem_cons.mp hnames
    rw [walk, List.foldl_cons, ← walk, ih (join_ne_empty hpath hname.slashless) hrest,
      components_join hpath hname, List.append_assoc, List.singleton_append]

/-- **The paths of a walk are in the order of the names.** -/
lemma atMost_walk {names' : List String} (hpath : path ≠ "")
    (hnames : ∀ name ∈ names, IsEntryName name) (hnames' : ∀ name ∈ names', IsEntryName name) :
    atMost (walk path names) (walk path names') = namesAtMost names names' := by
  change namesAtMost (components (walk path names)) (components (walk path names')) = _
  rw [components_walk hpath hnames, components_walk hpath hnames', namesAtMost_append_left]

/-- A path below another one has all the bytes of that one and of the name. -/
lemma utf8ByteSize_le_join (hname : '/' ∉ name.toList) :
    base.utf8ByteSize + name.utf8ByteSize ≤ (join base name).utf8ByteSize := by
  unfold join
  rw [isAbsolute_of_notMem hname, if_neg Bool.false_ne_true]
  split
  · exact Nat.le_of_eq String.utf8ByteSize_append.symm
  · rw [String.utf8ByteSize_append, String.utf8ByteSize_append]
    omega

/-- A path below one that is too long is too long. -/
lemma isTooLong_join (hname : '/' ∉ name.toList) (h : isTooLong base = true) :
    isTooLong (join base name) = true := by
  unfold isTooLong at h ⊢
  rw [decide_eq_true_eq] at h ⊢
  have hsize : base.utf8ByteSize + name.utf8ByteSize ≤ (join base name).utf8ByteSize :=
    utf8ByteSize_le_join hname
  omega

/-- A walk does not make a path shorter. -/
lemma isTooLong_walk (hnames : ∀ name ∈ names, IsEntryName name) (h : isTooLong path = true) :
    isTooLong (walk path names) = true := by
  induction names generalizing path with
  | nil => exact h
  | cons name names ih =>
    obtain ⟨hname, hrest⟩ := List.forall_mem_cons.mp hnames
    exact ih hrest (isTooLong_join hname.slashless h)

/-- **The file name of the path of a walk** is the last name. -/
lemma fileName?_walk (hpath : path ≠ "") (hnames : ∀ name ∈ names, IsEntryName name)
    (hlast : names.getLast? = some name) : fileName? (walk path names) = some name := by
  obtain ⟨front, rfl⟩ := List.getLast?_eq_some_iff.mp hlast
  rw [List.forall_mem_append, List.forall_mem_singleton] at hnames
  rw [walk_append_singleton, fileName?_join (walk_ne_empty hpath hnames.1) hnames.2]

end Path

namespace Files

variable {files : Files} {path : String} {location names : List String}
  {entries : List (String × Entry)} {e : Entry}

/-- The names that lead somewhere in a proper tree are names that files can have. -/
lemma isEntryName_of_at? {root : Entry} (hroot : root.Proper) (h : root.at? names = some e) :
    ∀ name ∈ names, IsEntryName name := by
  induction names generalizing root with
  | nil => exact List.forall_mem_nil _
  | cons first names ih =>
    obtain ⟨child, hchild, hrest⟩ := Option.bind_eq_some_iff.mp h
    cases hroot with
    | file content => cases hchild
    | directory _ hnamed hbelow =>
      have hmem := Entry.mem_of_lookup hchild
      exact List.forall_mem_cons.mpr ⟨hnamed _ hmem, ih (hbelow _ hmem) hrest⟩

/-- **The path of a walk leads where the names do**, unless it is too long.

**Proof sketch.** Induction on the names. The path with the first name is no longer than the whole
one, so it is not too long either (`isTooLong_walk`), and it leads to what the directory has under
that name (`locate_join`). If that is a directory, the walk goes on from there. If it is a file,
there are no more names. -/
lemma locate_walk (hproper : (Entry.directory entries).Proper)
    (hpath : files.locate path = .ok (.present location (.directory entries)))
    (h : (Entry.directory entries).at? names = some e)
    (hlong : Path.isTooLong (Path.walk path names) = false) :
    files.locate (Path.walk path names) = .ok (.present (location ++ names) e) := by
  induction names generalizing path location entries with
  | nil =>
    cases h
    rwa [List.append_nil]
  | cons name names ih =>
    have hnames := isEntryName_of_at? hproper h
    obtain ⟨child, hchild, hrest⟩ := Option.bind_eq_some_iff.mp h
    obtain ⟨hname, hbehind⟩ := List.forall_mem_cons.mp hnames
    have hshort : Path.isTooLong (Path.join path name) = false := by
      rw [← Bool.not_eq_true]
      intro htoo
      rw [Path.walk, List.foldl_cons, ← Path.walk, Path.isTooLong_walk hbehind htoo] at hlong
      cases hlong
    have hjoin := locate_join hpath hname hchild hshort
    have hplace : location ++ name :: names = location ++ [name] ++ names := by
      rw [List.append_assoc, List.singleton_append]
    rw [hplace]
    cases child with
    | directory inside =>
      have hinside : (Entry.directory inside).Proper :=
        hproper.of_at? (l := [name]) (Option.bind_eq_some_iff.mpr ⟨_, hchild, rfl⟩)
      exact ih hinside hjoin hrest hlong
    | file content =>
      cases names with
      | nil =>
        cases hrest
        rwa [List.append_nil]
      | cons next names => cases hrest

/-! ## Slashes at the end -/

/-- The pieces of a path with slashes at its end. -/
lemma pieces_slashes (path : String) (n : ℕ) :
    Path.pieces (path ++ String.ofList (List.replicate n '/')) =
      Path.pieces path ++ List.replicate n "" := by
  have halone : ∀ n, Path.split (List.replicate n '/') = List.replicate (n + 1) [] := by
    intro n
    induction n with
    | zero => rfl
    | succ n ih => rw [List.replicate_succ, Path.split_cons_slash, ih, ← List.replicate_succ]
  unfold Path.pieces
  rw [String.toList_append, String.toList_ofList]
  cases n with
  | zero => rw [List.replicate_zero, List.replicate_zero, List.append_nil, List.append_nil]
  | succ n =>
    rw [List.replicate_succ, Path.split_append_slash, halone, List.map_append, List.map_replicate]

/-- Empty pieces stay in a directory. -/
lemma follow_replicate_empty {root : Entry} (h : root.at? location = some (.directory entries))
    (n : ℕ) : follow root location (List.replicate n "") =
      .ok (.present location (.directory entries)) := by
  induction n with
  | zero => rw [List.replicate_zero, follow, h]
  | succ n ih => rw [List.replicate_succ, follow_of_leads h (.stay (.inl rfl)), ih]

/-- **Slashes at the end of the path of a directory** make it longer, and lead nowhere else.

**Proof sketch.** The longer path starts where the shorter one starts, as that is not empty, and has
no NUL either. Its pieces are those of the shorter one and an empty piece for each slash, and an
empty piece stays at a directory. -/
lemma locate_slashes (h : files.locate path = .ok (.present location (.directory entries))) {n : ℕ}
    (hlong : Path.isTooLong (path ++ String.ofList (List.replicate n '/')) = false) :
    files.locate (path ++ String.ofList (List.replicate n '/')) =
      .ok (.present location (.directory entries)) := by
  obtain ⟨hpath, hnul, -, hfollow⟩ := locate_eq_ok_iff.mp h
  have hne : path.toList ≠ [] := fun hnil => hpath (String.toList_eq_nil_iff.mp hnil)
  have habsolute : Path.isAbsolute (path ++ String.ofList (List.replicate n '/')) =
      Path.isAbsolute path := by
    unfold Path.isAbsolute
    rw [String.toList_append, List.head?_append_of_ne_nil _ hne]
  refine locate_eq_ok_iff.mpr ⟨fun hempty => ?_, ?_, hlong, ?_⟩
  · exact hpath (String.append_eq_empty_iff.mp hempty).1
  · rw [String.toList_append, String.toList_ofList, List.mem_append, List.mem_replicate, not_or]
    exact ⟨hnul, by simp⟩
  · rw [habsolute, pieces_slashes, follow_append hfollow, follow_replicate_empty]
    exact at?_of_locate h

/-- Slashes are as many bytes long as there are slashes. -/
lemma utf8ByteSize_slashes (n : ℕ) : (String.ofList (List.replicate n '/')).utf8ByteSize = n := by
  induction n with
  | zero => rfl
  | succ n ih =>
    rw [List.replicate_succ, String.ofList_cons, String.utf8ByteSize_append, ih]
    exact Nat.add_comm 1 n

end Files

end EditIdioms
