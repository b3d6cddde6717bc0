import EditIdioms.Proofs.Files.Places

set_option relaxedAutoImplicit false
set_option autoImplicit false

/-!
# Operations that change files

What making directories and creating files does to a tree of files. Making directories touches no
file, however far it gets. A file that was created is empty, and its path leads to it from then on,
also when it has been written to and other files have been created.

## Main definitions

* `Disk.Keeps` — how the files that an operation leaves are related to those it has found, whatever
  its outcome.
* `Disk.OnTheWay` — the paths of the directories that are made for a path.
* `Disk.Growing` — an operation touches no file, whatever its outcome.

## Main results

* `keeps_makeDirectories`, `growing_makeDirectories` — making directories.
* `exec_create`, `exec_create_error` — creating a file, and failing to do so.
* `Holds.grows_put`, `Holds.put` — writing to a file.
-/

namespace EditIdioms

open Entry Files

/-! ## Writing to a file -/

namespace Files

variable {files : Files} {path : String} {l : List String} {content : List UInt8}

/-- **Writing to a file** touches that file only. -/
lemma Holds.grows_put (h : files.Holds path l content) (new : List UInt8) :
    files.Grows [l] (files.put l (.file new)) := by
  refine ⟨Entry.grows_put fun x hx => ?_, rfl⟩
  obtain rfl := Option.some.inj ((at?_of_locate h).symm.trans hx)
  exact ⟨rfl, rfl⟩

/-- A file that was written to has what was written. -/
lemma Holds.put (h : files.Holds path l content) (new : List UInt8) :
    (files.put l (.file new)).Holds path l new := by
  obtain ⟨e, hlocate, he⟩ := locate_grows (h.grows_put new) h
  obtain rfl := Option.some.inj (he.symm.trans (at?_put_self (at?_of_locate h) _))
  exact hlocate

end Files

namespace Disk

variable {α β : Type} {files files' : Files} {path : String} {l : List String}

/-! ## What operations keep -/

/-- Looking at the files gives what is read from them and changes nothing. -/
lemma exec_look (read : Files → Except Cause α) (files : Files) :
    exec (look read) files = (read files, files) := by
  unfold look
  rw [exec_get_bind]
  cases read files <;> rfl

/-- Whatever its outcome, the operation leaves files that are related to those it has found. -/
def Keeps (R : Files → Files → Prop) (c : Disk α) : Prop :=
  ∀ files : Files, R files (exec c files).2

section Keeps

variable {R : Files → Files → Prop}

/-- The files after an execution are related to those before it. -/
lemma Keeps.rel {c : Disk α} (h : Keeps R c) {out : Except Cause α}
    (hexec : exec c files = (out, files')) : R files files' := by
  have hrel := h files
  rwa [hexec] at hrel

/-- Giving a value changes nothing. -/
lemma keeps_pure [Std.Refl R] (a : α) : Keeps R (pure a) := Std.Refl.refl (r := R)

/-- Going on with a directory that is there changes nothing. -/
lemma keeps_unlessDirectory [Std.Refl R] (path : String) (cause : Cause) :
    Keeps R (unlessDirectory path cause) := by
  intro files
  unfold unlessDirectory
  rw [exec_get_bind]
  split <;> exact Std.Refl.refl (r := R) files

/-- Operations in sequence keep a transitive relation if each of them does. -/
lemma keeps_bind [IsTrans Files R] {c : Disk α} {k : α → Disk β} (hc : Keeps R c)
    (hk : ∀ a, Keeps R (k a)) : Keeps R (c >>= k) := by
  intro files
  rw [exec_bind]
  rcases hexec : exec c files with ⟨_ | a, files₁⟩
  · exact hc.rel hexec
  · exact IsTrans.trans _ _ _ (hc.rel hexec) (hk a files₁)

/-- An operation that goes on after a failure. -/
lemma keeps_tryCatch [IsTrans Files R] {c : Disk α} {handle : Cause → Disk α} (hc : Keeps R c)
    (hhandle : ∀ cause, Keeps R (handle cause)) : Keeps R (tryCatch c handle) := by
  intro files
  rw [exec_tryCatch]
  rcases hexec : exec c files with ⟨cause | _, files₁⟩
  · exact IsTrans.trans _ _ _ (hc.rel hexec) (hhandle cause files₁)
  · exact hc.rel hexec

/-- The paths of the directories that are made for a path. -/
def OnTheWay (path q : String) : Prop :=
  q = path ∨ ∃ front, front <+: Path.components path ∧ q = Path.ofComponents front

variable [Std.Refl R] [IsTrans Files R]

/-- Making a directory and those above it keeps what making each of them keeps.

**Proof sketch.** Induction on the components above the path. The directory is made; if that fails
as something is missing, those above it are made first, the next one being on the way as a beginning
of the components, and then it is tried again. Any other failure is forgiven if the directory is
there, which is only looked at. -/
lemma keeps_makeDirectoriesBelow {way : String → Prop}
    (hmake : ∀ q, way q → Keeps R (makeDirectory q)) {path : String} {above : List String}
    (hpath : way path) (habove : ∀ front, front <+: above.reverse → way (Path.ofComponents front)) :
    Keeps R (makeDirectoriesBelow path above) := by
  induction above generalizing path with
  | nil =>
    unfold makeDirectoriesBelow
    refine keeps_tryCatch (hmake path hpath) fun cause => ?_
    split
    · exact keeps_tryCatch (hmake path hpath) (keeps_unlessDirectory path)
    · exact keeps_unlessDirectory path _
  | cons last above ih =>
    have hlast : way (Path.ofComponents (last :: above).reverse) := habove _ List.prefix_rfl
    have hrest : ∀ front, front <+: above.reverse → way (Path.ofComponents front) := by
      intro front hfront
      refine habove front (hfront.trans ?_)
      rw [List.reverse_cons]
      exact List.prefix_append _ _
    unfold makeDirectoriesBelow
    refine keeps_tryCatch (hmake path hpath) fun cause => ?_
    split
    · exact keeps_bind (ih hlast hrest) fun _ =>
        keeps_tryCatch (hmake path hpath) (keeps_unlessDirectory path)
    · exact keeps_unlessDirectory path _

/-- **Making directories keeps** what making each directory on the way keeps. -/
lemma keeps_makeDirectories (hmake : ∀ q, OnTheWay path q → Keeps R (makeDirectory q)) :
    Keeps R (makeDirectories path) := by
  unfold makeDirectories
  split
  · exact keeps_pure _
  · refine keeps_makeDirectoriesBelow hmake (.inl rfl) fun front hfront => ?_
    rw [List.reverse_reverse] at hfront
    exact .inr ⟨front, hfront.trans (List.dropLast_prefix _), rfl⟩

end Keeps

/-! ## Operations that touch no file -/

/-- Whatever its outcome, the operation touches no file. -/
def Growing (c : Disk α) : Prop := Keeps (Files.Grows []) c

instance : Std.Refl (Files.Grows []) := ⟨Grows.refl⟩

instance : IsTrans Files (Files.Grows []) := ⟨fun _ _ _ h h' => h.trans h'⟩

/-- What an execution has done that touches no file. -/
lemma Growing.grows {c : Disk α} (h : Growing c) {out : Except Cause α}
    (hexec : exec c files = (out, files')) : files.Grows [] files' := h.rel hexec

/-- What is missing by its path can be put there. -/
lemma grows_put_absent {pieces d : List String} {name : String}
    (h : files.locatePieces path pieces = .ok (.absent d name)) (new : Entry) :
    files.Grows [] (files.put (d ++ [name]) new) := by
  obtain ⟨start, hfollow, -⟩ := locatePieces_eq_ok h rfl
  obtain ⟨-, habsent⟩ := follow_absent hfollow
  refine ⟨(grows_put fun x hx => ?_).of_absent habsent, rfl⟩
  rw [habsent] at hx
  cases hx

/-- What making a directory does: nothing, or where nothing was there is an empty directory. -/
lemma exec_makeDirectory_cases (path : String) (files : Files) :
    (exec (makeDirectory path) files).2 = files ∨
      ∃ d name, files.locateBare path = .ok (.absent d name) ∧
        (exec (makeDirectory path) files).2 = files.put (d ++ [name]) (.directory []) := by
  unfold makeDirectory
  rw [exec_bind, exec_look]
  cases files.locateBare path with
  | error cause => exact .inl rfl
  | ok target =>
    cases target with
    | present l e => exact .inl rfl
    | absent d name => exact .inr ⟨d, name, rfl, rfl⟩

/-- Making a directory touches no file. -/
lemma growing_makeDirectory (path : String) : Growing (makeDirectory path) := by
  intro files
  obtain hsame | ⟨d, name, hlocate, hput⟩ := exec_makeDirectory_cases path files
  · rw [hsame]
    exact Grows.refl files
  · rw [hput]
    exact grows_put_absent hlocate _

/-- **Making directories touches no file**, however far it gets. -/
lemma growing_makeDirectories (path : String) : Growing (makeDirectories path) :=
  keeps_makeDirectories fun q _ => growing_makeDirectory q

/-! ## Files -/

/-- What creating a file does: nothing, or there is an empty file in the place that its path
leads to, where a file was before or nothing.

**Proof sketch.** By what the path leads to. A path that ends with a slash, leads to a directory or
cannot be followed gives a cause and changes nothing. One that leads to a file or to a missing name
has an empty file put there. Without a slash at its end a path and its bare form have the same
pieces, so the file is where the path leads. -/
lemma exec_create_cases (path : String) (files : Files) :
    (∃ cause, exec (create path) files = (.error cause, files)) ∨
      Path.endsOpen path = false ∧ ∃ l,
        ((∃ content, files.Holds path l content) ∨
          ∃ d name, l = d ++ [name] ∧ files.locateBare path = .ok (.absent d name)) ∧
        exec (create path) files = (.ok l, files.put l (.file [])) := by
  unfold create
  cases hopen : Path.endsOpen path with
  | true =>
    rw [if_pos rfl, exec_bind, exec_look]
    cases files.seekPlace path with
    | error cause => exact .inl ⟨cause, rfl⟩
    | ok place => exact .inl ⟨.isDirectory, rfl⟩
  | false =>
    rw [if_neg Bool.false_ne_true, exec_bind, exec_look]
    cases hlocate : files.locateBare path with
    | error cause => exact .inl ⟨cause, rfl⟩
    | ok target =>
      cases target with
      | present l e =>
        cases e with
        | directory entries => exact .inl ⟨.isDirectory, rfl⟩
        | file content =>
          rw [locateBare, Path.barePieces_eq_pieces hopen] at hlocate
          exact .inr ⟨rfl, l, .inl ⟨content, hlocate⟩, rfl⟩
      | absent d name => exact .inr ⟨rfl, _, .inr ⟨d, name, rfl, rfl⟩, rfl⟩

/-- **A file that cannot be created** changes nothing. -/
lemma exec_create_error {cause : Cause} (h : exec (create path) files = (.error cause, files')) :
    files' = files := by
  obtain ⟨_, hexec⟩ | ⟨-, _, -, hexec⟩ := exec_create_cases path files
  · cases h.symm.trans hexec
    rfl
  · cases h.symm.trans hexec

/-- What is known of a file when it has been created: it is empty, its path leads to it, nothing
else has changed, and there was no directory in its place. -/
structure Created (path : String) (l : List String) (files files' : Files) : Prop where
  eq_put : files' = files.put l (.file [])
  grows : files.Grows [l] files'
  holds : files'.Holds path l []

/-- **Creating a file** puts an empty file where its path leads, if it gives a location, and nothing
else is touched.

**Proof sketch.** The path leads to a file, which is emptied and stays where it is, or to a missing
name of a directory, under which an empty file is put. In the second case nothing else is changed,
so following the path comes to that directory as before and then to the new file
(`follow_created`). -/
lemma exec_create (h : exec (create path) files = (.ok l, files')) :
    Created path l files files' := by
  obtain ⟨_, hexec⟩ | ⟨hopen, _, hplace, hexec⟩ := exec_create_cases path files
  · cases h.symm.trans hexec
  cases h.symm.trans hexec
  obtain ⟨content, hholds⟩ | ⟨d, name, rfl, hlocate⟩ := hplace
  · exact ⟨rfl, hholds.grows_put [], hholds.put []⟩
  · have hgrows := grows_put_absent hlocate (.file [])
    have hhere : (files.put (d ++ [name]) (.file [])).here = files.here := rfl
    rw [locateBare, Path.barePieces_eq_pieces hopen] at hlocate
    obtain ⟨start, hfollow, hlater⟩ := locatePieces_eq_ok hlocate hhere
    obtain ⟨⟨entries, hd⟩, -⟩ := follow_absent hfollow
    have hlast := Path.getLast?_pieces_ne hopen
    refine ⟨rfl, ⟨hgrows.root.mono (List.nil_subset _), rfl⟩, ?_⟩
    exact hlater.trans (follow_created hgrows.root hfollow hlast (at?_put_new hd name _))

end Disk

end EditIdioms
