import EditIdioms.Proofs.Files.Operations

set_option relaxedAutoImplicit false
set_option autoImplicit false

/-!
# What making directories adds

Making the directories of a path may get some way and then fail. Whatever comes of it, no file has
been touched, and all that is new are directories that the paths on the way lead to.

## Main definitions

* `Files.GrowsAlong` — only directories are new, and some paths lead to them.

## Main results

* `GrowsAlong.file_iff` — the files are the same as before.
* `growsAlong_makeDirectories` — making directories.
-/

namespace EditIdioms

open Entry

/-- A path has no empty pieces at its end when the slashes there are left out. -/
lemma Path.getLast?_barePieces_ne (path : String) : (barePieces path).getLast? ≠ some "" := by
  intro h
  rw [barePieces, List.getLast?_reverse] at h
  have hempty := List.head?_dropWhile_not (·.isEmpty) (pieces path).reverse
  rw [h] at hempty
  cases hempty

namespace Files

variable {way : String → Prop} {files files' files'' : Files} {l : List String}

/-- The tree has grown, and nothing in it is new but directories that some of the paths lead to. -/
structure GrowsAlong (way : String → Prop) (files files' : Files) : Prop where
  grows : files.Grows [] files'
  new : ∀ {l e}, files'.root.at? l = some e → files.root.at? l = none →
    e.isDirectory = true ∧ ∃ q, way q ∧ files'.locateBare q = .ok (.present l e)

/-- Where nothing has happened, nothing is new. -/
lemma GrowsAlong.refl (files : Files) : files.GrowsAlong way files :=
  ⟨Grows.refl files, fun h h' => nomatch h.symm.trans h'⟩

/-- One thing has happened after the other.

**Proof sketch.** What is new in the end was there in between or is new since then. In the latter
case it came by what happened second. In the former it came by what happened first, as a directory
to which a path on the way leads; it still is one, and the path still leads there. -/
lemma GrowsAlong.trans (h : files.GrowsAlong way files') (h' : files'.GrowsAlong way files'') :
    files.GrowsAlong way files'' := by
  refine ⟨h.grows.trans h'.grows, fun {l e} he hnone => ?_⟩
  cases hmiddle : files'.root.at? l with
  | none => exact h'.new he hmiddle
  | some x =>
    obtain ⟨hdirectory, q, hq, hlocate⟩ := h.new hmiddle hnone
    obtain ⟨e', hlocate', he'⟩ := locatePieces_grows h'.grows hlocate
    obtain rfl := Option.some.inj (he.symm.trans he')
    refine ⟨?_, q, hq, hlocate'⟩
    cases x with
    | file content => cases hdirectory
    | directory entries =>
      obtain ⟨entries', hentries'⟩ := h'.grows.root.directory hmiddle
      obtain rfl := Option.some.inj (he.symm.trans hentries')
      rfl

instance : Std.Refl (Files.GrowsAlong way) := ⟨GrowsAlong.refl⟩

instance : IsTrans Files (Files.GrowsAlong way) := ⟨fun _ _ _ h h' => h.trans h'⟩

/-- **The files are the same as before.**

**Proof sketch.** What was at the location before is either nothing, and then what is new there is a
directory, or a directory, which is still one, or a file, which has kept its content since no
location was touched. The other way round a file stays with its content for the same reason. -/
lemma GrowsAlong.file_iff (h : files.GrowsAlong way files') {content : List UInt8} :
    files'.root.at? l = some (.file content) ↔ files.root.at? l = some (.file content) := by
  constructor
  · intro hfile
    cases hbefore : files.root.at? l with
    | none => cases (h.new hfile hbefore).1
    | some x =>
      cases x with
      | directory entries =>
        obtain ⟨entries', hentries'⟩ := h.grows.root.directory hbefore
        cases hfile.symm.trans hentries'
      | file content' =>
        obtain ⟨content'', hcontent, hsame⟩ := h.grows.root.file hbefore
        rw [hsame List.not_mem_nil] at hcontent
        exact hcontent.symm.trans hfile
  · intro hfile
    obtain ⟨content', hcontent, hsame⟩ := h.grows.root.file hfile
    rwa [hsame List.not_mem_nil] at hcontent

end Files

namespace Disk

open Files

/-- Making a directory adds nothing but this directory.

**Proof sketch.** Making a directory does nothing, or puts an empty one where its path led to a
missing name. What is there afterwards was there before or is the new directory, as nothing is below
that. Its path leads to it now: the directory above is where it was, and the last piece of a bare
path is no empty one (`follow_created`). -/
lemma growsAlong_makeDirectory {way : String → Prop} {path : String} (h : way path) :
    Keeps (Files.GrowsAlong way) (makeDirectory path) := by
  intro files
  obtain hsame | ⟨d, name, hlocate, hput⟩ := exec_makeDirectory_cases path files
  · rw [hsame]
    exact GrowsAlong.refl files
  rw [hput]
  have hgrows := grows_put_absent hlocate (.directory [])
  refine ⟨hgrows, fun {l e} he hnone => ?_⟩
  obtain ⟨y, hy⟩ | ⟨rest, rfl, hrest⟩ := at?_of_put he
  · cases hy.symm.trans hnone
  · -- Below the new directory there is nothing.
    cases rest with
    | cons name rest => cases hrest
    | nil =>
      cases hrest
      obtain ⟨start, hfollow, hlater⟩ := locatePieces_eq_ok hlocate hgrows.here
      obtain ⟨⟨entries, hd⟩, -⟩ := follow_absent hfollow
      rw [List.append_nil]
      exact ⟨rfl, path, h, hlater.trans (follow_created hgrows.root hfollow
        (Path.getLast?_barePieces_ne path) (at?_put_new hd name _))⟩

/-- **Making directories adds** nothing but directories on the way, however far it gets. -/
lemma growsAlong_makeDirectories (path : String) :
    Keeps (Files.GrowsAlong (OnTheWay path)) (makeDirectories path) :=
  keeps_makeDirectories fun _ hq => growsAlong_makeDirectory hq

end Disk

end EditIdioms
