import EditIdioms.Files.Store
import EditIdioms.Proofs.Execution
import EditIdioms.Proofs.Files.Pieces
import EditIdioms.Proofs.Files.Tree

set_option relaxedAutoImplicit false
set_option autoImplicit false

/-!
# Where paths lead

A path that leads somewhere still leads there when the tree of files has grown. So a file that was
created is found by its path from then on, whatever is made or written elsewhere.

## Main definitions

* `Leads`, `Missing` — what one piece of a path does.
* `Files.Grows` — a tree of files has grown, and relative paths start where they did.
* `Files.Holds` — a path leads to a file with a given content.
* `Files.SamePlace` — two paths lead to the same place.

## Main results

* `follow_cons_eq_ok` — what the first piece does.
* `follow_present`, `follow_created` — following pieces in a tree that has grown.
* `locatePieces_eq_ok_iff` — what leads somewhere is a path that nothing is wrong with.
* `locate_grows` — a path leads where it did.
* `Holds.getLast?_eq`, `Holds.grows` — files at paths.
-/

namespace EditIdioms

open Entry

namespace Files

/-! ## Following pieces -/

/-- A piece that is looked up as a name. -/
def IsName (piece : String) : Prop :=
  piece ≠ "" ∧ piece ≠ "." ∧ piece ≠ ".." ∧ ¬ nameLimit < piece.utf8ByteSize

/-- A piece leads from a location to another one. -/
inductive Leads (root : Entry) (start : List String) (piece : String) : List String → Prop
  /-- An empty piece or a dot stays. -/
  | stay (h : piece = "" ∨ piece = ".") : Leads root start piece start
  /-- Two dots go up. -/
  | up (h : piece = "..") : Leads root start piece start.dropLast
  /-- A name goes down to what is there. -/
  | down (h : IsName piece) {e : Entry} (he : root.at? (start ++ [piece]) = some e) :
    Leads root start piece (start ++ [piece])

variable {root root' : Entry} {touched : List (List String)} {start l d : List String}
  {piece name : String} {rest pieces : List String} {e : Entry}

/-- A piece leads to the same location in a tree that has grown. -/
lemma Leads.grows {next : List String} (h : Leads root start piece next)
    (hgrows : Grows touched root root') : Leads root' start piece next := by
  cases h with
  | stay h => exact .stay h
  | up h => exact .up h
  | down h he =>
    obtain ⟨e', he'⟩ := hgrows.exists_at? he
    exact .down h he'

/-- A piece that leads somewhere from a directory is followed. -/
lemma follow_of_leads {entries : List (String × Entry)} {next : List String}
    (hstart : root.at? start = some (.directory entries)) (h : Leads root start piece next)
    (rest : List String) : follow root start (piece :: rest) = follow root next rest := by
  rw [follow, hstart]
  dsimp only
  cases h with
  | stay h => rw [if_pos h]
  | up h => rw [if_neg (by simp [h]), if_pos h]
  | down h he =>
    obtain ⟨hempty, hdot, hdots, hlong⟩ := h
    rw [at?_append_singleton hstart] at he
    rw [if_neg (by simp [hempty, hdot]), if_neg hdots, if_neg hlong, he]

/-- A name that a directory does not have, and nothing but slashes behind it. -/
structure Missing (root : Entry) (start : List String) (piece : String) (rest : List String) :
    Prop where
  name : IsName piece
  absent : root.at? (start ++ [piece]) = none
  closing : ∀ piece ∈ rest, piece = ""

/-- **What the first piece does** when the pieces lead to something: it leads on, or it is a name
that is missing.

**Proof sketch.** The definition is gone through case by case. There must be a directory to start
from. An empty piece or a dot stays, two dots go up, a name that is too long is an error, and any
other name is looked up. If it is there, it leads down; if it is not, only empty pieces may follow,
and the target is the missing name. -/
lemma follow_cons_eq_ok {target : Target} (h : follow root start (piece :: rest) = .ok target) :
    ∃ entries, root.at? start = some (.directory entries) ∧
      ((∃ next, Leads root start piece next ∧ follow root next rest = .ok target) ∨
        Missing root start piece rest ∧ target = .absent start piece) := by
  rw [follow] at h
  cases hstart : root.at? start with
  | none =>
    rw [hstart] at h
    cases h
  | some e =>
    rw [hstart] at h
    cases e with
    | file content => cases h
    | directory entries =>
      refine ⟨entries, rfl, ?_⟩
      dsimp only at h
      by_cases hstays : piece = "" ∨ piece = "."
      · rw [if_pos hstays] at h
        exact .inl ⟨start, .stay hstays, h⟩
      rw [if_neg hstays] at h
      by_cases hup : piece = ".."
      · rw [if_pos hup] at h
        exact .inl ⟨start.dropLast, .up hup, h⟩
      rw [if_neg hup] at h
      by_cases hlong : nameLimit < piece.utf8ByteSize
      · rw [if_pos hlong] at h
        cases h
      rw [if_neg hlong] at h
      rw [not_or] at hstays
      have hname : IsName piece := ⟨hstays.1, hstays.2, hup, hlong⟩
      cases hpiece : entries.lookup piece with
      | some x =>
        rw [hpiece] at h
        exact .inl ⟨_, .down hname ((at?_append_singleton hstart piece).trans hpiece), h⟩
      | none =>
        rw [hpiece] at h
        dsimp only at h
        split at h
        · rename_i hclosing
          cases h
          rw [List.all_eq_true] at hclosing
          exact .inr ⟨⟨hname, (at?_append_singleton hstart piece).trans hpiece,
            fun piece hmem => String.isEmpty_iff.mp (hclosing piece hmem)⟩, rfl⟩
        · cases h

/-- What no pieces lead to is there. -/
lemma follow_nil_eq_ok {target : Target} (h : follow root start [] = .ok target) :
    ∃ e, root.at? start = some e ∧ target = .present start e := by
  rw [follow] at h
  cases hstart : root.at? start with
  | none =>
    rw [hstart] at h
    cases h
  | some e =>
    rw [hstart] at h
    cases h
    exact ⟨e, rfl, rfl⟩

/-- **What is there is found again** in a tree that has grown.

**Proof sketch.** Induction on the pieces. The directories on the way are still there, and so is
every name that was found in them. -/
lemma follow_present (hgrows : Grows touched root root')
    (h : follow root start pieces = .ok (.present l e)) :
    ∃ e', follow root' start pieces = .ok (.present l e') ∧ root'.at? l = some e' := by
  induction pieces generalizing start with
  | nil =>
    obtain ⟨x, hx, htarget⟩ := follow_nil_eq_ok h
    cases htarget
    obtain ⟨e', he'⟩ := hgrows.exists_at? hx
    exact ⟨e', by rw [follow, he'], he'⟩
  | cons piece rest ih =>
    obtain ⟨entries, hstart, ⟨next, hleads, hnext⟩ | ⟨-, htarget⟩⟩ := follow_cons_eq_ok h
    · obtain ⟨entries', hstart'⟩ := hgrows.directory hstart
      rw [follow_of_leads hstart' (hleads.grows hgrows)]
      exact ih hnext
    · cases htarget

/-- What is found stands where it is found. -/
lemma at?_of_follow (h : follow root start pieces = .ok (.present l e)) : root.at? l = some e := by
  obtain ⟨e', h', hat⟩ := follow_present (Grows.refl root) h
  rw [h] at h'
  cases h'
  exact hat

/-- A directory stands in a directory, unless it is the root, above which the root stands. -/
lemma exists_directory_dropLast (h : ∃ entries, root.at? start = some (.directory entries)) :
    ∃ entries, root.at? start.dropLast = some (.directory entries) := by
  rcases List.eq_nil_or_concat start with rfl | ⟨front, name, rfl⟩
  · exact h
  · rw [List.concat_eq_append, at?_append] at h
    rw [List.concat_eq_append, List.dropLast_concat]
    obtain ⟨entries, h⟩ := h
    obtain ⟨e, he, hchild⟩ := Option.bind_eq_some_iff.mp h
    cases e with
    | file content => cases hchild
    | directory entries' => exact ⟨entries', he⟩

/-- **A file stands under the last piece** that leads to it.

**Proof sketch.** Induction on the pieces. The last one starts from a directory, so it does not stay
there, and it does not go up, where there is a directory as well. -/
lemma getLast?_of_follow {content : List UInt8}
    (h : follow root start pieces = .ok (.present l (.file content))) (hne : pieces ≠ []) :
    l.getLast? = pieces.getLast? := by
  induction pieces generalizing start with
  | nil => exact absurd rfl hne
  | cons piece rest ih =>
    obtain ⟨entries, hstart, ⟨next, hleads, hnext⟩ | ⟨-, htarget⟩⟩ := follow_cons_eq_ok h
    · cases rest with
      | cons second rest =>
        rw [List.getLast?_cons_cons]
        exact ih hnext (List.cons_ne_nil _ _)
      | nil =>
        obtain ⟨x, hx, htarget⟩ := follow_nil_eq_ok hnext
        cases htarget
        cases hleads with
        | stay =>
          rw [hstart] at hx
          cases hx
        | up =>
          obtain ⟨entries', habove⟩ := exists_directory_dropLast ⟨entries, hstart⟩
          rw [habove] at hx
          cases hx
        | down => exact List.getLast?_concat ..
    · cases htarget

/-- **What is missing** is a name in a directory that is there. -/
lemma follow_absent (h : follow root start pieces = .ok (.absent d name)) :
    (∃ entries, root.at? d = some (.directory entries)) ∧ root.at? (d ++ [name]) = none := by
  induction pieces generalizing start with
  | nil =>
    obtain ⟨x, -, htarget⟩ := follow_nil_eq_ok h
    cases htarget
  | cons piece rest ih =>
    obtain ⟨entries, hstart, ⟨next, -, hnext⟩ | ⟨hmissing, htarget⟩⟩ := follow_cons_eq_ok h
    · exact ih hnext
    · cases htarget
      exact ⟨⟨entries, hstart⟩, hmissing.absent⟩

/-- **What was missing and is created is found** by the same pieces, if no empty piece comes last.

**Proof sketch.** Induction on the pieces. The last one is the name, and before it nothing is
different. -/
lemma follow_created (hgrows : Grows touched root root')
    (h : follow root start pieces = .ok (.absent d name)) (hlast : pieces.getLast? ≠ some "")
    (he : root'.at? (d ++ [name]) = some e) :
    follow root' start pieces = .ok (.present (d ++ [name]) e) := by
  induction pieces generalizing start with
  | nil =>
    obtain ⟨x, -, htarget⟩ := follow_nil_eq_ok h
    cases htarget
  | cons piece rest ih =>
    obtain ⟨entries, hstart, hcases⟩ := follow_cons_eq_ok h
    obtain ⟨entries', hstart'⟩ := hgrows.directory hstart
    obtain ⟨next, hleads, hnext⟩ | ⟨hmissing, htarget⟩ := hcases
    · rw [follow_of_leads hstart' (hleads.grows hgrows)]
      refine ih hnext fun hempty => hlast ?_
      rw [List.getLast?_cons, hempty]
      rfl
    · cases htarget
      obtain rfl : rest = [] := by
        cases hrest : rest.getLast? with
        | none => exact List.getLast?_eq_none_iff.mp hrest
        | some last =>
          rw [List.getLast?_cons, hrest] at hlast
          exact absurd (congrArg some (hmissing.closing last (List.mem_of_getLast? hrest))) hlast
      rw [follow_of_leads hstart' (.down hmissing.name he), follow, he]

/-! ## Paths -/

/-- The tree has grown, and relative paths start where they did. -/
structure Grows (touched : List (List String)) (files files' : Files) : Prop where
  root : Entry.Grows touched files.root files'.root
  here : files'.here = files.here

variable {files files' files'' : Files} {touched' : List (List String)} {path : String}

/-- Where nothing has happened, no location was touched. -/
lemma Grows.refl (files : Files) : files.Grows [] files := ⟨Entry.Grows.refl _, rfl⟩

/-- One thing has happened after the other. -/
lemma Grows.trans (h : files.Grows touched files') (h' : files'.Grows touched' files'') :
    files.Grows (touched ++ touched') files'' :=
  ⟨h.root.trans h'.root, h'.here.trans h.here⟩

/-- More locations may have been touched than it takes. -/
lemma Grows.mono (h : files.Grows touched files') (hsub : touched ⊆ touched') :
    files.Grows touched' files' := ⟨h.root.mono hsub, h.here⟩

/-- Where pieces lead if nothing is wrong with the path itself. -/
lemma locatePieces_eq_follow (hempty : path ≠ "") (hnul : '\x00' ∉ path.toList)
    (hlong : Path.isTooLong path = false) :
    files.locatePieces path pieces =
      follow files.root (if Path.isAbsolute path then [] else files.here) pieces := by
  rw [locatePieces, if_neg (by simpa using hempty), if_neg (by simpa using hnul),
    if_neg (by simp [hlong])]

/-- The path of what leads somewhere is not empty, has no NUL and is not too long. -/
lemma locatePieces_eq_ok_iff {target : Target} :
    files.locatePieces path pieces = .ok target ↔
      path ≠ "" ∧ '\x00' ∉ path.toList ∧ Path.isTooLong path = false ∧
        follow files.root (if Path.isAbsolute path then [] else files.here) pieces =
          .ok target := by
  constructor
  · intro h
    unfold locatePieces at h
    split at h
    · cases h
    rename_i hempty
    split at h
    · cases h
    rename_i hnul
    split at h
    · cases h
    rename_i hlong
    exact ⟨by simpa using hempty, by simpa using hnul, by simpa using hlong, h⟩
  · rintro ⟨hempty, hnul, hlong, h⟩
    rw [locatePieces_eq_follow hempty hnul hlong, h]

/-- What can be wrong with a path does not depend on the files. -/
lemma locatePieces_eq_ok {target : Target} (h : files.locatePieces path pieces = .ok target)
    (hhere : files'.here = files.here) :
    ∃ start, follow files.root start pieces = .ok target ∧
      files'.locatePieces path pieces = follow files'.root start pieces := by
  obtain ⟨hempty, hnul, hlong, hfollow⟩ := locatePieces_eq_ok_iff.mp h
  refine ⟨_, hfollow, ?_⟩
  rw [locatePieces_eq_follow hempty hnul hlong, hhere]

/-- The pieces of a path lead where they did, whatever has been made since. -/
lemma locatePieces_grows (hgrows : files.Grows touched files')
    (h : files.locatePieces path pieces = .ok (.present l e)) :
    ∃ e', files'.locatePieces path pieces = .ok (.present l e') ∧
      files'.root.at? l = some e' := by
  obtain ⟨start, hfollow, hlater⟩ := locatePieces_eq_ok h hgrows.here
  obtain ⟨e', hfollow', hat⟩ := follow_present hgrows.root hfollow
  exact ⟨e', hlater.trans hfollow', hat⟩

/-- **A path leads where it did**, whatever has been made since. -/
lemma locate_grows (hgrows : files.Grows touched files')
    (h : files.locate path = .ok (.present l e)) :
    ∃ e', files'.locate path = .ok (.present l e') ∧ files'.root.at? l = some e' :=
  locatePieces_grows hgrows h

/-- What a path leads to stands where it leads. -/
lemma at?_of_locate (h : files.locate path = .ok (.present l e)) : files.root.at? l = some e := by
  obtain ⟨start, hfollow, -⟩ := locatePieces_eq_ok h rfl
  exact at?_of_follow hfollow

/-- A path that leads to a directory still does so.

**Proof sketch.** The path leads to a directory, so it leads somewhere in the larger tree as well,
and to the same location (`locate_grows`). What was a directory there still is one. -/
lemma isDirectory_grows (hgrows : files.Grows touched files')
    (h : files.isDirectory path = true) : files'.isDirectory path = true := by
  unfold isDirectory entry at h ⊢
  cases hlocate : files.locate path with
  | error cause =>
    rw [hlocate] at h
    cases h
  | ok target =>
    rw [hlocate] at h
    cases target with
    | absent d name => cases h
    | present l e =>
      cases e with
      | file content => cases h
      | directory entries =>
        obtain ⟨e', hlocate', hat'⟩ := locate_grows hgrows hlocate
        obtain ⟨entries', hat⟩ := hgrows.root.directory (at?_of_locate hlocate)
        cases hat'.symm.trans hat
        rw [hlocate']
        rfl

/-! ## Files -/

/-- The path leads to a file with the given content. -/
def Holds (files : Files) (path : String) (l : List String) (content : List UInt8) : Prop :=
  files.locate path = .ok (.present l (.file content))

variable {content : List UInt8}

/-- **A file stands under the last piece** of its path. -/
lemma Holds.getLast?_eq (h : files.Holds path l content) :
    l.getLast? = (Path.pieces path).getLast? := by
  obtain ⟨start, hfollow, -⟩ := locatePieces_eq_ok h rfl
  exact getLast?_of_follow hfollow (Path.pieces_ne_nil path)

/-- **A file that was not touched** is still there with its content. -/
lemma Holds.grows (h : files.Holds path l content) (hgrows : files.Grows touched files')
    (hl : l ∉ touched) : files'.Holds path l content := by
  obtain ⟨e, hlocate, he⟩ := locate_grows hgrows h
  obtain ⟨content', hat, hsame⟩ := hgrows.root.file (at?_of_locate h)
  obtain rfl := Option.some.inj (he.symm.trans hat)
  rw [hsame hl] at hlocate
  exact hlocate

/-- The content is read at the path. -/
lemma Holds.content_eq (h : files.Holds path l content) : files.content path = .ok content := by
  unfold Files.content entry
  rw [show files.locate path = _ from h]
  rfl

/-- There is one content in a place. -/
lemma Holds.content_unique {path' : String} {content' : List UInt8}
    (h : files.Holds path l content) (h' : files.Holds path' l content') : content = content' := by
  have hat := (at?_of_locate h).symm.trans (at?_of_locate h')
  injection hat with hat
  injection hat

/-- Two paths lead to the same place. -/
def SamePlace (files : Files) (path path' : String) : Prop :=
  ∃ l e, files.locate path = .ok (.present l e) ∧ files.locate path' = .ok (.present l e)

/-- Paths of files lead to the same place when the files stand at one location. -/
lemma Holds.samePlace_iff {path' : String} {l' : List String} {content' : List UInt8}
    (h : files.Holds path l content) (h' : files.Holds path' l' content') :
    files.SamePlace path path' ↔ l = l' := by
  constructor
  · rintro ⟨place, e, hplace, hplace'⟩
    cases h.symm.trans hplace
    cases h'.symm.trans hplace'
    rfl
  · rintro rfl
    cases h.content_unique h'
    exact ⟨l, _, h, h'⟩

/-- A file is still there when others, or it itself, have been touched. -/
lemma Holds.exists_grows (h : files.Holds path l content) (hgrows : files.Grows touched files') :
    ∃ content', files'.Holds path l content' := by
  obtain ⟨e, hlocate, he⟩ := locate_grows hgrows h
  obtain ⟨content', hat, -⟩ := hgrows.root.file (at?_of_locate h)
  obtain rfl := Option.some.inj (he.symm.trans hat)
  exact ⟨content', hlocate⟩

end Files

end EditIdioms
