import EditIdioms.Proofs.Files.Walk

set_option relaxedAutoImplicit false
set_option autoImplicit false

/-!
# Removing files

Files are removed from a tree, and all directories stay. Then a directory lists what it did without
the files that were removed from it, in the same order, and a path that leads to a directory, or to
a file that is still there, leads where it did.

## Main definitions

* `Entry.kept`, `Entry.keptOf` — what is left of a tree.
* `Files.without` — the files without some of them.

## Main results

* `Entry.at?_kept` — what is found in what is left.
* `Files.locate_without` — a path leads where it did.
-/

namespace EditIdioms

mutual

/-- What is left of an entry when the files at some locations are removed, which may be nothing. -/
def Entry.kept (gone : List String → Bool) (location : List String) : Entry → Option Entry
  | .file content => if gone location then none else some (.file content)
  | .directory entries => some (.directory (keptOf gone location entries))

/-- What a directory lists when files are removed. -/
def Entry.keptOf (gone : List String → Bool) (location : List String) :
    List (String × Entry) → List (String × Entry)
  | [] => []
  | (name, e) :: rest =>
    match e.kept gone (location ++ [name]) with
    | some left => (name, left) :: keptOf gone location rest
    | none => keptOf gone location rest

end

/-- The files without those at some locations. -/
def Files.without (files : Files) (gone : List String → Bool) : Files :=
  { files with root := (files.root.kept gone []).getD files.root }

variable {gone : List String → Bool} {location l : List String} {name : String} {e left : Entry}
  {entries : List (String × Entry)}

namespace Entry

/-! ## What is left -/

/-- **The names under which something is left** are looked up as before.

**Proof sketch.** Induction on the entries. If the first one has the name, what is left of it is
found, or nothing is if nothing is left, since the name is not listed a second time. If it has
another name, it makes no difference whether anything is left of it. -/
lemma lookup_keptOf (hnodup : (entries.map Prod.fst).Nodup) (name : String) :
    (keptOf gone location entries).lookup name =
      (entries.lookup name).bind (·.kept gone (location ++ [name])) := by
  induction entries with
  | nil => rfl
  | cons x rest ih =>
    obtain ⟨first, e⟩ := x
    rw [List.map_cons, List.nodup_cons] at hnodup
    rw [lookup_cons_eq, keptOf]
    by_cases hname : name = first
    · subst hname
      rw [if_pos rfl, Option.bind_some]
      cases hleft : e.kept gone (location ++ [name]) with
      | some left =>
        dsimp only
        rw [lookup_cons_eq, if_pos rfl]
      | none =>
        dsimp only
        rw [ih hnodup.2]
        -- the name is not listed a second time
        cases hrest : rest.lookup name with
        | none => rfl
        | some e' =>
          exact absurd (List.mem_map.mpr ⟨_, mem_of_lookup hrest, rfl⟩) hnodup.1
    · rw [if_neg hname, ← ih hnodup.2]
      cases e.kept gone (location ++ [first]) with
      | some left =>
        dsimp only
        rw [lookup_cons_eq, if_neg hname]
      | none => rfl

/-- **What is found in what is left** is what is left of what was found.

**Proof sketch.** Induction on the names that lead down. A file has nothing below it, before and
after. In a directory the first name leads to what is left of the entry with that name
(`lookup_keptOf`), and from there on the induction applies. Nothing is left only of files, below
which nothing can be found anyway. -/
lemma at?_kept (hproper : e.Proper) (hleft : e.kept gone location = some left) (l : List String) :
    left.at? l = (e.at? l).bind (·.kept gone (location ++ l)) := by
  induction l generalizing e left location with
  | nil =>
    rw [at?, at?, Option.bind_some, List.append_nil, hleft]
  | cons name l ih =>
    cases hproper with
    | file content =>
      rw [kept] at hleft
      split at hleft
      · cases hleft
      · cases hleft
        rfl
    | @directory entries hnodup _ hbelow =>
      rw [kept] at hleft
      cases hleft
      change ((keptOf gone location entries).lookup name).bind _ =
        ((entries.lookup name).bind _).bind _
      rw [lookup_keptOf hnodup, Option.bind_assoc]
      cases hname : entries.lookup name with
      | none => rfl
      | some child =>
        rw [Option.bind_some, Option.bind_some]
        have hproper := hbelow _ (mem_of_lookup hname)
        cases hkept : child.kept gone (location ++ [name]) with
        | some left =>
          rw [Option.bind_some, ih hproper hkept, List.append_assoc]
          rfl
        | none =>
          -- nothing is left only of a file, and there is nothing below a file
          cases child with
          | directory entries' =>
            rw [kept] at hkept
            cases hkept
          | file content =>
            cases l with
            | nil => rw [Option.bind_none, at?, Option.bind_some, hkept]
            | cons next l => rfl

/-- The directories that are listed stay the same.

**Proof sketch.** Induction on the entries. A directory is always kept, with something or nothing in
it, so its name stays. A file is not counted, whether it is kept or not. -/
lemma directories_keptOf (gone : List String → Bool) (location : List String)
    (entries : List (String × Entry)) :
    ((keptOf gone location entries).filter (·.2.isDirectory)).map Prod.fst =
      (entries.filter (·.2.isDirectory)).map Prod.fst := by
  induction entries with
  | nil => rfl
  | cons x rest ih =>
    obtain ⟨name, e⟩ := x
    rw [keptOf]
    cases e with
    | directory entries' =>
      rw [kept]
      dsimp only
      rw [List.filter_cons_of_pos rfl, List.filter_cons_of_pos rfl, List.map_cons, List.map_cons,
        ih]
    | file content =>
      rw [kept, List.filter_cons_of_neg Bool.false_ne_true, ← ih]
      by_cases hgone : gone (location ++ [name])
      · rw [if_pos hgone]
      · rw [if_neg hgone]
        dsimp only
        rw [List.filter_cons_of_neg Bool.false_ne_true]

end Entry

namespace Files

open Entry

/-! ## Where paths lead -/

variable {root root' : Entry} {start pieces : List String}

/-- **What is left is found by the same pieces.**

**Proof sketch.** Induction on the pieces. What comes before the last place is a directory, and
directories stay. -/
lemma follow_kept (hproper : root.Proper) (hroot : root.kept gone [] = some root')
    (h : follow root start pieces = .ok (.present l e)) (hleft : e.kept gone l = some left) :
    follow root' start pieces = .ok (.present l left) := by
  have hat : ∀ {l : List String} {e left : Entry}, root.at? l = some e →
      e.kept gone l = some left → root'.at? l = some left := by
    intro l e left he hleft
    rw [at?_kept hproper hroot, he, Option.bind_some, List.nil_append, hleft]
  induction pieces generalizing start with
  | nil =>
    obtain ⟨x, hx, htarget⟩ := follow_nil_eq_ok h
    cases htarget
    rw [follow, hat hx hleft]
  | cons piece rest ih =>
    obtain ⟨entries, hstart, ⟨next, hleads, hnext⟩ | ⟨-, htarget⟩⟩ := follow_cons_eq_ok h
    · have hstart' := hat hstart (by rw [kept])
      have hthere : ∃ left', root'.at? next = some left' := by
        cases rest with
        | nil =>
          obtain ⟨x, hx, htarget⟩ := follow_nil_eq_ok hnext
          cases htarget
          exact ⟨left, hat hx hleft⟩
        | cons second rest =>
          obtain ⟨entries', hentries', -⟩ := follow_cons_eq_ok hnext
          exact ⟨_, hat hentries' (by rw [kept])⟩
      have hleads' : Leads root' start piece next := by
        cases hleads with
        | stay h => exact .stay h
        | up h => exact .up h
        | down h _ =>
          obtain ⟨left', hleft'⟩ := hthere
          exact .down h hleft'
      rw [follow_of_leads hstart' hleads']
      exact ih hnext
    · cases htarget

variable {files : Files} {path : String}

/-- A tree in which a path leads to something is a directory.

**Proof sketch.** A path has at least one piece, and following a piece takes a directory to start
from. A path that starts at the top has the root for it; otherwise the root has something below
it. -/
lemma exists_root_of_locate {target : Target} (h : files.locate path = .ok target) :
    ∃ entries, files.root = .directory entries := by
  obtain ⟨-, -, -, hfollow⟩ := locate_eq_ok_iff.mp h
  obtain ⟨piece, rest, hpieces⟩ := List.exists_cons_of_ne_nil (Path.pieces_ne_nil path)
  rw [hpieces] at hfollow
  obtain ⟨entries, hstart, -⟩ := follow_cons_eq_ok hfollow
  cases hroot : files.root with
  | directory entries => exact ⟨entries, rfl⟩
  | file content =>
    rw [hroot] at hstart
    generalize (if Path.isAbsolute path then [] else files.here) = start at hstart
    cases start with
    | nil => cases hstart
    | cons name start => cases hstart

/-- **A path leads where it did** when files are removed, if what it leads to is a directory, or a
file that is still there. A directory may have lost some of what is in it, so what the path leads to
is what is left of it.

**Proof sketch.** The removal changes the tree only, so the path has the same pieces, is no longer
than it was, and is followed from the same directory. Something was found along it, so the root is a
directory, and a directory is never removed. Following the pieces in what is left of the root comes
to what is left at the end (`follow_kept`). -/
lemma locate_without (hproper : files.root.Proper) (h : files.locate path = .ok (.present l e))
    (hleft : e.kept gone l = some left) :
    (files.without gone).locate path = .ok (.present l left) := by
  obtain ⟨entries, hroot⟩ := exists_root_of_locate h
  have hkept : files.root.kept gone [] = some (files.without gone).root := by
    unfold without
    rw [hroot, kept]
    rfl
  obtain ⟨hempty, hnul, hlong, hfollow⟩ := locate_eq_ok_iff.mp h
  exact locate_eq_ok_iff.mpr ⟨hempty, hnul, hlong, follow_kept hproper hkept hfollow hleft⟩

end Files

end EditIdioms
