import EditIdioms.Proofs.Files.Walk

set_option relaxedAutoImplicit false
set_option autoImplicit false

/-!
# Directories that list in another order

A directory lists its entries in an order of its own, and the same files may be listed in another
order elsewhere or later, at every level. What is listed under a name is the same up to this. So a
path leads where it did, to a directory with the same names or to a file with the same content.

## Main definitions

* `Entry.Reordered`, `Files.Reordered` — the same files, listed in another order.

## Main results

* `Entry.Reordered.exists_at?` — what is found in the one is found in the other.
* `Files.Reordered.locate`, `Files.Reordered.content_eq` — paths lead to the same.
-/

namespace EditIdioms

/-- Both are the same file, or directories with the same names, in whatever order, and the same
under each name up to the order in which it is listed. -/
inductive Entry.Reordered : Entry → Entry → Prop
  | file (content : List UInt8) : Reordered (.file content) (.file content)
  | directory {entries entries' : List (String × Entry)}
    (names : (entries.map Prod.fst).Perm (entries'.map Prod.fst))
    (below : ∀ {name e e'}, (name, e) ∈ entries → (name, e') ∈ entries' → Reordered e e') :
    Reordered (.directory entries) (.directory entries')

namespace Entry.Reordered

variable {e e' : Entry} {entries entries' : List (String × Entry)} {name : String}

/-- To be the same up to order is symmetric. -/
lemma symm (h : e.Reordered e') : e'.Reordered e := by
  induction h with
  | file content => exact .file content
  | directory hnames _ ih => exact .directory hnames.symm fun he he' => ih he' he

/-- Directories with the same names, no one listed twice, when what the one lists under a name is
listed by the other up to order. -/
lemma of_forall (hnodup : (entries'.map Prod.fst).Nodup)
    (hnames : (entries.map Prod.fst).Perm (entries'.map Prod.fst))
    (h : ∀ x ∈ entries, ∃ e', (x.1, e') ∈ entries' ∧ x.2.Reordered e') :
    (Entry.directory entries).Reordered (.directory entries') := by
  refine .directory hnames fun {name e e'} he he' => ?_
  obtain ⟨found, hfound, hsame⟩ := h _ he
  obtain rfl := Option.some.inj
    ((lookup_of_mem hnodup he').symm.trans (lookup_of_mem hnodup hfound))
  exact hsame

/-- A proper tree is the same as itself. -/
lemma refl (h : e.Proper) : e.Reordered e := by
  induction h with
  | file content => exact .file content
  | directory hnodup _ _ ih =>
    exact .of_forall hnodup (.refl _) fun x hx => ⟨x.2, hx, ih x hx⟩

/-- A directory that lists the same entries in another order. -/
lemma of_perm (h : (Entry.directory entries).Proper) (hperm : entries.Perm entries') :
    (Entry.directory entries).Reordered (.directory entries') := by
  cases h with
  | directory hnodup _ hbelow =>
    have hnames : (entries.map Prod.fst).Perm (entries'.map Prod.fst) := hperm.map Prod.fst
    exact .of_forall (hnames.nodup_iff.mp hnodup) hnames
      fun x hx => ⟨x.2, hperm.mem_iff.mp hx, refl (hbelow x hx)⟩

/-- A name that is listed is listed. -/
lemma exists_of_mem (hnames : (entries.map Prod.fst).Perm (entries'.map Prod.fst))
    (he : (name, e) ∈ entries) : ∃ e', (name, e') ∈ entries' := by
  have hname : name ∈ entries'.map Prod.fst :=
    hnames.mem_iff.mp (List.mem_map.mpr ⟨_, he, rfl⟩)
  obtain ⟨⟨_, e'⟩, he', rfl⟩ := List.mem_map.mp hname
  exact ⟨e', he'⟩

/-- Whatever the order is, a proper tree is proper. -/
lemma proper (h : e.Reordered e') (he : e.Proper) : e'.Proper := by
  induction h with
  | file content => exact .file content
  | @directory entries entries' hnames _ ih =>
    cases he with
    | directory hnodup hnamed hbelow =>
      have hback : ∀ x ∈ entries', ∃ e, (x.1, e) ∈ entries := fun x hx =>
        exists_of_mem hnames.symm hx
      refine .directory (hnames.nodup_iff.mp hnodup) (fun x hx => ?_) fun x hx => ?_
      · obtain ⟨e, he⟩ := hback x hx
        exact hnamed (x.1, e) he
      · obtain ⟨e, he⟩ := hback x hx
        exact ih he hx (hbelow _ he)

/-- What is looked up in the one directory is looked up in the other. -/
lemma exists_lookup (h : (Entry.directory entries).Reordered (.directory entries'))
    (he : entries.lookup name = some e) :
    ∃ e', entries'.lookup name = some e' ∧ e.Reordered e' := by
  cases h with
  | directory hnames hbelow =>
    obtain ⟨e', he'⟩ := exists_of_mem hnames (mem_of_lookup he)
    cases hlookup : entries'.lookup name with
    | some found => exact ⟨found, rfl, hbelow (mem_of_lookup he) (mem_of_lookup hlookup)⟩
    | none =>
      have hnone := List.lookup_eq_none_iff.mp hlookup _ he'
      simp at hnone

/-- **What is found in the one tree is found in the other**, up to order.

**Proof sketch.** Induction on the names. Both directories list the same names, and what the one has
under the first name is up to order what the other has under it. -/
lemma exists_at? {root root' : Entry} (h : root.Reordered root') {l : List String}
    (he : root.at? l = some e) : ∃ e', root'.at? l = some e' ∧ e.Reordered e' := by
  induction l generalizing root root' with
  | nil =>
    cases he
    exact ⟨root', rfl, h⟩
  | cons name l ih =>
    obtain ⟨child, hchild, hrest⟩ := Option.bind_eq_some_iff.mp he
    cases h with
    | file content => cases hchild
    | directory hnames hbelow =>
      obtain ⟨child', hchild', hsame⟩ := exists_lookup (.directory hnames hbelow) hchild
      obtain ⟨e', he', hsame'⟩ := ih hsame hrest
      exact ⟨e', Option.bind_eq_some_iff.mpr ⟨child', hchild', he'⟩, hsame'⟩

/-- A file is found with the same content. -/
lemma at?_file_iff {root root' : Entry} (h : root.Reordered root') {l : List String}
    {content : List UInt8} :
    root.at? l = some (.file content) ↔ root'.at? l = some (.file content) := by
  have honeway : ∀ {root root' : Entry}, root.Reordered root' →
      root.at? l = some (.file content) → root'.at? l = some (.file content) := by
    intro root root' h hfile
    obtain ⟨e', he', hsame⟩ := h.exists_at? hfile
    cases hsame
    exact he'
  exact ⟨honeway h, honeway h.symm⟩

/-- Nothing has changed but the order. -/
lemma grows {root root' : Entry} (h : root.Reordered root') : Grows [] root root' where
  directory hdirectory := by
    obtain ⟨e', he', hsame⟩ := h.exists_at? hdirectory
    cases hsame with
    | directory => exact ⟨_, he'⟩
  file hfile := ⟨_, h.at?_file_iff.mp hfile, fun _ => rfl⟩

end Entry.Reordered

/-- The same files, listed in another order. -/
structure Files.Reordered (files files' : Files) : Prop where
  root : files.root.Reordered files'.root
  here : files'.here = files.here

namespace Files.Reordered

variable {files files' : Files} {path : String} {l : List String} {e : Entry}

/-- To be the same files is symmetric. -/
lemma symm (h : files.Reordered files') : files'.Reordered files := ⟨h.root.symm, h.here.symm⟩

/-- **A path leads where it did**, to what is the same up to order. -/
lemma locate (h : files.Reordered files') (he : files.locate path = .ok (.present l e)) :
    ∃ e', files'.locate path = .ok (.present l e') ∧ e.Reordered e' := by
  obtain ⟨e', hlocate, hat⟩ := locate_grows ⟨h.root.grows, h.here⟩ he
  obtain ⟨found, hfound, hsame⟩ := h.root.exists_at? (at?_of_locate he)
  obtain rfl := Option.some.inj (hat.symm.trans hfound)
  exact ⟨e', hlocate, hsame⟩

/-- **A file has the same content.**

**Proof sketch.** The path leads to a file. In the reordered tree it leads to a reordered entry at
the same location (`Reordered.locate`), and a reordered file is the file itself. -/
lemma content_eq (h : files.Reordered files') {content : List UInt8}
    (hcontent : files.content path = .ok content) : files'.content path = .ok content := by
  unfold Files.content Files.entry at hcontent
  cases hlocate : files.locate path with
  | error cause =>
    rw [hlocate] at hcontent
    cases hcontent
  | ok target =>
    rw [hlocate] at hcontent
    cases target with
    | absent directory name => cases hcontent
    | present l e =>
      cases e with
      | directory entries => cases hcontent
      | file content' =>
        cases hcontent
        obtain ⟨e', hlocate', hsame⟩ := h.locate hlocate
        cases hsame
        exact Holds.content_eq hlocate'

end Files.Reordered

end EditIdioms
