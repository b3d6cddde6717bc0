import EditIdioms.Files.Entry
import Mathlib.Data.List.Basic
import Mathlib.Tactic.Lemma

set_option relaxedAutoImplicit false
set_option autoImplicit false

/-!
# Putting entries into a tree

An entry that is put into a tree is found where it was put, and everything else is where it was. As
files and directories do not take each other's place here, a tree only ever grows: what was a
directory still is one, what was a file still is one, and files that were not touched have the same
content (`Grows`).

## Main definitions

* `Entry.Grows` — what is kept from one tree to a later one.

## Main results

* `at?_put_self`, `at?_put_new` — an entry is found where it was put.
* `at?_of_put` — what is found was there before, or was put there.
* `grows_put` — putting a file in place of a file, or anything where nothing is, lets a tree grow.
-/

namespace EditIdioms

namespace Entry

/-! ## Looking up -/

/-- What stands at a location below another one is found by going to the one and then to the
other. -/
lemma at?_append (e : Entry) (l l' : List String) :
    e.at? (l ++ l') = (e.at? l).bind (·.at? l') := by
  induction l generalizing e with
  | nil => rfl
  | cons name l ih =>
    rw [List.cons_append, at?, at?]
    cases e.child? name with
    | none => rfl
    | some child => exact ih child

/-- What stands below a directory under a name is what the directory lists under it. -/
lemma at?_append_singleton {e : Entry} {l : List String} {entries : List (String × Entry)}
    (h : e.at? l = some (.directory entries)) (name : String) :
    e.at? (l ++ [name]) = entries.lookup name := by
  rw [at?_append, h, Option.bind_some, at?]
  change (entries.lookup name).bind some = _
  exact Option.bind_fun_some _

/-- The first entry of a directory is looked up by its name. -/
lemma lookup_cons_eq (name : String) (e : Entry) (entries : List (String × Entry))
    (other : String) :
    ((name, e) :: entries).lookup other =
      if other = name then some e else entries.lookup other := by
  rw [List.lookup_cons]
  by_cases h : other = name
  · rw [if_pos h, h, beq_self_eq_true]
  · rw [if_neg h, beq_false_of_ne h]

/-- Only the name that is put gets a new entry. -/
lemma lookup_putChild (name : String) (new : Entry) (entries : List (String × Entry))
    (other : String) :
    (putChild name new entries).lookup other =
      if other = name then some new else entries.lookup other := by
  induction entries with
  | nil => rw [putChild, lookup_cons_eq]
  | cons entry rest ih =>
    obtain ⟨first, e⟩ := entry
    rw [putChild]
    by_cases hfirst : first = name
    · subst hfirst
      rw [if_pos rfl, lookup_cons_eq, lookup_cons_eq]
      by_cases h : other = first
      · rw [if_pos h, if_pos h]
      · rw [if_neg h, if_neg h, if_neg h]
    · rw [if_neg hfirst, lookup_cons_eq, lookup_cons_eq, ih]
      by_cases h : other = first
      · rw [if_pos h, if_pos h, if_neg fun ho => hfirst (h.symm.trans ho)]
      · rw [if_neg h, if_neg h]

/-- What is below a directory after an entry was put somewhere below it.

**Proof sketch.** The entry goes into the child with the first name, or becomes a new child if that
name is missing and it is the last one; if more names follow, nothing is put anywhere. Looking up
another name does not see the child (`lookup_putChild`), and looking up this one leads into it. -/
lemma at?_put_cons (entries : List (String × Entry)) (name : String) (rest : List String)
    (new : Entry) (other : String) (l : List String) :
    ((directory entries).put (name :: rest) new).at? (other :: l) =
      if other = name then
        match entries.lookup name with
        | some e => (e.put rest new).at? l
        | none => if rest = [] then new.at? l else none
      else (directory entries).at? (other :: l) := by
  rw [put]
  cases hname : entries.lookup name with
  | some e =>
    change ((putChild name (e.put rest new) entries).lookup other).bind _ = _
    rw [lookup_putChild]
    by_cases h : other = name
    · rw [if_pos h, if_pos h]
      rfl
    · rw [if_neg h, if_neg h]
      rfl
  | none =>
    by_cases hrest : rest = []
    · rw [if_pos (by simp [hrest])]
      change ((putChild name new entries).lookup other).bind _ = _
      rw [lookup_putChild]
      by_cases h : other = name
      · rw [if_pos h, if_pos h, if_pos hrest]
        rfl
      · rw [if_neg h, if_neg h]
        rfl
    · rw [if_neg (by simp [hrest])]
      by_cases h : other = name
      · rw [if_pos h, if_neg hrest, h]
        change (entries.lookup name).bind _ = _
        rw [hname]
        rfl
      · rw [if_neg h]

/-- What takes the place of something is found there. -/
lemma at?_put_self {root e : Entry} {p : List String} (h : root.at? p = some e) (new : Entry) :
    (root.put p new).at? p = some new := by
  induction p generalizing root with
  | nil => rfl
  | cons name p ih =>
    cases root with
    | file content => cases h
    | directory entries =>
      rw [at?_put_cons, if_pos rfl]
      change (entries.lookup name).bind _ = some e at h
      cases hname : entries.lookup name with
      | none =>
        rw [hname] at h
        cases h
      | some child =>
        rw [hname] at h
        exact ih h

/-- What is put into a directory is found there.

**Proof sketch.** Induction on the way down to the directory. At its end the name is put into the
directory and found there. On the way each name leads to a child, and the entry is put into that
child. -/
lemma at?_put_new {root : Entry} {d : List String} {entries : List (String × Entry)}
    (h : root.at? d = some (.directory entries)) (name : String) (new : Entry) :
    (root.put (d ++ [name]) new).at? (d ++ [name]) = some new := by
  induction d generalizing root with
  | nil =>
    cases h
    rw [List.nil_append, at?_put_cons, if_pos rfl]
    cases entries.lookup name <;> rfl
  | cons first d ih =>
    cases root with
    | file content => cases h
    | directory entries' =>
      change (entries'.lookup first).bind _ = _ at h
      rw [List.cons_append, at?_put_cons, if_pos rfl]
      cases hfirst : entries'.lookup first with
      | none =>
        rw [hfirst] at h
        cases h
      | some child =>
        rw [hfirst] at h
        exact ih h

/-- **What is there after an entry was put somewhere** was there before, or belongs to the entry.

**Proof sketch.** Induction on the place. At the place itself everything that is found belongs to
the new entry. Further above, what is found under another name was there before (`at?_put_cons`).
What is found under the next name is in the child, where the induction applies, or in the new entry
if there was no child. Into a file nothing is put. -/
lemma at?_of_put {root new x : Entry} {p l : List String} (h : (root.put p new).at? l = some x) :
    (∃ y, root.at? l = some y) ∨ ∃ rest, l = p ++ rest ∧ new.at? rest = some x := by
  induction p generalizing root l with
  | nil => exact .inr ⟨l, rfl, h⟩
  | cons name p ih =>
    cases root with
    | file content => exact .inl ⟨x, h⟩
    | directory entries =>
    cases l with
    | nil => exact .inl ⟨_, rfl⟩
    | cons other l =>
    rw [at?_put_cons] at h
    by_cases hother : other = name
    · subst hother
      rw [if_pos rfl] at h
      cases hchild : entries.lookup other with
      | some e =>
        rw [hchild] at h
        rcases ih h with ⟨y, hy⟩ | ⟨rest, rfl, hrest⟩
        · refine .inl ⟨y, ?_⟩
          change (entries.lookup other).bind _ = _
          rw [hchild]
          exact hy
        · exact .inr ⟨rest, rfl, hrest⟩
      | none =>
        rw [hchild] at h
        by_cases hp : p = []
        · rw [hp] at h ⊢
          exact .inr ⟨l, rfl, h⟩
        · exact absurd (h.symm.trans (if_neg hp)) nofun
    · rw [if_neg hother] at h
      exact .inl ⟨x, h⟩

/-! ## Growing -/

/-- Directories and files are still there, and files that are not among `touched` have not
changed. -/
structure Grows (touched : List (List String)) (e e' : Entry) : Prop where
  directory : ∀ {l entries}, e.at? l = some (.directory entries) →
    ∃ entries', e'.at? l = some (.directory entries')
  file : ∀ {l content}, e.at? l = some (.file content) →
    ∃ content', e'.at? l = some (.file content') ∧ (l ∉ touched → content' = content)

variable {touched touched' : List (List String)} {e e' e'' : Entry}

/-- Where nothing has happened, no location was touched. -/
lemma Grows.refl (e : Entry) : Grows [] e e :=
  ⟨fun h => ⟨_, h⟩, fun h => ⟨_, h, fun _ => rfl⟩⟩

/-- A file or directory is still there. -/
lemma Grows.exists_at? (h : Grows touched e e') {l : List String} {x : Entry}
    (hx : e.at? l = some x) : ∃ x', e'.at? l = some x' := by
  cases x with
  | file content =>
    obtain ⟨content', h', -⟩ := h.file hx
    exact ⟨_, h'⟩
  | directory entries =>
    obtain ⟨entries', h'⟩ := h.directory hx
    exact ⟨_, h'⟩

/-- More locations may have been touched than it takes. -/
lemma Grows.mono (h : Grows touched e e') (hsub : touched ⊆ touched') : Grows touched' e e' := by
  refine ⟨h.directory, fun hfile => ?_⟩
  obtain ⟨content', h', hsame⟩ := h.file hfile
  exact ⟨content', h', fun hl => hsame fun hmem => hl (hsub hmem)⟩

/-- One thing has happened after the other. -/
lemma Grows.trans (h : Grows touched e e') (h' : Grows touched' e' e'') :
    Grows (touched ++ touched') e e'' := by
  refine ⟨fun hdir => ?_, fun hfile => ?_⟩
  · obtain ⟨entries', hdir'⟩ := h.directory hdir
    exact h'.directory hdir'
  · obtain ⟨content', hfile', hsame⟩ := h.file hfile
    obtain ⟨content'', hfile'', hsame'⟩ := h'.file hfile'
    refine ⟨content'', hfile'', fun hl => ?_⟩
    rw [List.mem_append, not_or] at hl
    rw [hsame' hl.2, hsame hl.1]

/-- A location without a file cannot have been touched. -/
lemma Grows.of_absent {p : List String} (h : Grows [p] e e') (hp : e.at? p = none) :
    Grows [] e e' := by
  refine ⟨h.directory, fun {l content} hfile => ?_⟩
  obtain ⟨content', h', hsame⟩ := h.file hfile
  refine ⟨content', h', fun _ => hsame ?_⟩
  rw [List.mem_singleton]
  rintro rfl
  rw [hp] at hfile
  cases hfile

/-- What is below a directory grows if all its entries do.

**Proof sketch.** A location below the directory starts with a name. Under another name nothing has
changed. Under this one the child has grown, so directories are still directories and files still
files, and a file whose location was not touched keeps its content: its location in the child was
not touched either. -/
lemma grows_directory {p : List String} {name : String} {entries entries' : List (String × Entry)}
    (hother : ∀ other, other ≠ name → entries'.lookup other = entries.lookup other)
    (hname : ∀ x, entries.lookup name = some x →
      ∃ x', entries'.lookup name = some x' ∧ Grows [p] x x') :
    Grows [name :: p] (directory entries) (directory entries') := by
  constructor
  · intro l found h
    cases l with
    | nil => exact ⟨entries', rfl⟩
    | cons other l =>
      change (entries.lookup other).bind _ = _ at h
      change ∃ found', (entries'.lookup other).bind _ = _
      by_cases ho : other = name
      · subst ho
        obtain ⟨x, hx, hl⟩ := Option.bind_eq_some_iff.mp h
        obtain ⟨x', hx', hgrows⟩ := hname x hx
        rw [hx']
        exact hgrows.directory hl
      · rw [hother other ho, h]
        exact ⟨found, rfl⟩
  · intro l content h
    cases l with
    | nil => cases h
    | cons other l =>
      change (entries.lookup other).bind _ = _ at h
      change ∃ content', (entries'.lookup other).bind _ = _ ∧ _
      by_cases ho : other = name
      · subst ho
        obtain ⟨x, hx, hl⟩ := Option.bind_eq_some_iff.mp h
        obtain ⟨x', hx', hgrows⟩ := hname x hx
        rw [hx']
        obtain ⟨content', h', hsame⟩ := hgrows.file hl
        refine ⟨content', h', fun hmem => hsame fun hl => hmem ?_⟩
        rw [List.mem_singleton] at hl ⊢
        rw [hl]
      · rw [hother other ho, h]
        exact ⟨content, rfl, fun _ => rfl⟩

/-- **Putting an entry** in place of nothing, or a file in place of a file, lets a tree grow.

**Proof sketch.** Induction on the location. Only what is below its first name can change, and there
the rest of the location is the place where the entry is put. -/
lemma grows_put {root new : Entry} {p : List String}
    (h : ∀ x, root.at? p = some x → x.isDirectory = false ∧ new.isDirectory = false) :
    Grows [p] root (root.put p new) := by
  induction p generalizing root with
  | nil =>
    obtain ⟨hroot, hnew⟩ := h root rfl
    cases root with
    | directory entries => cases hroot
    | file content =>
      cases new with
      | directory entries => cases hnew
      | file content' =>
        constructor
        · intro l entries hl
          cases l <;> cases hl
        · intro l content hl
          cases l with
          | nil => exact ⟨content', rfl, fun hmem => absurd List.mem_cons_self hmem⟩
          | cons name l => cases hl
  | cons name p ih =>
    cases root with
    | file content => exact (Grows.refl _).mono (List.nil_subset _)
    | directory entries =>
      rw [put]
      cases hname : entries.lookup name with
      | some e =>
        refine grows_directory (fun other ho => ?_) fun x hx => ?_
        · rw [lookup_putChild, if_neg ho]
        · obtain rfl : e = x := Option.some.inj (hname.symm.trans hx)
          refine ⟨e.put p new, by rw [lookup_putChild, if_pos rfl], ih fun y hy => h y ?_⟩
          change (entries.lookup name).bind _ = _
          rw [hname]
          exact hy
      | none =>
        dsimp only
        split
        · refine grows_directory (fun other ho => ?_) fun x hx => ?_
          · rw [lookup_putChild, if_neg ho]
          · rw [hname] at hx
            cases hx
        · exact (Grows.refl _).mono (List.nil_subset _)

end Entry

end EditIdioms
