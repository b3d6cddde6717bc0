import EditIdioms.Proofs.Files.Places

set_option relaxedAutoImplicit false
set_option autoImplicit false

/-!
# Walking down a tree of files

A walk goes from a directory to what it lists, and puts each name behind the path by which it came.
As long as the names are such as files can have, and the path is not too long, the path leads to
what was listed.

## Main definitions

* `Files.IsEntryName`, `Entry.Proper` — names that files can have, and trees with such names.

## Main results

* `Path.pieces_join` — the pieces of a path below a directory.
* `Files.follow_append`, `Files.follow_append_present` — following pieces one part after another.
* `Files.locate_name`, `Files.locate_join` — the path of what a directory lists leads to it.
-/

namespace EditIdioms

/-! ## Paths below a directory -/

namespace Path

/-- A name without slashes is not absolute. -/
lemma isAbsolute_of_notMem {name : String} (h : '/' ∉ name.toList) : isAbsolute name = false := by
  unfold isAbsolute
  cases hname : name.toList with
  | nil => rfl
  | cons c cs =>
    rw [hname] at h
    have hc : c ≠ '/' := fun hc => h (hc ▸ List.mem_cons_self)
    simpa using hc

variable {base name : String}

/-- **The pieces of a path below a directory** are those of the directory and the name; a slash at
the end of the directory is not followed by an empty piece any more.

**Proof sketch.** If the directory ends with a slash, that is the slash in front of the name, and
its pieces end with the empty one behind it, which the name replaces. Otherwise a slash is put
between, and all pieces stay. In both cases a text is cut at a slash into the pieces of both sides
(`split_append_slash`), and the name is one piece. -/
lemma pieces_join (hbase : base ≠ "") (hname : '/' ∉ name.toList) :
    ∃ front, (pieces base = front ∨ pieces base = front ++ [""]) ∧
      pieces (join base name) = front ++ [name] := by
  unfold join
  rw [isAbsolute_of_notMem hname, if_neg Bool.false_ne_true]
  by_cases hopen : endsOpen base
  · rw [if_pos hopen]
    unfold endsOpen at hopen
    rcases List.eq_nil_or_concat base.toList with hempty | ⟨front, c, hconcat⟩
    · exact absurd (String.toList_eq_nil_iff.mp hempty) hbase
    rw [List.concat_eq_append] at hconcat
    rw [hconcat, List.getLast?_concat, Option.all_some] at hopen
    obtain rfl := eq_of_beq hopen
    refine ⟨(split front).map String.ofList, .inr ?_, ?_⟩
    · rw [pieces, hconcat, split_append_slash, List.map_append]
      rfl
    · rw [pieces, String.toList_append, hconcat, List.append_assoc, List.singleton_append,
        split_append_slash, split_of_notMem hname, List.map_append, List.map_singleton,
        String.ofList_toList]
  · rw [if_neg hopen]
    refine ⟨pieces base, .inl rfl, ?_⟩
    rw [pieces, String.toList_append, String.toList_append, List.append_assoc]
    change List.map _ (split (base.toList ++ '/' :: name.toList)) = _
    rw [split_append_slash, split_of_notMem hname, List.map_append, List.map_singleton,
      String.ofList_toList]
    rfl

/-- The characters of a path below a directory. -/
lemma mem_toList_join (hname : '/' ∉ name.toList) {c : Char} (hc : c ≠ '/') :
    c ∈ (join base name).toList ↔ c ∈ base.toList ∨ c ∈ name.toList := by
  unfold join
  rw [isAbsolute_of_notMem hname, if_neg Bool.false_ne_true]
  split
  · rw [String.toList_append, List.mem_append]
  · simp [String.toList_append, hc]

/-- A path below a directory starts where the directory does. -/
lemma isAbsolute_join (hbase : base ≠ "") (hname : '/' ∉ name.toList) :
    isAbsolute (join base name) = isAbsolute base := by
  have hne : base.toList ≠ [] := fun h => hbase (String.toList_eq_nil_iff.mp h)
  have hhead : ∀ rest : String, isAbsolute (base ++ rest) = isAbsolute base := by
    intro rest
    unfold isAbsolute
    rw [String.toList_append, List.head?_append_of_ne_nil _ hne]
  unfold join
  rw [isAbsolute_of_notMem hname, if_neg Bool.false_ne_true]
  split
  · exact hhead name
  · rw [String.append_assoc]
    exact hhead _

/-- A path below a directory is not empty. -/
lemma join_ne_empty (hbase : base ≠ "") (hname : '/' ∉ name.toList) : join base name ≠ "" := by
  intro h
  unfold join at h
  rw [isAbsolute_of_notMem hname, if_neg Bool.false_ne_true] at h
  split at h
  · exact hbase (String.append_eq_empty_iff.mp h).1
  · rw [String.append_assoc] at h
    exact hbase (String.append_eq_empty_iff.mp h).1

end Path

namespace Files

/-- A name that a file or a directory can have. -/
structure IsEntryName (name : String) : Prop where
  isName : IsName name
  slashless : '/' ∉ name.toList
  nulless : '\x00' ∉ name.toList

instance (name : String) : Decidable (IsEntryName name) :=
  have : Decidable (IsName name) := inferInstanceAs (Decidable (_ ∧ _ ∧ _ ∧ _))
  decidable_of_iff (IsName name ∧ '/' ∉ name.toList ∧ '\x00' ∉ name.toList)
    ⟨fun ⟨h, h', h''⟩ => ⟨h, h', h''⟩, fun ⟨h, h', h''⟩ => ⟨h, h', h''⟩⟩

end Files

/-- What a directory lists has names that files can have, and no two have the same one. -/
inductive Entry.Proper : Entry → Prop
  | file (content : List UInt8) : Proper (.file content)
  | directory {entries : List (String × Entry)} (nodup : (entries.map Prod.fst).Nodup)
    (named : ∀ x ∈ entries, Files.IsEntryName x.1) (below : ∀ x ∈ entries, Proper x.2) :
    Proper (.directory entries)

mutual

/-- Whether names are such as files can have is decided from the leaves up. -/
def Entry.decideProper : (e : Entry) → Decidable e.Proper
  | .file content => .isTrue (.file content)
  | .directory entries =>
    have := decideBelow entries
    decidable_of_iff ((entries.map Prod.fst).Nodup ∧ (∀ x ∈ entries, Files.IsEntryName x.1) ∧
        ∀ x ∈ entries, x.2.Proper)
      ⟨fun ⟨nodup, named, below⟩ => .directory nodup named below,
        fun | .directory nodup named below => ⟨nodup, named, below⟩⟩

/-- Whether they are so below each entry of a directory. -/
def Entry.decideBelow : (entries : List (String × Entry)) → Decidable (∀ x ∈ entries, x.2.Proper)
  | [] => .isTrue nofun
  | (name, e) :: rest =>
    have := e.decideProper
    have := decideBelow rest
    have hsplit : (∀ x ∈ (name, e) :: rest, x.2.Proper) ↔ e.Proper ∧ ∀ x ∈ rest, x.2.Proper :=
      List.forall_mem_cons
    decidable_of_iff _ hsplit.symm

end

instance (e : Entry) : Decidable e.Proper := e.decideProper

namespace Entry

/-- What a directory lists is looked up by its name. -/
lemma lookup_of_mem {entries : List (String × Entry)} (hnodup : (entries.map Prod.fst).Nodup)
    {name : String} {e : Entry} (h : (name, e) ∈ entries) : entries.lookup name = some e := by
  induction entries with
  | nil => cases h
  | cons x rest ih =>
    obtain ⟨first, e'⟩ := x
    rw [List.map_cons, List.nodup_cons] at hnodup
    rw [lookup_cons_eq]
    rcases List.mem_cons.mp h with heq | hrest
    · cases heq
      rw [if_pos rfl]
    · have hne : name ≠ first := by
        rintro rfl
        exact hnodup.1 (List.mem_map.mpr ⟨_, hrest, rfl⟩)
      rw [if_neg hne]
      exact ih hnodup.2 hrest

/-- What is looked up is listed. -/
lemma mem_of_lookup {entries : List (String × Entry)} {name : String} {e : Entry}
    (h : entries.lookup name = some e) : (name, e) ∈ entries := by
  induction entries with
  | nil => cases h
  | cons x rest ih =>
    obtain ⟨first, e'⟩ := x
    rw [lookup_cons_eq] at h
    split at h
    · rename_i heq
      cases h
      rw [heq]
      exact List.mem_cons_self
    · exact List.mem_cons_of_mem _ (ih h)

/-- What stands in a proper tree is proper. -/
lemma Proper.of_at? {root e : Entry} {l : List String} (hroot : root.Proper)
    (h : root.at? l = some e) : e.Proper := by
  induction l generalizing root with
  | nil =>
    cases h
    exact hroot
  | cons name l ih =>
    rw [at?] at h
    obtain ⟨child, hchild, hrest⟩ := Option.bind_eq_some_iff.mp h
    cases hroot with
    | file content => cases hchild
    | directory _ _ hbelow => exact ih (hbelow _ (mem_of_lookup hchild)) hrest

end Entry

namespace Files

open Entry

variable {root : Entry} {start l : List String} {pieces rest : List String} {e : Entry}

/-! ## Following pieces -/

/-- **Following pieces one part after another.** -/
lemma follow_append (h : follow root start pieces = .ok (.present l e)) (rest : List String) :
    follow root start (pieces ++ rest) = follow root l rest := by
  induction pieces generalizing start with
  | nil =>
    obtain ⟨x, -, htarget⟩ := follow_nil_eq_ok h
    cases htarget
    rfl
  | cons piece pieces ih =>
    obtain ⟨entries, hstart, ⟨next, hleads, hnext⟩ | ⟨-, htarget⟩⟩ := follow_cons_eq_ok h
    · rw [List.cons_append, follow_of_leads hstart hleads]
      exact ih hnext
    · cases htarget

/-- What leads to something leads somewhere with its first part.

**Proof sketch.** Induction on the first part. If it is empty, it leads to the start, where
something is, as the rest leads on from there or is empty too. Otherwise its first piece leads on
(`follow_cons_eq_ok`), since a missing name would be the target, and the target is present. -/
lemma follow_append_present (h : follow root start (pieces ++ rest) = .ok (.present l e)) :
    ∃ l' e', follow root start pieces = .ok (.present l' e') ∧
      follow root l' rest = .ok (.present l e) := by
  induction pieces generalizing start with
  | nil =>
    rw [List.nil_append] at h
    have hat : ∃ e', root.at? start = some e' := by
      cases rest with
      | nil =>
        obtain ⟨x, hx, -⟩ := follow_nil_eq_ok h
        exact ⟨x, hx⟩
      | cons piece rest =>
        obtain ⟨entries, hstart, -⟩ := follow_cons_eq_ok h
        exact ⟨_, hstart⟩
    obtain ⟨e', he'⟩ := hat
    exact ⟨start, e', by rw [follow, he'], h⟩
  | cons piece pieces ih =>
    rw [List.cons_append] at h
    obtain ⟨entries, hstart, ⟨next, hleads, hnext⟩ | ⟨-, htarget⟩⟩ := follow_cons_eq_ok h
    · obtain ⟨l', e', hfirst, hrest⟩ := ih hnext
      exact ⟨l', e', (follow_of_leads hstart hleads _).trans hfirst, hrest⟩
    · cases htarget

/-- An empty piece leads nowhere else. -/
lemma follow_append_empty (h : follow root start (pieces ++ [""]) = .ok (.present l e)) :
    follow root start pieces = .ok (.present l e) := by
  obtain ⟨l', e', hfirst, hrest⟩ := follow_append_present h
  obtain ⟨entries, hstart, ⟨next, hleads, hnext⟩ | ⟨-, htarget⟩⟩ := follow_cons_eq_ok hrest
  · rw [follow_of_leads hstart (.stay (.inl rfl))] at hrest
    obtain ⟨x, hx, htarget⟩ := follow_nil_eq_ok hrest
    cases htarget
    cases (at?_of_follow hfirst).symm.trans hx
    exact hfirst
  · cases htarget

/-! ## Paths -/

variable {files : Files} {base name : String} {entries : List (String × Entry)}

/-- What leads somewhere is a path that is not empty, has no NUL and is not too long. -/
lemma locate_eq_ok_iff {path : String} {target : Target} :
    files.locate path = .ok target ↔
      path ≠ "" ∧ '\x00' ∉ path.toList ∧ Path.isTooLong path = false ∧
        follow files.root (if Path.isAbsolute path then [] else files.here) (Path.pieces path) =
          .ok target :=
  locatePieces_eq_ok_iff

/-- A name leads to what is listed where relative paths start. -/
lemma locate_name (hhere : files.root.at? files.here = some (.directory entries))
    (hname : IsEntryName name) (he : entries.lookup name = some e) :
    files.locate name = .ok (.present (files.here ++ [name]) e) := by
  obtain ⟨⟨hempty, hdot, hdots, hshort⟩, hslash, hnul⟩ := hname
  have hlong : Path.isTooLong name = false := by
    unfold Path.isTooLong Path.limit
    unfold nameLimit at hshort
    rw [decide_eq_false_iff_not]
    omega
  have hchild : files.root.at? (files.here ++ [name]) = some e :=
    (at?_append_singleton hhere name).trans he
  refine locate_eq_ok_iff.mpr ⟨hempty, hnul, hlong, ?_⟩
  rw [Path.isAbsolute_of_notMem hslash, if_neg Bool.false_ne_true, Path.pieces_of_notMem hslash,
    follow_of_leads hhere (.down ⟨hempty, hdot, hdots, hshort⟩ hchild), follow, hchild]

/-- **The path of what a directory lists leads to it**, unless it is too long.

**Proof sketch.** The joined path is not empty, has no NUL, is not too long by assumption, and
starts where the directory's path starts. Its pieces are those of the directory, perhaps less an
empty one at the end, and the name. The former lead to the directory, and from there the name leads
down to its entry. -/
lemma locate_join (h : files.locate base = .ok (.present l (.directory entries)))
    (hname : IsEntryName name) (he : entries.lookup name = some e)
    (hlong : Path.isTooLong (Path.join base name) = false) :
    files.locate (Path.join base name) = .ok (.present (l ++ [name]) e) := by
  obtain ⟨hbase, hnul, -, hfollow⟩ := locate_eq_ok_iff.mp h
  refine locate_eq_ok_iff.mpr ⟨Path.join_ne_empty hbase hname.slashless, ?_, hlong, ?_⟩
  · rw [Path.mem_toList_join hname.slashless (by decide), not_or]
    exact ⟨hnul, hname.nulless⟩
  · rw [Path.isAbsolute_join hbase hname.slashless]
    generalize (if Path.isAbsolute base then [] else files.here) = start at hfollow
    obtain ⟨front, hfront, hpieces⟩ := Path.pieces_join hbase hname.slashless
    have hdirectory : follow files.root start front = .ok (.present l (.directory entries)) := by
      rcases hfront with hfront | hfront
      · rwa [hfront] at hfollow
      · rw [hfront] at hfollow
        exact follow_append_empty hfollow
    have hat := at?_of_follow hdirectory
    have hchild : files.root.at? (l ++ [name]) = some e := (at?_append_singleton hat name).trans he
    rw [hpieces, follow_append hdirectory, follow_of_leads hat (.down hname.isName hchild), follow,
      hchild]

end Files

end EditIdioms
