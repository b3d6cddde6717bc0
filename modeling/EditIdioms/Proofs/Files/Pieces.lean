import EditIdioms.Files.Path
import Mathlib.Data.List.Basic
import Mathlib.Tactic.Lemma

set_option relaxedAutoImplicit false
set_option autoImplicit false

/-!
# The pieces of a path

Which piece of a path comes last: a path that does not end with a slash has a last piece that is not
empty, and a name below a directory is the last piece of its path.

## Main results

* `split_append_slash` — a slash separates the pieces before it from those behind it.
* `barePieces_eq_pieces` — a path that does not end with a slash has no empty pieces at its end.
* `getLast?_pieces_join` — the last piece of a path below a directory.
* `getLast?_pieces_of_suffix` — the last piece ends as the path does.
* `suffix_join_iff` — a path below a directory ends as the path it has there.
-/

namespace EditIdioms.Path

/-- Every text has pieces. -/
lemma split_ne_nil (cs : List Char) : split cs ≠ [] := by
  cases cs with
  | nil => exact List.cons_ne_nil _ _
  | cons c cs =>
    unfold split
    split
    · exact List.cons_ne_nil _ _
    · split <;> exact List.cons_ne_nil _ _

/-- A slash in front separates an empty piece from the others. -/
lemma split_cons_slash (cs : List Char) : split ('/' :: cs) = [] :: split cs := by
  rw [split, if_pos rfl]

/-- Any other character belongs to the first piece. -/
lemma split_cons_of_ne {c : Char} (hc : c ≠ '/') {cs piece : List Char} {rest : List (List Char)}
    (h : split cs = piece :: rest) : split (c :: cs) = (c :: piece) :: rest := by
  rw [split, if_neg hc, h]

/-- **A slash separates** the pieces before it from those behind it. -/
lemma split_append_slash (cs cs' : List Char) :
    split (cs ++ '/' :: cs') = split cs ++ split cs' := by
  induction cs with
  | nil => exact split_cons_slash cs'
  | cons c cs ih =>
    rw [List.cons_append]
    by_cases hc : c = '/'
    · rw [hc, split_cons_slash, split_cons_slash, ih, List.cons_append]
    · obtain ⟨piece, rest, h⟩ := List.exists_cons_of_ne_nil (split_ne_nil cs)
      rw [h, List.cons_append] at ih
      rw [split_cons_of_ne hc h, split_cons_of_ne hc ih, List.cons_append]

/-- A text without slashes is its only piece. -/
lemma split_of_notMem {cs : List Char} (h : '/' ∉ cs) : split cs = [cs] := by
  induction cs with
  | nil => rfl
  | cons c cs ih =>
    rw [List.mem_cons, not_or] at h
    exact split_cons_of_ne (Ne.symm h.1) (ih h.2)

/-- What comes behind the last slash is not empty unless the text ends with a slash.

**Proof sketch.** Induction on the text. A text of one letter that is no slash is one piece.
Otherwise the last piece is the one of the text without its first letter: a slash in front adds a
piece in front, and any other letter is added to the first piece, which is the last one only if
there is no other, and then it is not empty. -/
lemma getLast?_split_ne {cs : List Char} {c : Char} (h : cs.getLast? = some c) (hc : c ≠ '/') :
    (split cs).getLast? ≠ some [] := by
  induction cs with
  | nil => cases h
  | cons first cs ih =>
    cases cs with
    | nil =>
      cases h
      rw [split_of_notMem (by simpa using Ne.symm hc)]
      simp
    | cons second cs =>
      rw [List.getLast?_cons_cons] at h
      obtain ⟨piece, rest, hsplit⟩ := List.exists_cons_of_ne_nil (split_ne_nil (second :: cs))
      by_cases hfirst : first = '/'
      · rw [hfirst, split_cons_slash, hsplit, List.getLast?_cons_cons, ← hsplit]
        exact ih h
      · rw [split_cons_of_ne hfirst hsplit]
        cases rest with
        | nil => simp
        | cons next rest =>
          rw [List.getLast?_cons_cons]
          have := ih h
          rwa [hsplit, List.getLast?_cons_cons] at this

/-- Every path has pieces. -/
lemma pieces_ne_nil (path : String) : pieces path ≠ [] :=
  fun h => split_ne_nil _ (List.map_eq_nil_iff.mp h)

/-- The last piece of a path is not empty unless the path ends with a slash. -/
lemma getLast?_pieces_ne {path : String} (h : endsOpen path = false) :
    (pieces path).getLast? ≠ some "" := by
  unfold endsOpen at h
  cases hlast : path.toList.getLast? with
  | none =>
    rw [hlast] at h
    cases h
  | some c =>
    rw [hlast] at h
    have hc : c ≠ '/' := by simpa using h
    intro hpiece
    unfold pieces at hpiece
    rw [List.getLast?_map, Option.map_eq_some_iff] at hpiece
    obtain ⟨piece, hpiece, hempty⟩ := hpiece
    rw [String.ofList_eq_empty_iff] at hempty
    exact getLast?_split_ne hlast hc (by rw [hpiece, hempty])

/-- **A path that does not end with a slash** has no empty pieces at its end. -/
lemma barePieces_eq_pieces {path : String} (h : endsOpen path = false) :
    barePieces path = pieces path := by
  have hlast := getLast?_pieces_ne h
  rw [← List.head?_reverse] at hlast
  have hkeep : (pieces path).reverse.dropWhile (·.isEmpty) = (pieces path).reverse := by
    cases hreverse : (pieces path).reverse with
    | nil => rfl
    | cons last before =>
      rw [hreverse, List.head?_cons] at hlast
      refine List.dropWhile_cons_of_neg fun hempty => hlast ?_
      rw [String.isEmpty_iff.mp hempty]
  rw [barePieces, hkeep, List.reverse_reverse]

/-- A path without slashes is its only piece. -/
lemma pieces_of_notMem {name : String} (h : '/' ∉ name.toList) : pieces name = [name] := by
  rw [pieces, split_of_notMem h, List.map_singleton, String.ofList_toList]

/-- The pieces behind a slash come last. -/
lemma getLast?_pieces_append (front : List Char) {path name : String}
    (hpath : path.toList = front ++ '/' :: name.toList) (hname : '/' ∉ name.toList) :
    (pieces path).getLast? = some name := by
  rw [pieces, hpath, split_append_slash, split_of_notMem hname, List.map_append,
    List.map_singleton, String.ofList_toList, List.getLast?_append]
  rfl

/-- **The last piece of a path below a directory** is the name there.

**Proof sketch.** A name without slashes is one piece. Joined to a base it stands behind a slash,
whether the base ends with one or one is put between, and behind the last slash of a text stands its
last piece (`getLast?_pieces_append`). If the base is empty, or the name replaces it, the path is
the name. -/
lemma getLast?_pieces_join {name : String} (hname : '/' ∉ name.toList) (base : String) :
    (pieces (join base name)).getLast? = some name := by
  have halone : (pieces name).getLast? = some name := by
    rw [pieces_of_notMem hname]
    rfl
  unfold join
  by_cases habsolute : isAbsolute name
  · rw [if_pos habsolute]
    exact halone
  rw [if_neg habsolute]
  by_cases hopen : endsOpen base
  · rw [if_pos hopen]
    unfold endsOpen at hopen
    rcases List.eq_nil_or_concat base.toList with hempty | ⟨front, c, hconcat⟩
    · rw [String.toList_eq_nil_iff.mp hempty, String.empty_append]
      exact halone
    · rw [hconcat, List.concat_eq_append, List.getLast?_concat, Option.all_some] at hopen
      refine getLast?_pieces_append front ?_ hname
      rw [String.toList_append, hconcat, List.concat_eq_append, eq_of_beq hopen,
        List.append_assoc]
      rfl
  · rw [if_neg hopen]
    refine getLast?_pieces_append base.toList ?_ hname
    rw [String.toList_append, String.toList_append, List.append_assoc]
    rfl

/-- What comes behind the last slash of a text ends as the text does.

**Proof sketch.** Induction on the part in front. A slash adds a piece in front of the others and
leaves the last one as it is. Any other letter is added to the first piece; if that is the only one,
it is also the last one and gets the letter in front of what it has. -/
lemma getLast?_split_append (front : List Char) {tail : List Char} (h : '/' ∉ tail) :
    ∃ piece, (split (front ++ tail)).getLast? = some (piece ++ tail) := by
  induction front with
  | nil => exact ⟨[], by rw [List.nil_append, split_of_notMem h]; rfl⟩
  | cons c front ih =>
    obtain ⟨piece, hpiece⟩ := ih
    obtain ⟨first, rest, hsplit⟩ := List.exists_cons_of_ne_nil (split_ne_nil (front ++ tail))
    rw [hsplit] at hpiece
    rw [List.cons_append]
    by_cases hc : c = '/'
    · rw [hc, split_cons_slash, hsplit, List.getLast?_cons_cons]
      exact ⟨piece, hpiece⟩
    · rw [split_cons_of_ne hc hsplit]
      cases rest with
      | nil =>
        obtain rfl : first = piece ++ tail := Option.some.inj hpiece
        exact ⟨c :: piece, rfl⟩
      | cons second rest =>
        rw [List.getLast?_cons_cons] at hpiece ⊢
        exact ⟨piece, hpiece⟩

/-- **The last piece of a path ends as the path does**, up to its last slash. -/
lemma getLast?_pieces_of_suffix {path : String} {tail : List Char} (h : tail <:+ path.toList)
    (htail : '/' ∉ tail) :
    ∃ piece, (pieces path).getLast? = some piece ∧ tail <:+ piece.toList := by
  obtain ⟨front, hfront⟩ := h
  obtain ⟨piece, hpiece⟩ := getLast?_split_append front htail
  refine ⟨String.ofList (piece ++ tail), ?_, ?_⟩
  · rw [pieces, ← hfront, List.getLast?_map, hpiece]
    rfl
  · rw [String.toList_ofList]
    exact List.suffix_append ..

/-- An ending without slashes is an ending of what is behind a slash. -/
lemma suffix_append_slash_iff {ending cs cs' : List Char} (h : '/' ∉ ending) :
    ending <:+ cs ++ '/' :: cs' ↔ ending <:+ cs' := by
  constructor
  · intro hending
    rcases List.suffix_or_suffix_of_suffix hending (List.suffix_append cs ('/' :: cs')) with
      hshort | hlong
    · rcases List.suffix_cons_iff.mp hshort with hall | hrest
      · exact absurd (hall ▸ List.mem_cons_self) h
      · exact hrest
    · exact absurd (hlong.mem List.mem_cons_self) h
  · intro hending
    exact hending.trans ((List.suffix_cons '/' cs').trans (List.suffix_append cs _))

/-- A path below a directory has the endings of the path it has there, as far as they are without
slashes.

**Proof sketch.** The joined path is the second one alone, or it is behind a slash, whether the base
ends with one or one is put between. An ending without slashes cannot reach over that slash
(`suffix_append_slash_iff`). -/
lemma suffix_join_iff {ending : List Char} (h : '/' ∉ ending) (base path : String) :
    ending <:+ (join base path).toList ↔ ending <:+ path.toList := by
  unfold join
  split
  · exact Iff.rfl
  split
  · rename_i hopen
    unfold endsOpen at hopen
    rw [String.toList_append]
    rcases List.eq_nil_or_concat base.toList with hnil | ⟨front, last, hbase⟩
    · rw [hnil, List.nil_append]
    · rw [List.concat_eq_append] at hbase
      rw [hbase, List.getLast?_concat] at hopen
      obtain rfl : last = '/' := by simpa using hopen
      rw [hbase, List.append_assoc, List.singleton_append, suffix_append_slash_iff h]
  · rw [String.toList_append, String.toList_append, List.append_assoc]
    exact suffix_append_slash_iff h

end EditIdioms.Path
