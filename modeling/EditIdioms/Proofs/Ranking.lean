import EditIdioms.Proofs.Lists
import EditIdioms.Proofs.Tables
import Mathlib.Algebra.BigOperators.Group.List.Lemmas
import Mathlib.Algebra.GroupWithZero.Nat
import Mathlib.Data.Finset.Card

set_option relaxedAutoImplicit false
set_option autoImplicit false

/-!
# What the summary tables tell

The tables of a sequence of records have one line for each identifier of a rule that occurs in it.
The line tells how many of the records have the identifier, whatever their payload is, and in how
many projects they were found. The more frequent identifier stands first, and of two that are
equally frequent the one that occurred first. All this is said here of the sequence as a whole; the
tally that is kept while the records come in agrees with it after each record.

## Main definitions

* `ruleIds`, `occurrencesOf`, `projectsOf` — what is counted.
* `Precedes`, `Ranks` — the order of the lines, and the identifiers in this order.
* `Files.HasLines`, `Files.Tabulates` — the lines of a file, and of the two tables.
* `Tally.Tells` — a tally has counted a sequence of records.
* `openTables` — what comes before anything is written.

## Main results

* `Tally.Tells.add`, `Tally.tells_ofRecords` — counting one more record, and all records.
* `Tally.ranks_rows` — the rows of the tables.
* `tables_tell_records` — the tables.
-/

namespace EditIdioms

/-! ## What is counted -/

/-- The identifiers of the rules of records, in their order. -/
def ruleIds (records : List Record) : List String := records.map (·.rule.tag.id)

/-- How many of the records have a rule with the identifier. -/
def occurrencesOf (records : List Record) (id : String) : ℕ := (ruleIds records).count id

/-- The projects of the records that have a rule with the identifier. -/
def projectsOf (records : List Record) (id : String) : Finset String :=
  ((records.filter (·.rule.tag.id = id)).map (·.project)).toFinset

/-- The first identifier is more frequent than the second one, or equally frequent and occurs
first. -/
def Precedes (records : List Record) (a b : String) : Prop :=
  occurrencesOf records b < occurrencesOf records a ∨
    occurrencesOf records a = occurrencesOf records b ∧
      (ruleIds records).idxOf a < (ruleIds records).idxOf b

instance (records : List Record) : DecidableRel (Precedes records) :=
  fun _ _ => inferInstanceAs (Decidable (_ ∨ _))

/-- The identifiers that occur in the records, each once, in the order of the tables. -/
structure Ranks (records : List Record) (ids : List String) : Prop where
  nodup : ids.Nodup
  mem_iff : ∀ id, id ∈ ids ↔ id ∈ ruleIds records
  ordered : ids.Pairwise (Precedes records)

/-- The line of an identifier in the table of occurrences. -/
def generalLine (records : List Record) (id : String) : String :=
  id ++ "," ++ decimalText (occurrencesOf records id)

/-- The line of an identifier in the table of projects. -/
def projectLine (records : List Record) (id : String) : String :=
  id ++ "," ++ decimalText (projectsOf records id).card

/-- The path leads to a file that has these lines, every one of them ended, and nothing else. -/
structure Files.HasLines (files : Files) (path : String) (lines : List String) : Prop where
  content_eq : files.content path = .ok (Text.bytes (.join (lines.map (· ++ "\n"))))
  single : ∀ line ∈ lines, '\n' ∉ line.toList

/-- The lines of both tables are those of the records. -/
structure Files.Tabulates (files : Files) (directory : String) (records : List Record)
    (ids : List String) : Prop where
  general : files.HasLines (generalTablePath directory) (ids.map (generalLine records))
  projects : files.HasLines (projectTablePath directory) (ids.map (projectLine records))

section Counted

variable {records records' : List Record} {id project : String}

/-- As many records are counted as have the identifier. -/
lemma occurrencesOf_eq_length :
    occurrencesOf records id = (records.filter (·.rule.tag.id = id)).length := by
  unfold occurrencesOf ruleIds
  rw [List.count, List.countP_map, List.countP_eq_length_filter]
  simp only [Function.comp_def, beq_eq_decide]

/-- The projects are those of records with the identifier. -/
lemma mem_projectsOf :
    project ∈ projectsOf records id ↔
      ∃ r ∈ records, r.rule.tag.id = id ∧ r.project = project := by
  simp [projectsOf, and_assoc]

/-- There are at most as many projects as records. -/
lemma card_projectsOf_le : (projectsOf records id).card ≤ occurrencesOf records id := by
  rw [occurrencesOf_eq_length]
  refine (List.toFinset_card_le _).trans ?_
  rw [List.length_map]

/-- What occurs was found in some project. -/
lemma card_projectsOf_pos (h : id ∈ ruleIds records) : 0 < (projectsOf records id).card := by
  obtain ⟨r, hr, hid⟩ := List.mem_map.mp h
  exact Finset.card_pos.mpr ⟨r.project, mem_projectsOf.mpr ⟨r, hr, hid, rfl⟩⟩

/-- **All records are counted** once when each identifier that occurs is counted once. -/
lemma sum_occurrencesOf {ids : List String} (hnodup : ids.Nodup)
    (hmem : ∀ id, id ∈ ids ↔ id ∈ ruleIds records) :
    (ids.map (occurrencesOf records)).sum = records.length := by
  have hperm : ids.Perm (ruleIds records).dedup := by
    rw [List.perm_ext_iff_of_nodup hnodup (List.nodup_dedup _)]
    simpa using hmem
  calc (ids.map (occurrencesOf records)).sum
      = ((ruleIds records).dedup.map (occurrencesOf records)).sum := (hperm.map _).sum_eq
    _ = (ruleIds records).length := List.sum_map_count_dedup_eq_length _
    _ = records.length := List.length_map _

/-- There is one order of the tables. -/
lemma Ranks.unique {ids ids' : List String} (h : Ranks records ids) (h' : Ranks records ids') :
    ids = ids' := by
  refine List.Perm.eq_of_pairwise ?_ h.ordered h'.ordered ?_
  · rintro a b - - (hab | ⟨heq, hab⟩) (hba | ⟨heq', hba⟩) <;> omega
  · rw [List.perm_ext_iff_of_nodup h.nodup h'.nodup]
    intro id
    rw [h.mem_iff, h'.mem_iff]

variable (hperm : records'.Perm records)
include hperm

/-- The order of the records does not matter for what is counted. -/
lemma occurrencesOf_of_perm (id : String) : occurrencesOf records' id = occurrencesOf records id :=
  (hperm.map _).count_eq id

/-- The order of the records does not matter for the projects. -/
lemma projectsOf_of_perm (id : String) : projectsOf records' id = projectsOf records id :=
  List.toFinset_eq_of_perm _ _ ((hperm.filter _).map _)

/-- **Records in another order** have the same lines, and only lines with the same count can have
changed places.

**Proof sketch.** Both rankings have each identifier of the records once, and the records have the
same identifiers, so the rankings are permutations of each other. The counts along a ranking do not
rise, and a list that does not rise is determined by its elements. -/
lemma Ranks.of_perm {ids ids' : List String} (h : Ranks records ids) (h' : Ranks records' ids') :
    ids'.Perm ids ∧ ids'.map (occurrencesOf records') = ids.map (occurrencesOf records) := by
  have hids : ids'.Perm ids := by
    rw [List.perm_ext_iff_of_nodup h'.nodup h.nodup]
    intro id
    rw [h'.mem_iff, h.mem_iff]
    exact (hperm.map _).mem_iff
  have hfalling : ∀ {records : List Record} {ids : List String}, Ranks records ids →
      (ids.map (occurrencesOf records)).Pairwise (· ≥ ·) := by
    intro records ids h
    refine List.pairwise_map.mpr (h.ordered.imp ?_)
    rintro a b (hlt | ⟨heq, -⟩)
    · exact hlt.le
    · exact heq.ge
  refine ⟨hids, List.Perm.eq_of_pairwise ?_ (hfalling h') (hfalling h) ?_⟩
  · exact fun a b _ _ hab hba => Nat.le_antisymm hba hab
  · rw [funext (occurrencesOf_of_perm hperm)]
    exact hids.map _

end Counted

/-! ## Identifiers -/

/-- No two rules have the same identifier. -/
lemma RuleTag.id_injective : Function.Injective RuleTag.id := by
  have hall : ∀ a ∈ all, ∀ b ∈ all, a.id = b.id → a = b := by decide +kernel
  exact fun a b h => hall a (mem_all a) b (mem_all b) h

/-- An identifier does not end the line. -/
lemma RuleTag.newline_notMem_id (tag : RuleTag) : '\n' ∉ tag.id.toList := by
  have hall : ∀ tag ∈ all, '\n' ∉ tag.id.toList := by decide +kernel
  exact hall tag (mem_all tag)

/-- A line of a table is one line. -/
lemma newline_notMem_line (tag : RuleTag) (n : ℕ) :
    '\n' ∉ (tag.id ++ "," ++ decimalText n).toList := by
  have hdigits : '\n' ∉ (decimalText n).toList := by
    intro hmem
    rw [decimalText, String.toList_ofList] at hmem
    exact absurd (Nat.isDigit_of_mem_toDigits (by decide) (by decide) hmem) (by decide)
  simp only [String.toList_append, List.mem_append, not_or]
  exact ⟨⟨tag.newline_notMem_id, by decide⟩, hdigits⟩

/-! ## Counting -/

namespace Tally

/-- The identifiers of the rows. -/
def ids (t : Tally) : List String := t.map (·.tag.id)

/-- A tally has counted a sequence of records. -/
structure Tells (t : Tally) (records : List Record) : Prop where
  mem_ids_iff : ∀ id, id ∈ t.ids ↔ id ∈ ruleIds records
  ordered : t.ids.Pairwise fun a b => (ruleIds records).idxOf a < (ruleIds records).idxOf b
  occurrences_eq : ∀ row ∈ t, row.occurrences = occurrencesOf records row.tag.id
  nodup_projects : ∀ row ∈ t, row.projects.Nodup
  mem_projects_iff : ∀ row ∈ t, ∀ project,
    project ∈ row.projects ↔ project ∈ projectsOf records row.tag.id

variable {t : Tally} {records : List Record}

/-- Each row has an identifier of its own. -/
lemma Tells.nodup_ids (h : t.Tells records) : t.ids.Nodup :=
  h.ordered.imp fun hlt heq => absurd (heq ▸ hlt) (Nat.lt_irrefl _)

/-- There are as many projects in a row as records with its identifier were found in. -/
lemma Tells.length_projects (h : t.Tells records) {row : TableRow} (hrow : row ∈ t) :
    row.projects.length = (projectsOf records row.tag.id).card := by
  have hsame : row.projects.toFinset = projectsOf records row.tag.id := by
    ext project
    rw [List.mem_toFinset, h.mem_projects_iff row hrow]
  rw [← hsame, List.toFinset_card_of_nodup (h.nodup_projects row hrow)]

/-- **What counting a record does.** Either its rule has a row, which counts it, or it is given a
new row behind the others. -/
lemma add_cases (t : Tally) (r : Record) :
    (∃ front row back, t = front ++ row :: back ∧ row.tag = r.rule.tag ∧
      t.add r = front ++ row.add r.project :: back) ∨
    r.rule.tag.id ∉ t.ids ∧ t.add r = t ++ [⟨r.rule.tag, 1, [r.project]⟩] := by
  induction t with
  | nil => exact .inr ⟨List.not_mem_nil, rfl⟩
  | cons row rest ih =>
    by_cases htag : row.tag = r.rule.tag
    · exact .inl ⟨[], row, rest, rfl, htag, by rw [add, if_pos htag]; rfl⟩
    · have hid : r.rule.tag.id ≠ row.tag.id := fun h => htag (RuleTag.id_injective h).symm
      rw [add, if_neg htag]
      rcases ih with ⟨front, row', back, hrest, htag', hadd⟩ | ⟨hnew, hadd⟩
      · exact .inl ⟨row :: front, row', back, by rw [hrest]; rfl, htag', by rw [hadd]; rfl⟩
      · refine .inr ⟨?_, by rw [hadd]; rfl⟩
        rw [ids, List.map_cons, List.mem_cons]
        exact not_or.mpr ⟨hid, hnew⟩

section Step

variable {r : Record} {id : String}

/-- The identifier of one more record stands behind the others. -/
lemma ruleIds_concat : ruleIds (records ++ [r]) = ruleIds records ++ [r.rule.tag.id] := by
  simp [ruleIds]

/-- One more record counts for its own identifier only. -/
lemma occurrencesOf_concat :
    occurrencesOf (records ++ [r]) id =
      occurrencesOf records id + if r.rule.tag.id = id then 1 else 0 := by
  unfold occurrencesOf
  rw [ruleIds_concat, List.count_append, List.count_singleton]
  simp only [beq_iff_eq]

/-- One more record adds its project for its own identifier only. -/
lemma mem_projectsOf_concat {project : String} :
    project ∈ projectsOf (records ++ [r]) id ↔
      project ∈ projectsOf records id ∨ r.rule.tag.id = id ∧ r.project = project := by
  simp only [mem_projectsOf, List.mem_append, List.mem_singleton]
  constructor
  · rintro ⟨r', hmem | rfl, hr'⟩
    · exact .inl ⟨r', hmem, hr'⟩
    · exact .inr hr'
  · rintro (⟨r', hmem, hr'⟩ | hr)
    · exact ⟨r', .inl hmem, hr'⟩
    · exact ⟨r, .inr rfl, hr⟩

/-- Where identifiers occurred first does not change. -/
lemma Tells.ordered_concat (h : t.Tells records) (r : Record) :
    t.ids.Pairwise fun a b =>
      (ruleIds (records ++ [r])).idxOf a < (ruleIds (records ++ [r])).idxOf b := by
  refine h.ordered.imp_of_mem fun {a b} ha hb hlt => ?_
  rw [ruleIds_concat, List.idxOf_append_of_mem ((h.mem_ids_iff a).mp ha),
    List.idxOf_append_of_mem ((h.mem_ids_iff b).mp hb)]
  exact hlt

/-- A row of another identifier goes on telling the records. -/
lemma Tells.row_concat (h : t.Tells records) {row : TableRow} (hrow : row ∈ t)
    (hid : r.rule.tag.id ≠ row.tag.id) :
    row.occurrences = occurrencesOf (records ++ [r]) row.tag.id ∧
      ∀ project, project ∈ row.projects ↔ project ∈ projectsOf (records ++ [r]) row.tag.id := by
  refine ⟨?_, fun project => ?_⟩
  · rw [occurrencesOf_concat, if_neg hid, h.occurrences_eq row hrow, Nat.add_zero]
  · rw [mem_projectsOf_concat, h.mem_projects_iff row hrow]
    exact (or_iff_left fun hr => hid hr.1).symm

/-- The row of a record counts it.

**Proof sketch.** The count goes up by one as the record has the identifier of the row. The project
is appended if it is not there yet, so no project is there twice, and the projects are those of the
records before and the one of the new record. -/
lemma Tells.row_add (h : t.Tells records) {row : TableRow} (hrow : row ∈ t)
    (htag : row.tag = r.rule.tag) :
    (row.add r.project).occurrences = occurrencesOf (records ++ [r]) row.tag.id ∧
      (row.add r.project).projects.Nodup ∧
      ∀ project, project ∈ (row.add r.project).projects ↔
        project ∈ projectsOf (records ++ [r]) row.tag.id := by
  have hprojects := h.mem_projects_iff row hrow
  have hnodup := h.nodup_projects row hrow
  refine ⟨?_, ?_, fun project => ?_⟩
  · rw [occurrencesOf_concat, htag, if_pos rfl, ← htag, ← h.occurrences_eq row hrow]
    rfl
  · unfold TableRow.add
    dsimp only
    split
    · exact hnodup
    · rename_i hnew
      rw [List.nodup_append_comm, List.singleton_append, List.nodup_cons]
      exact ⟨hnew, hnodup⟩
  · rw [mem_projectsOf_concat, htag, ← htag, ← hprojects, TableRow.add]
    dsimp only
    split
    · rename_i hold
      constructor
      · exact .inl
      · rintro (hmem | ⟨-, rfl⟩)
        · exact hmem
        · exact hold
    · rw [List.mem_append, List.mem_singleton]
      simp [eq_comm, htag]

/-- Counting a record in the row of its identifier.

**Proof sketch.** The identifiers stay the same and in the same order, and no identifier is new. A
row other than the one that counts has another identifier, as no identifier is there twice, and
tells about the records what it told before (`Tells.row_concat`). The row that counts tells about
the new record too (`Tells.row_add`). -/
lemma Tells.count_again {front back : Tally} {row : TableRow}
    (h : Tells (front ++ row :: back) records) (htag : row.tag = r.rule.tag) :
    Tells (front ++ row.add r.project :: back) (records ++ [r]) := by
  have hids : ids (front ++ row.add r.project :: back) = ids (front ++ row :: back) := by
    simp [ids, TableRow.add]
  have hrow : row ∈ front ++ row :: back := List.mem_append_right front List.mem_cons_self
  have hmem : ∀ other ∈ front ++ row.add r.project :: back, other = row.add r.project ∨
      other ∈ front ++ row :: back ∧ r.rule.tag.id ≠ other.tag.id := by
    intro other hother
    rcases (List.mem_cons.mp (List.perm_middle.mem_iff.mp hother)) with rfl | hother
    · exact .inl rfl
    · have hnodup := h.nodup_ids
      rw [ids, List.map_append, List.map_cons, List.nodup_middle, List.nodup_cons,
        ← List.map_append] at hnodup
      refine .inr ⟨List.perm_middle.mem_iff.mpr (List.mem_cons_of_mem row hother), fun hid => ?_⟩
      rw [htag, hid] at hnodup
      exact hnodup.1 (List.mem_map_of_mem hother)
  obtain ⟨hcount, hnodup, hprojects⟩ := h.row_add hrow htag
  refine ⟨fun id => ?_, hids ▸ h.ordered_concat r, ?_, ?_, ?_⟩
  · rw [hids, h.mem_ids_iff, ruleIds_concat, List.mem_append, List.mem_singleton]
    refine ⟨.inl, ?_⟩
    rintro (hold | rfl)
    · exact hold
    · rw [← h.mem_ids_iff, ← htag]
      exact List.mem_map_of_mem hrow
  · intro other hother
    rcases hmem other hother with rfl | ⟨hother, hid⟩
    · exact hcount
    · exact (h.row_concat hother hid).1
  · intro other hother
    rcases hmem other hother with rfl | ⟨hother, -⟩
    · exact hnodup
    · exact h.nodup_projects other hother
  · intro other hother
    rcases hmem other hother with rfl | ⟨hother, hid⟩
    · exact hprojects
    · exact (h.row_concat hother hid).2

/-- Counting a record of a new identifier in a new row.

**Proof sketch.** No record has had this identifier, so its count and its projects were nothing. The
new row stands last, and its first occurrence is behind all others. The rows before it have other
identifiers and tell what they told before (`Tells.row_concat`), and the new one tells about the new
record alone. -/
lemma Tells.count_first (h : t.Tells records) (hnew : r.rule.tag.id ∉ t.ids) :
    Tells (t ++ [⟨r.rule.tag, 1, [r.project]⟩]) (records ++ [r]) := by
  have hfirst : r.rule.tag.id ∉ ruleIds records := fun hmem => hnew ((h.mem_ids_iff _).mpr hmem)
  have hnone : occurrencesOf records r.rule.tag.id = 0 := List.count_eq_zero.mpr hfirst
  have hids : ids (t ++ [⟨r.rule.tag, 1, [r.project]⟩]) = t.ids ++ [r.rule.tag.id] := by
    simp [ids]
  have hother : ∀ row ∈ t, r.rule.tag.id ≠ row.tag.id := by
    intro row hrow hid
    rw [hid] at hnew
    exact hnew (List.mem_map_of_mem hrow)
  have hmem : ∀ row ∈ t ++ [⟨r.rule.tag, 1, [r.project]⟩],
      row ∈ t ∨ row = ⟨r.rule.tag, 1, [r.project]⟩ := by
    intro row hrow
    simpa using hrow
  refine ⟨fun id => ?_, ?_, ?_, ?_, ?_⟩
  · rw [hids, ruleIds_concat, List.mem_append, List.mem_append, h.mem_ids_iff]
  · rw [hids, List.pairwise_append]
    refine ⟨h.ordered_concat r, List.pairwise_singleton _ _, fun a ha b hb => ?_⟩
    rw [List.mem_singleton.mp hb, ruleIds_concat,
      List.idxOf_append_of_mem ((h.mem_ids_iff a).mp ha), List.idxOf_append_of_notMem hfirst]
    have hlt := List.idxOf_lt_length_iff.mpr ((h.mem_ids_iff a).mp ha)
    omega
  · intro row hrow
    rcases hmem row hrow with hrow | rfl
    · exact (h.row_concat hrow (hother row hrow)).1
    · rw [occurrencesOf_concat, if_pos rfl, hnone]
  · intro row hrow
    rcases hmem row hrow with hrow | rfl
    · exact h.nodup_projects row hrow
    · exact List.nodup_singleton _
  · intro row hrow project
    rcases hmem row hrow with hrow | rfl
    · exact (h.row_concat hrow (hother row hrow)).2 project
    · rw [mem_projectsOf_concat, List.mem_singleton]
      have hempty : project ∉ projectsOf records r.rule.tag.id := by
        rw [mem_projectsOf]
        rintro ⟨r', hr', hid, -⟩
        exact hfirst (hid ▸ List.mem_map_of_mem hr')
      simp [hempty, eq_comm]

/-- **Counting one more record** keeps a tally in agreement with the records.

**Proof sketch.** If the record has a row, this row counts it; the other rows do not change, nor
does where an identifier occurred first (`Tells.count_again`). A record of a new identifier comes
behind all others, as its row does (`Tells.count_first`). -/
lemma Tells.add (h : t.Tells records) (r : Record) : (t.add r).Tells (records ++ [r]) := by
  rcases add_cases t r with ⟨front, row, back, ht, htag, hadd⟩ | ⟨hnew, hadd⟩
  · rw [hadd]
    rw [ht] at h
    exact h.count_again htag
  · rw [hadd]
    exact h.count_first hnew

end Step

/-- **A tally tells the records that it has counted.** -/
lemma tells_ofRecords (records : List Record) : (ofRecords records).Tells records := by
  induction records using List.reverseRecOn with
  | nil => exact ⟨fun _ => Iff.rfl, .nil, nofun, nofun, nofun⟩
  | append_singleton records r ih =>
    unfold ofRecords at ih ⊢
    rw [List.foldl_concat]
    exact ih.add r

/-! ## Rows -/

/-- **The rows of the tables** stand in the order of their identifiers.

**Proof sketch.** Sorting permutes the rows, so the identifiers are those of the records, each once.
Rows are sorted by falling counts, and those with the same count stay in the order they had, which
is the order in which their identifiers first occur (`pairwise_mergeSort_ties`). -/
lemma ranks_rows (h : t.Tells records) : Ranks records (ids t.rows) := by
  have hperm : t.rows.Perm t := List.mergeSort_perm _ _
  refine ⟨((hperm.map _).nodup_iff).mpr h.nodup_ids, fun id => ?_, ?_⟩
  · rw [← h.mem_ids_iff]
    exact (hperm.map _).mem_iff
  · have hpairs : t.rows.Pairwise _ := pairwise_mergeSort_ties
      (fun a b c hab hbc => by simp only [decide_eq_true_eq] at *; omega)
      (fun a b => by simp only [Bool.or_eq_true, decide_eq_true_eq]; omega)
      (List.pairwise_map.mp h.ordered)
    refine List.pairwise_map.mpr (hpairs.imp_of_mem fun {a b} ha hb hab => ?_)
    have hcount : ∀ {row}, row ∈ t.rows → row.occurrences = occurrencesOf records row.tag.id :=
      fun hrow => h.occurrences_eq _ (List.mem_mergeSort.mp hrow)
    simp only [decide_eq_true_eq, hcount ha, hcount hb] at hab
    rcases Nat.lt_or_eq_of_le hab.1 with hlt | heq
    · exact .inl hlt
    · exact .inr ⟨heq.symm, hab.2 heq.ge⟩

/-- A table with a column of counts that tells the records has the lines of its identifiers. -/
lemma hasLines_rows {count : TableRow → ℕ} {told : String → ℕ}
    (hcount : ∀ row ∈ t, count row = told row.tag.id) {files : Files} {path : String}
    (hcontent : files.content path =
      .ok (Text.bytes (.join (t.rows.map fun row => tableLine row (count row))))) :
    files.HasLines path ((ids t.rows).map fun id => id ++ "," ++ decimalText (told id)) := by
  constructor
  · rw [hcontent, ids, List.map_map, List.map_map]
    congr 3
    refine List.map_congr_left fun row hrow => ?_
    rw [hcount row (List.mem_mergeSort.mp hrow)]
    rfl
  · intro line hline
    rw [ids, List.map_map] at hline
    obtain ⟨row, -, rfl⟩ := List.mem_map.mp hline
    exact newline_notMem_line row.tag _

end Tally

/-! ## The tables -/

open Files

/-- Makes the directory and creates the files of both tables, which is what comes before anything is
written to them. -/
def openTables (directory : String) : Disk (List String × List String) := do
  Disk.makeDirectories directory
  let general ← Disk.create (generalTablePath directory)
  let projects ← Disk.create (projectTablePath directory)
  return (general, projects)

/-- Writing the tables fails only when their files cannot be created. -/
lemma exec_write_fst (w : TableWriter) (files : Files) :
    (exec w.write files).1 = (exec (openTables w.directory) files).1.map fun _ => () := by
  unfold TableWriter.write openTables
  rw [exec_bind, exec_bind]
  rcases exec (Disk.makeDirectories w.directory) files with ⟨_ | _, files₁⟩
  · rfl
  dsimp only
  rw [exec_bind, exec_bind, generalTablePath]
  rcases exec (Disk.create (Path.join w.directory generalTableName)) files₁ with ⟨_ | _, files₂⟩
  · rfl
  dsimp only
  rw [exec_bind, exec_bind, projectTablePath]
  rcases exec (Disk.create (Path.join w.directory projectTableName)) files₂ with ⟨_ | _, files₃⟩
  · rfl
  · rfl

/-- **The tables tell the records.** Hand records to a sink for the tables and let it finish. It
fails only if the directory or one of the two files cannot be created, whatever the records are.
Otherwise both files have one line for each identifier of a rule that occurs, in the same order, the
more frequent one first and of two equally frequent ones the one that occurred first. The line of an
identifier tells how many records have it, or in how many projects these were found, of which there
is one at least and no more than records, and all records are counted. The same records in another
order have the same lines, and only lines with the same count can have changed places.

**Proof sketch.** The sink counts one record after the other (`fill_tableWriter`), and its tally
tells the records so far (`Tally.tells_ofRecords`). Sorting the rows by their counts leaves those
with the same count in the order in which their identifiers occurred (`Tally.ranks_rows`). Both
tables are made of the same rows, and each is in its file at the end (`exec_write`). -/
theorem tables_tell_records (records : List Record) (directory : String) (files : Files) :
    let cleaned := Sink.cleanup (Sink.fill ({ directory } : TableWriter) records) files
    (cleaned.2.2 = .done ↔ ∃ places, (exec (openTables directory) files).1 = .ok places) ∧
    (cleaned.2.2 = .done → ∃ ids, Ranks records ids ∧
      cleaned.2.1.Tabulates directory records ids ∧
      (∀ id ∈ ids, 1 ≤ (projectsOf records id).card ∧
        (projectsOf records id).card ≤ occurrencesOf records id) ∧
      (ids.map (occurrencesOf records)).sum = records.length ∧
      ∀ records' ids', records'.Perm records → Ranks records' ids' →
        ids'.Perm ids ∧
        ids'.map (occurrencesOf records') = ids.map (occurrencesOf records) ∧
        ∀ id, generalLine records' id = generalLine records id ∧
          projectLine records' id = projectLine records id) := by
  intro cleaned
  have hfill : Sink.fill ({ directory } : TableWriter) records =
      { directory, tally := Tally.ofRecords records } := fill_tableWriter _ records
  have hcleaned : cleaned = Sink.cleanup
      ({ directory, tally := Tally.ofRecords records } : TableWriter) files := by
    rw [← hfill]
  refine ⟨?_, fun hdone => ?_⟩
  · have hfst := exec_write_fst { directory, tally := Tally.ofRecords records } files
    rw [hcleaned, cleanup_tableWriter]
    rcases hwrite : exec ({ directory, tally := Tally.ofRecords records } : TableWriter).write files
      with ⟨cause | _, files'⟩
    · rw [hwrite] at hfst
      cases hopen : (exec (openTables directory) files).1 with
      | error cause' => simp
      | ok places =>
        rw [hopen] at hfst
        cases hfst
    · rw [hwrite] at hfst
      cases hopen : (exec (openTables directory) files).1 with
      | error cause =>
        rw [hopen] at hfst
        cases hfst
      | ok places => simp
  · rw [hcleaned] at hdone ⊢
    obtain ⟨general, projects, -, hgeneral, hprojects⟩ := exec_write (exec_write_of_cleanup hdone)
    have htells := Tally.tells_ofRecords records
    have hranks := Tally.ranks_rows htells
    refine ⟨_, hranks, ⟨?_, ?_⟩, fun id hid => ?_, ?_, fun records' ids' hperm h' => ?_⟩
    · exact Tally.hasLines_rows htells.occurrences_eq hgeneral.content_eq
    · exact Tally.hasLines_rows (fun row => htells.length_projects) hprojects.content_eq
    · exact ⟨card_projectsOf_pos ((hranks.mem_iff id).mp hid), card_projectsOf_le⟩
    · exact sum_occurrencesOf hranks.nodup hranks.mem_iff
    · obtain ⟨hids, hcolumn⟩ := hranks.of_perm hperm h'
      refine ⟨hids, hcolumn, fun id => ?_⟩
      unfold generalLine projectLine
      rw [occurrencesOf_of_perm hperm, projectsOf_of_perm hperm]
      exact ⟨rfl, rfl⟩

/-- Four records of three rules. The most frequent rule comes first, though it occurs second, and
the two others stand in the order in which they occur; when the records come in backward, these two
change places. -/
theorem tables_tell_records_ties :
    let records : List Record := [⟨.nakedReceiver, "p"⟩, ⟨.inlineConstant, "p"⟩,
      ⟨.conditionalBoundary, "q"⟩, ⟨.inlineConstant, "q"⟩]
    let ids := ["inline-constant", "naked-receiver", "conditional-boundary"]
    let ids' := ["inline-constant", "conditional-boundary", "naked-receiver"]
    let cleaned := Sink.cleanup (Sink.fill ({ directory := "o" } : TableWriter) records)
      { root := .directory [] }
    cleaned.2.2 = .done ∧ cleaned.2.1.Tabulates "o" records ids ∧
      ids.map (generalLine records) =
        ["inline-constant,2", "naked-receiver,1", "conditional-boundary,1"] ∧
      ids.map (projectLine records) =
        ["inline-constant,2", "naked-receiver,1", "conditional-boundary,1"] ∧
      (records.reverse.Perm records ∧ Ranks records.reverse ids') ∧
      ids'.map (occurrencesOf records.reverse) = ids.map (occurrencesOf records) := by
  intro records ids ids' cleaned
  obtain ⟨hopen, htell⟩ := tables_tell_records records "o" { root := .directory [] }
  have hdone : cleaned.2.2 = .done :=
    hopen.mpr ⟨(["o", "out-general.csv"], ["o", "out-projects.csv"]), by decide +kernel⟩
  obtain ⟨found, hranks, htables, -, -, hpermuted⟩ := htell hdone
  have hmem : ∀ id, id ∈ ids ↔ id ∈ ruleIds records := by
    intro id
    simp only [ids, records, ruleIds, Rule.tag, RuleTag.id, List.map_cons, List.map_nil,
      List.mem_cons]
    tauto
  have hfound : found = ids := hranks.unique ⟨by decide +kernel, hmem, by decide +kernel⟩
  have hperm : records.reverse.Perm records := List.reverse_perm records
  have hranks' : Ranks records.reverse ids' := by
    refine ⟨by decide +kernel, fun id => ?_, by decide +kernel⟩
    have hswap : ids'.Perm ids := (List.Perm.swap _ _ []).cons _
    rw [hswap.mem_iff, hmem]
    exact ((hperm.map _).mem_iff).symm
  rw [hfound] at htables hpermuted
  exact ⟨hdone, htables, by decide +kernel, by decide +kernel, ⟨hperm, hranks'⟩,
    (hpermuted _ _ hperm hranks').2.1⟩

end EditIdioms
