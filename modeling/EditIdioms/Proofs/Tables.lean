import EditIdioms.Proofs.Broadcast.Filled
import EditIdioms.Proofs.Files.Operations
import EditIdioms.Tables

set_option relaxedAutoImplicit false
set_option autoImplicit false

/-!
# Writing the summary tables

The sink of the tables counts the records that it takes, and its cleanup writes both tables. Their
files have different names, so neither is written over the other, and no other file is touched. A
table that is not empty starts with the identifier of a rule, which is a word.

## Main results

* `fill_tableWriter` — counting records.
* `exec_write` — writing both tables.
* `bytes_table` — how a table starts.
-/

namespace EditIdioms

/-! ## Counting -/

/-- Something is counted for every record. -/
lemma Tally.add_ne_nil (r : Record) (t : Tally) : t.add r ≠ [] := by
  cases t with
  | nil => exact List.cons_ne_nil _ _
  | cons row rest =>
    unfold Tally.add
    split <;> exact List.cons_ne_nil _ _

/-- Something is counted if there are records. -/
lemma Tally.ofRecords_ne_nil {records : List Record} (h : records ≠ []) :
    Tally.ofRecords records ≠ [] := by
  rcases List.eq_nil_or_concat records with rfl | ⟨front, r, rfl⟩
  · exact absurd rfl h
  · unfold Tally.ofRecords
    rw [List.concat_eq_append, List.foldl_concat]
    exact add_ne_nil r _

/-- **Counting records** one after the other. -/
lemma fill_tableWriter (w : TableWriter) (records : List Record) :
    Sink.fill w records = { w with tally := records.foldl (fun t r => t.add r) w.tally } := by
  induction records generalizing w with
  | nil => rfl
  | cons r records ih =>
    rw [fill_cons, ih]
    rfl

/-! ## The text of a table -/

/-- The bytes of a text and of another one behind it. -/
lemma Text.bytes_append (s t : String) : bytes (s ++ t) = bytes s ++ bytes t := by
  simp [bytes]

/-- The bytes start with two letters. -/
def StartsWord (b : List UInt8) : Prop :=
  ∃ first second rest, b = first :: second :: rest ∧ 0x61 ≤ first.toNat ∧ 0x61 ≤ second.toNat

/-- What starts with two letters still does so with more behind it. -/
lemma StartsWord.append {b : List UInt8} (h : StartsWord b) (rest : List UInt8) :
    StartsWord (b ++ rest) := by
  obtain ⟨first, second, b, rfl, hfirst, hsecond⟩ := h
  exact ⟨first, second, b ++ rest, rfl, hfirst, hsecond⟩

/-- The identifier of a rule starts with two letters. -/
lemma startsWord_id (tag : RuleTag) : StartsWord (Text.bytes tag.id) := by
  cases tag <;> exact ⟨_, _, _, rfl, by decide, by decide⟩

/-- **A table that is not empty** starts with two letters, whatever the column of counts. -/
lemma startsWord_table {t : Tally} (ht : t ≠ []) (count : TableRow → ℕ) :
    StartsWord (Text.bytes (.join (t.rows.map fun row => tableLine row (count row)))) := by
  have hrows : t.rows ≠ [] := by
    intro hnil
    have hlength : t.rows.length = t.length := List.length_mergeSort t
    rw [hnil] at hlength
    exact ht (List.length_eq_zero_iff.mp hlength.symm)
  obtain ⟨row, rows, h⟩ := List.exists_cons_of_ne_nil hrows
  rw [h, List.map_cons, String.join_cons, tableLine]
  simp only [Text.bytes_append]
  exact (((startsWord_id row.tag).append _).append _ |>.append _).append _

/-! ## Writing the tables -/

open Files

/-- The path of the table of occurrences in a directory. -/
def generalTablePath (directory : String) : String := Path.join directory generalTableName

/-- The path of the table of projects in a directory. -/
def projectTablePath (directory : String) : String := Path.join directory projectTableName

variable {files files' : Files}

/-- **Writing both tables** touches nothing but their files, which are two, and their paths lead to
the tables then.

**Proof sketch.** Both files are created (`Disk.exec_create`), and under different names. Nothing
that happens later touches the first one, until the table is written to it. -/
lemma exec_write {w : TableWriter} (h : exec w.write files = (.ok (), files')) :
    ∃ general projects, files.Grows [general, projects] files' ∧
      files'.Holds (generalTablePath w.directory) general (Text.bytes (generalTable w.tally)) ∧
      files'.Holds (projectTablePath w.directory) projects (Text.bytes (projectTable w.tally)) := by
  unfold TableWriter.write at h
  obtain ⟨⟨⟩, files₁, hmake, h⟩ := exec_bind_eq_ok h
  obtain ⟨general, files₂, hgeneral, h⟩ := exec_bind_eq_ok h
  obtain ⟨projects, files₃, hprojects, h⟩ := exec_bind_eq_ok h
  have hmade := (Disk.growing_makeDirectories w.directory).grows hmake
  replace hgeneral : Disk.Created (generalTablePath w.directory) general files₁ files₂ :=
    Disk.exec_create hgeneral
  replace hprojects : Disk.Created (projectTablePath w.directory) projects files₂ files₃ :=
    Disk.exec_create hprojects
  cases h
  have hne : general ≠ projects := by
    rintro rfl
    have hname := hgeneral.holds.getLast?_eq.symm.trans hprojects.holds.getLast?_eq
    rw [generalTablePath, projectTablePath, Path.getLast?_pieces_join (by decide),
      Path.getLast?_pieces_join (by decide)] at hname
    exact absurd hname (by decide)
  have hgeneral' := hgeneral.holds.grows hprojects.grows (by simpa using hne)
  have hstored := hgeneral'.grows_put (Text.bytes (generalTable w.tally))
  have hprojects' := hprojects.holds.grows hstored (by simpa using hne.symm)
  have hstored' := hprojects'.grows_put (Text.bytes (projectTable w.tally))
  refine ⟨general, projects, ?_, (hgeneral'.put _).grows hstored' (by simpa using hne),
    hprojects'.put _⟩
  have hgrows := ((((hmade.trans hgeneral.grows).trans hprojects.grows).trans hstored).trans
    hstored')
  exact hgrows.mono (by simp)

/-- What cleaning up a table sink does. -/
lemma cleanup_tableWriter (w : TableWriter) (files : Files) :
    Sink.cleanup w files =
      match exec w.write files with
      | (.ok (), files) => (w, files, .done)
      | (.error cause, files) => (w, files, .failed cause.message) := rfl

/-- A table sink that was cleaned up has written its tables. -/
lemma exec_write_of_cleanup {w : TableWriter} (h : (Sink.cleanup w files).2.2 = .done) :
    exec w.write files = (.ok (), Sink.retire w files) := by
  unfold Sink.retire
  rw [cleanup_tableWriter] at h ⊢
  rcases hwrite : exec w.write files with ⟨_ | ⟨⟨⟩⟩, files'⟩ <;> rw [hwrite] at h
  · cases h
  · rfl

end EditIdioms
