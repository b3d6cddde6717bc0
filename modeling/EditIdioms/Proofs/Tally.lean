import EditIdioms.Proofs.Lists
import EditIdioms.Tables

set_option relaxedAutoImplicit false
set_option autoImplicit false

/-!
# Counting a part of the records

Records are counted by the tag of their rule. When the records with some of the tags are left out,
the rows of these tags go, and the other rows stay as they are and where they are: a row is told by
the records of its own tag, rows stand in the order in which their tags come first, and sorting
leaves rows with the same count in that order.

## Main definitions

* `tableText` — the text of a table with a column of counts.

## Main results

* `Tally.ofRecords_filter` — counting the records with some of the tags.
* `Tally.rows_filter` — the rows of a table of some of the records.
-/

namespace EditIdioms

/-! ## Counting -/

namespace Tally

variable (p : RuleTag → Bool)

/-- Counting a record in the rows of some tags is leaving the other rows out of the count, if the
record has one of these tags. -/
lemma add_filter {r : Record} (h : p r.rule.tag = true) (t : Tally) :
    add r (t.filter fun row => p row.tag) = (t.add r).filter fun row => p row.tag := by
  induction t with
  | nil => simp [add, h]
  | cons row rest ih =>
    by_cases htag : row.tag = r.rule.tag
    · have hrow : p row.tag = true := htag ▸ h
      have hrow' : p (row.add r.project).tag = true := hrow
      simp only [add, if_pos htag, List.filter_cons, hrow, hrow', if_true]
    · cases hrow : p row.tag with
      | true => simp only [add, if_neg htag, List.filter_cons, hrow, if_true, ih]
      | false =>
        simp only [add, if_neg htag, List.filter_cons, hrow, Bool.false_eq_true, if_false, ih]

/-- A record with another tag does not count. -/
lemma filter_add_of_not {r : Record} (h : p r.rule.tag = false) (t : Tally) :
    (t.add r).filter (fun row => p row.tag) = t.filter fun row => p row.tag := by
  induction t with
  | nil => simp [add, h]
  | cons row rest ih =>
    by_cases htag : row.tag = r.rule.tag
    · have hrow : p row.tag = false := htag ▸ h
      have hrow' : p (row.add r.project).tag = false := hrow
      simp only [add, if_pos htag, List.filter_cons, hrow, hrow', Bool.false_eq_true, if_false]
    · rw [add, if_neg htag, List.filter_cons, List.filter_cons, ih]

/-- **Counting the records with some of the tags** is leaving the rows of the others out.

**Proof sketch.** Induction on the records, from any rows. A record with one of the tags is counted
in a row that is kept (`add_filter`), and any other one in a row that is left out
(`filter_add_of_not`). -/
lemma ofRecords_filter (records : List Record) :
    ofRecords (records.filter fun r => p r.rule.tag) =
      (ofRecords records).filter fun row => p row.tag := by
  have hfold : ∀ t : Tally,
      (records.filter fun r => p r.rule.tag).foldl (fun t r => add r t)
          (t.filter fun row => p row.tag) =
        (records.foldl (fun t r => add r t) t).filter fun row => p row.tag := by
    induction records with
    | nil => exact fun t => rfl
    | cons r records ih =>
      intro t
      cases hr : p r.rule.tag with
      | true =>
        simp only [List.filter_cons, hr, if_true, List.foldl_cons, add_filter p hr, ih]
      | false =>
        simp only [List.filter_cons, hr, Bool.false_eq_true, if_false, List.foldl_cons, ← ih,
          filter_add_of_not p hr]
  exact hfold []

end Tally

/-! ## Tables -/

/-- The text of a table with a column of counts. -/
def tableText (count : TableRow → ℕ) (rows : List TableRow) : String :=
  .join (rows.map fun row => tableLine row (count row))

/-- **The rows of a table of some of the records** are those of the table of all records without the
rows of the other tags. -/
lemma Tally.rows_filter (p : RuleTag → Bool) (records : List Record) :
    (Tally.ofRecords (records.filter fun r => p r.rule.tag)).rows =
      (Tally.ofRecords records).rows.filter fun row => p row.tag := by
  rw [ofRecords_filter, rows, rows, filter_mergeSort]
  · intro a b c hab hbc
    exact decide_eq_true (Nat.le_trans (of_decide_eq_true hbc) (of_decide_eq_true hab))
  · intro a b
    simpa using Nat.le_total b.occurrences a.occurrences

end EditIdioms
