import EditIdioms.Diff.FileDiff
import EditIdioms.Proofs.Code.Forest

set_option relaxedAutoImplicit false
set_option autoImplicit false

/-!
# Which operations of an edit script count

An operation counts if the nodes it names are there, each in the revision it is named for. The
others are passed over, and each of them is a defect of the compared file.

## Main definitions

* `FileDiff.Names` — the nodes of an operation are there.

## Main results

* `FileDiff.exists_resolve?_iff`, `FileDiff.rel_edits` — the edits are the operations that count, in
  script order.
* `FileDiff.defect?_eq_none_iff` — in a file without defects the trees are forests and all
  operations count.
-/

namespace EditIdioms

namespace FileDiff

variable {d : FileDiff} {operation : Edit NodeId}

/-- The nodes that the operation names are there. -/
structure Names (d : FileDiff) (operation : Edit NodeId) : Prop where
  before {id : NodeId} : operation.before? = some id → d.before.contains id
  after {id : NodeId} : operation.after? = some id → d.after.contains id

/-- In the words of the check of an operation. -/
lemma names_iff : d.Names operation ↔
    operation.before?.all d.before.contains ∧ operation.after?.all d.after.contains := by
  simp only [Option.all_eq_true]
  exact ⟨fun h => ⟨fun _ => h.before, fun _ => h.after⟩, fun h => ⟨h.1 _, h.2 _⟩⟩

instance (d : FileDiff) : DecidablePred d.Names := fun _ => decidable_of_iff' _ names_iff

/-! ## Resolving -/

/-- A number has a site if it is that of a node. -/
lemma exists_site?_iff {t : Tree} {id : NodeId} :
    (∃ s, t.site? id = some s) ↔ t.contains id := by
  unfold Tree.site? Tree.contains Tree.size
  by_cases hin : id.index < t.nodes.size <;> simp [hin]

/-- **An operation counts** if its nodes are there. -/
lemma exists_resolve?_iff : (∃ edit, d.resolve? operation = some edit) ↔ d.Names operation := by
  rw [names_iff]
  cases operation with
  | insert node =>
    simp [resolve?, Edit.before?, Edit.after?, ← exists_site?_iff]
  | delete node =>
    simp [resolve?, Edit.before?, Edit.after?, ← exists_site?_iff]
  | update before after =>
    simp [resolve?, Edit.before?, Edit.after?, ← exists_site?_iff, Option.bind_eq_some_iff]
  | move before after =>
    simp [resolve?, Edit.before?, Edit.after?, ← exists_site?_iff, Option.bind_eq_some_iff]

/-- **The edits** are the operations that count, in script order, with their nodes looked up.

**Proof sketch.** Induction on the operations. One that counts has an edit (`exists_resolve?_iff`),
and it is the next one on both sides. One that does not count has none, and is left out on both
sides. -/
lemma rel_edits (d : FileDiff) :
    List.Forall₂ (fun operation edit => d.resolve? operation = some edit)
      (d.operations.filter (d.Names ·)) d.edits := by
  unfold edits
  induction d.operations with
  | nil => exact .nil
  | cons operation operations ih =>
    by_cases hnames : d.Names operation
    · obtain ⟨edit, hedit⟩ := exists_resolve?_iff.mpr hnames
      rw [List.filter_cons_of_pos (by simpa using hnames), List.filterMap_cons_some hedit]
      exact .cons hedit ih
    · have hnone : d.resolve? operation = none := by
        rw [Option.eq_none_iff_forall_ne_some]
        exact fun edit hedit => hnames (exists_resolve?_iff.mp ⟨edit, hedit⟩)
      rw [List.filter_cons_of_neg (by simpa using hnames), List.filterMap_cons_none hnone]
      exact ih

/-! ## Defects -/

/-- An operation that counts is no defect, and the others are. -/
lemma operationDefect?_eq_none_iff {index : ℕ} :
    d.operationDefect? index operation = none ↔ d.Names operation := by
  have hmissing : ∀ (id? : Option NodeId) (t : Tree),
      id?.filter (!t.contains ·) = none ↔ id?.all t.contains := by
    intro id? t
    cases id? with
    | none => simp
    | some id => simp [Option.filter_eq_none_iff]
  rw [names_iff, ← hmissing, ← hmissing]
  unfold operationDefect?
  cases operation.before?.filter (!d.before.contains ·) with
  | some id => exact iff_of_false nofun fun h => nomatch h.1
  | none => exact Option.map_eq_none_iff.trans (and_iff_right rfl).symm

/-- **A compared file has no defect** if both trees are forests and all operations count.

**Proof sketch.** The tree before is checked first, then the tree after, and then the operations
with their positions in the script. A defect in one of them hides what is behind it. That no
position has a defect is the same as that every operation counts. -/
lemma defect?_eq_none_iff : d.defect? = none ↔
    d.before.validate = .ok none ∧ d.after.validate = .ok none ∧
      ∀ operation ∈ d.operations, d.Names operation := by
  rw [← Tree.defect?_eq_none_iff, ← Tree.defect?_eq_none_iff]
  unfold defect?
  cases d.before.defect? with
  | some defect => simp
  | none =>
    cases d.after.defect? with
    | some defect => simp
    | none =>
      simp only [true_and, List.findSome?_eq_none_iff, operationDefect?_eq_none_iff]
      constructor
      · intro h operation hmem
        obtain ⟨index, hin, rfl⟩ := List.getElem_of_mem hmem
        exact h (_, index) (List.mem_zipIdx_iff_getElem?.mpr (List.getElem?_eq_getElem hin))
      · intro h operation hmem
        exact h _ (List.fst_mem_of_mem_zipIdx hmem)

end FileDiff

end EditIdioms
