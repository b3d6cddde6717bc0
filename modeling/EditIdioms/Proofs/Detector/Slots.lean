import EditIdioms.Proofs.Detector.Chain
import EditIdioms.Proofs.Diff.Resolution

set_option relaxedAutoImplicit false
set_option autoImplicit false

/-!
# The slots of a compared file

A chain fills one slot for each operation that counts, in script order. The standard chain always
does so, since none of its detectors is a fault, and what it fills in is told by the edits alone.

## Main definitions

* `Chain.Fills` — what a chain fills in for an operation.

## Main results

* `Chain.exists_slots` — a chain that classifies every edit fills the slots.
* `Chain.slots_eq_of_rel` — files with corresponding edits have the same slots.
-/

namespace EditIdioms

namespace Chain

variable {chain : Chain} {d d' : FileDiff}

/-- The chain fills the slot of an operation with what it classifies the edit as. -/
def Fills (chain : Chain) (d : FileDiff) (operation : Edit NodeId) (slot : Option Rule) : Prop :=
  ∃ edit, d.resolve? operation = some edit ∧ chain.classify edit = .ok slot

/-- The standard chain classifies every edit, whatever the trees are. -/
lemma standard_classify_isOk (edit : Edit Site) : ∃ slot, standard.classify edit = .ok slot :=
  ⟨_, classify_eq (standard_recognise edit)⟩

/-- A chain that classifies every edit fills one slot for each of them. -/
lemma exists_mapM (h : ∀ edit, ∃ slot, chain.classify edit = .ok slot)
    {operations : List (Edit NodeId)} {edits : List (Edit Site)}
    (hedits : List.Forall₂ (fun o e => d.resolve? o = some e) operations edits) :
    ∃ slots, edits.mapM chain.classify = .ok slots ∧
      List.Forall₂ (chain.Fills d) operations slots := by
  induction hedits with
  | nil => exact ⟨[], rfl, .nil⟩
  | @cons operation edit operations edits hresolve _ ih =>
    obtain ⟨slot, hslot⟩ := h edit
    obtain ⟨slots, hslots, hfill⟩ := ih
    refine ⟨slot :: slots, ?_, .cons ⟨edit, hresolve, hslot⟩ hfill⟩
    rw [List.mapM_cons, hslot, hslots]
    rfl

/-- **A chain that classifies every edit** fills one slot for each operation that counts. -/
lemma exists_slots (h : ∀ edit, ∃ slot, chain.classify edit = .ok slot) (d : FileDiff) :
    ∃ slots, chain.slots d = .ok slots ∧
      List.Forall₂ (chain.Fills d) (d.operations.filter (d.Names ·)) slots :=
  exists_mapM h d.rel_edits

/-- **Files with corresponding edits** have the same slots. -/
lemma slots_eq_of_rel {R : Edit Site → Edit Site → Prop} (h : List.Forall₂ R d.edits d'.edits)
    (hR : ∀ edit edit', R edit edit' → chain.classify edit' = chain.classify edit) :
    chain.slots d' = chain.slots d := by
  unfold slots
  generalize d.edits = edits, d'.edits = edits' at h
  induction h with
  | nil => rfl
  | cons hedit _ ih => rw [List.mapM_cons, List.mapM_cons, hR _ _ hedit, ih]

end Chain

end EditIdioms
