import EditIdioms.Proofs.Code.Loops
import EditIdioms.Proofs.Detector.Slots

set_option relaxedAutoImplicit false
set_option autoImplicit false

/-!
# Compared files that were not checked

The standard chain may be asked about any compared file, well formed or not. Parents and children
may be missing or disagree, nodes may be listed more than once, and operations may name what is not
there. As long as links make no cycle, there is a slot for each operation that counts: the loops
over the trees come to an end, and no detector reaches outside an arena.

## Main definitions

* `tangled` — a compared file with all these defects.

## Main results

* `Chain.standard_fills_unchecked` — the standard chain fills the slots.
-/

namespace EditIdioms

/-- **The standard chain fills the slots of compared files that were not checked.** The two trees
must not have a cycle in the links to children that are there, nor in the links to parents that are
there. Then, from every node of them, the searches, the comparisons and the way up to the executable
come to an end, and the chain is no fault, and fills one slot for each operation whose nodes are
there, in script order.

**Proof sketch.** After a step along links fewer nodes can be met than before, since no way leads
back (`Site.height_lt`); the loops follow by induction against the links. A place among siblings is
asked for only after the parent was found, so no detector is a fault whatever the trees are
(`standard_recognise`). -/
theorem Chain.standard_fills_unchecked {d : FileDiff} (hbefore : d.before.Acyclic)
    (hafter : d.after.Acyclic) :
    (∀ s : Site, s.tree = d.before ∨ s.tree = d.after → s.LoopsEnd) ∧
      ∃ slots, standard.slots d = .ok slots ∧
        List.Forall₂ (standard.Fills d) (d.operations.filter (d.Names ·)) slots := by
  refine ⟨fun s hs => ?_, exists_slots standard_classify_isOk d⟩
  rcases hs with hs | hs
  · exact hbefore.loopsEnd hs
  · exact hafter.loopsEnd hs

/-- A negation is listed twice by the condition around it, which also lists a node that is not
there; another negation is not listed by the parent it names, and the variable below names a parent
that is not there. One of the operations names nodes that are not there. -/
def tangled : FileDiff where
  before := {}
  after.nodes := #[{ kind := .ifStatement, children := [⟨1⟩, ⟨9⟩, ⟨1⟩] },
    { kind := .unary .not, parent := some ⟨0⟩, children := [⟨3⟩] },
    { kind := .unary .not, parent := some ⟨0⟩, children := [⟨3⟩] },
    { kind := .variableRead "x", parent := some ⟨7⟩ }]
  operations := [.insert ⟨1⟩, .update ⟨0⟩ ⟨9⟩, .insert ⟨2⟩, .insert ⟨3⟩]

/-- Three of four slots are filled, one of them with a rule. -/
theorem Chain.standard_fills_unchecked_tangled :
    (tangled.before.Acyclic ∧ tangled.after.Acyclic ∧ tangled.defect?.isSome = true) ∧
      tangled.operations.filter (tangled.Names ·) = [.insert ⟨1⟩, .insert ⟨2⟩, .insert ⟨3⟩] ∧
      standard.slots tangled = .ok [some .conditionalNegated, none, none] ∧
      ∀ s : Site, s.tree = tangled.after → s.LoopsEnd := by
  have hbefore : tangled.before.Acyclic := Tree.acyclic_of_ascending (by decide) (by decide)
  have hafter : tangled.after.Acyclic := Tree.acyclic_of_ascending (by decide) (by decide)
  obtain ⟨hloops, -⟩ := standard_fills_unchecked hbefore hafter
  exact ⟨⟨hbefore, hafter, by decide +kernel⟩, by decide +kernel, by decide +kernel,
    fun s hs => hloops s (.inr hs)⟩

end EditIdioms
