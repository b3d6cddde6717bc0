import EditIdioms.Code.Site
import EditIdioms.Proofs.Code.Forest

set_option relaxedAutoImplicit false
set_option autoImplicit false

/-!
# The neighbours of a node

Sites as numbers of one tree, and the parent and the children of a site as what its node names and
lists inside the arena.

## Main results

* `parent?_eq_some_iff`, `mem_children_iff`, `child?_eq_some_iff` — the neighbours.
* `parent?_eq_some_iff_mem_children` — going up undoes going down.
-/

namespace EditIdioms

namespace Tree

variable {t : Tree}

/-- The sites of a tree are told by their numbers. -/
lemma site?_eq_some_iff {id : NodeId} {s : Site} :
    t.site? id = some s ↔ s.tree = t ∧ s.id = id := by
  unfold site?
  split
  · constructor
    · intro h
      cases h
      exact ⟨rfl, rfl⟩
    · rintro ⟨rfl, rfl⟩
      rfl
  · rename_i hout
    refine iff_of_false nofun ?_
    rintro ⟨rfl, rfl⟩
    exact hout s.inArena

/-- To look up a number with a property is to have a site whose number has it. -/
lemma exists_site?_eq_some_iff {P : NodeId → Prop} {s : Site} :
    (∃ id, P id ∧ t.site? id = some s) ↔ s.tree = t ∧ P s.id := by
  constructor
  · rintro ⟨id, hid, hsite⟩
    obtain ⟨htree, rfl⟩ := site?_eq_some_iff.mp hsite
    exact ⟨htree, hid⟩
  · rintro ⟨htree, hid⟩
    exact ⟨s.id, hid, site?_eq_some_iff.mpr ⟨htree, rfl⟩⟩

end Tree

namespace Site

open EditIdioms.Tree

variable {s c p e : Site}

/-- A site is told by its tree and its number. -/
lemma eq_of_id_eq (htree : s.tree = e.tree) (hid : s.id = e.id) : s = e := by
  cases s
  cases e
  cases htree
  cases hid
  rfl

/-- The node at the site is the one with its number. -/
lemma node?_id (s : Site) : s.tree.node? s.id = some s.node :=
  Array.getElem?_eq_getElem s.inArena

/-- The children that a site lists. -/
lemma listed_id (s : Site) : s.tree.listed s.id = s.node.children := by
  rw [listed, node?_id]

/-- The parent that a site names. -/
lemma parentOf?_id (s : Site) : s.tree.parentOf? s.id = s.node.parent := by
  rw [parentOf?, node?_id, Option.bind_some]

/-- A parent stands in the same tree and is the one that is named. -/
lemma parent?_eq_some_iff :
    c.parent? = some p ↔ p.tree = c.tree ∧ c.tree.parentOf? c.id = some p.id := by
  rw [parent?, parentOf?_id, Option.bind_eq_some_iff, exists_site?_eq_some_iff]

/-- A child stands in the same tree and is listed. -/
lemma mem_children_iff : c ∈ s.children ↔ c.tree = s.tree ∧ c.id ∈ s.tree.listed s.id := by
  rw [children, List.mem_filterMap, listed_id, exists_site?_eq_some_iff]

/-- A parent stands in the same tree. -/
lemma tree_of_parent? (h : c.parent? = some p) : p.tree = c.tree := (parent?_eq_some_iff.mp h).1

/-- A child stands in the same tree. -/
lemma tree_of_mem_children (h : c ∈ s.children) : c.tree = s.tree := (mem_children_iff.mp h).1

/-- The child at a position is a child. -/
lemma mem_children_of_child? {i : ℕ} (h : s.child? i = some c) : c ∈ s.children := by
  obtain ⟨id, hid, hsite⟩ := Option.bind_eq_some_iff.mp h
  exact List.mem_filterMap.mpr ⟨id, List.mem_of_getElem? hid, hsite⟩

/-- The child at a position stands in the same tree and is listed there. -/
lemma child?_eq_some_iff {i : ℕ} :
    s.child? i = some c ↔ c.tree = s.tree ∧ s.node.children[i]? = some c.id := by
  rw [child?, Option.bind_eq_some_iff, exists_site?_eq_some_iff]

/-- **Going up undoes going down** where links agree. -/
lemma parent?_eq_some_iff_mem_children (h : s.tree.Linked) :
    c.parent? = some s ↔ c ∈ s.children := by
  rw [parent?_eq_some_iff, mem_children_iff, eq_comm, h.mem_listed_iff]
  refine and_congr_right fun htree => ?_
  rw [htree]

/-- Where links agree, the parent that a site names is there. -/
lemma exists_parent? (h : s.tree.Linked) {parent : NodeId}
    (hparent : s.tree.parentOf? s.id = some parent) : ∃ p, s.parent? = some p ∧ p.id = parent := by
  have hin : parent.index < s.tree.size := by
    simpa [contains] using h.parent_inside hparent
  exact ⟨⟨s.tree, parent, hin⟩, parent?_eq_some_iff.mpr ⟨rfl, hparent⟩, rfl⟩

/-- Where links agree, there is no parent exactly if none is named. -/
lemma parent?_eq_none_iff (h : s.tree.Linked) : s.parent? = none ↔ s.node.parent = none := by
  constructor
  · intro hnone
    refine Option.eq_none_iff_forall_ne_some.mpr fun parent hparent => ?_
    obtain ⟨p, hp, -⟩ := exists_parent? h (s.parentOf?_id.trans hparent)
    rw [hnone] at hp
    cases hp
  · intro hnone
    rw [parent?, hnone, Option.bind_none]

end Site

end EditIdioms
