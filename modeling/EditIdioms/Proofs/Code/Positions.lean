import EditIdioms.Proofs.Code.Traversal
import EditIdioms.Proofs.Lists

set_option relaxedAutoImplicit false
set_option autoImplicit false

/-!
# Positions among siblings

A node knows its parent and not its position. The position is the first place at which the parent
lists the number of the node, a child is looked up in the list as it is written, and the siblings
behind a node are counted among the children that are there. In a forest these three countings
agree: every listed child is there, so nothing is left out where children are looked up, and none
is listed twice, so the first place is the only one.

## Main definitions

* `Site.StandsAt` — a site is the child at a position of its parent.

## Main results

* `getElem?_children` — where links agree, positions count the children that are there.
* `indexInParent_eq_none_iff`, `indexInParent_eq_some_iff` — what a node is told of its position.
* `existsUnique_place` — a child has one position.
* `getElem?_following`, `mem_following_iff` — the siblings behind a site are those at the positions
  behind its own.
-/

namespace EditIdioms

namespace Site

open EditIdioms.Tree

variable {s c p : Site} {i : ℕ}

/-- The site is the child at a position of its parent. -/
def StandsAt (s p : Site) (i : ℕ) : Prop := s.parent? = some p ∧ p.child? i = some s

/-! ## Children by position -/

/-- **Where links agree**, positions count the children that are there. -/
lemma getElem?_children (h : s.tree.Linked) (i : ℕ) : s.children[i]? = s.child? i := by
  have hlisted : s.node.children[i]? = s.children[i]?.map (·.id) := by
    rw [← map_id_children h, List.getElem?_map]
  rw [child?, hlisted]
  cases hc : s.children[i]? with
  | none => rfl
  | some c =>
    have htree : c.tree = s.tree := tree_of_mem_children (List.mem_of_getElem? hc)
    exact (site?_eq_some_iff.mpr ⟨htree, rfl⟩).symm

/-- Where links agree, who is the child at a position stands at it. -/
lemma standsAt_iff (h : s.tree.Linked) : s.StandsAt p i ↔ p.child? i = some s := by
  refine and_iff_right_of_imp fun hchild => ?_
  have htree : s.tree = p.tree := (child?_eq_some_iff.mp hchild).1
  exact (parent?_eq_some_iff_mem_children (htree ▸ h)).mpr (mem_children_of_child? hchild)

/-- Positions are less than the number of nodes. -/
lemma lt_size_of_child? (h : p.tree.WellFormed) (hc : p.child? i = some c) :
    i < p.tree.size := by
  have hlisted := List.getElem?_eq_some_iff.mp (child?_eq_some_iff.mp hc).2
  rw [← listed_id] at hlisted
  exact Nat.lt_of_lt_of_le hlisted.1
    (length_le_size (h.nodup_listed p.id) fun _ hid => h.child_inside hid)

/-! ## The position of a node -/

/-- Asking for the position is no fault where links agree. -/
lemma indexInParent_isOk (h : s.tree.Linked) : ∃ position?, s.indexInParent = .ok position? := by
  cases hp : s.parent? with
  | none =>
    refine ⟨none, ?_⟩
    rw [indexInParent, (parent?_eq_none_iff h).mp hp]
  | some p => exact ⟨_, indexInParent_eq hp⟩

/-- **No position** is told exactly to a node without parent. -/
lemma indexInParent_eq_none_iff (h : s.tree.Linked) :
    s.indexInParent = .ok none ↔ s.node.parent = none := by
  constructor
  · intro hnone
    rw [← parent?_eq_none_iff h]
    refine Option.eq_none_iff_forall_ne_some.mpr fun p hp => ?_
    have htree : s.tree = p.tree := (tree_of_parent? hp).symm
    rw [indexInParent_eq hp, Except.ok.injEq, List.idxOf?_eq_none_iff] at hnone
    have hchild := (parent?_eq_some_iff_mem_children (htree ▸ h)).mp hp
    rw [mem_children_iff, listed_id] at hchild
    exact hnone hchild.2
  · intro hnone
    rw [indexInParent, hnone]

/-- In a forest a parent lists the number of a child once, so its first place is where the child
is. -/
lemma idxOf?_eq_some_iff_child? (h : s.tree.WellFormed) (hp : s.parent? = some p) :
    p.node.children.idxOf? s.id = some i ↔ p.child? i = some s := by
  have htree := tree_of_parent? hp
  have hnodup : p.node.children.Nodup := listed_id p ▸ (htree ▸ h).nodup_listed p.id
  rw [idxOf?_eq_some_iff_getElem? hnodup, child?_eq_some_iff, and_iff_right htree.symm]

/-- **The position** that is told to a node of a forest is the one at which it is the child. -/
lemma indexInParent_eq_some_iff (h : s.tree.WellFormed) :
    s.indexInParent = .ok (some i) ↔ ∃ p, s.StandsAt p i := by
  constructor
  · intro hposition
    cases hp : s.parent? with
    | none =>
      rw [indexInParent, (parent?_eq_none_iff h.toLinked).mp hp] at hposition
      cases hposition
    | some p =>
      rw [indexInParent_eq hp, Except.ok.injEq, idxOf?_eq_some_iff_child? h hp] at hposition
      exact ⟨p, hp, hposition⟩
  · rintro ⟨p, hp, hchild⟩
    rw [indexInParent_eq hp, (idxOf?_eq_some_iff_child? h hp).mpr hchild]

/-- **The child at a position** of its parent is the child at no other, in the whole forest. -/
lemma standsAt_iff_forall (h : s.tree.WellFormed) :
    s.StandsAt p i ↔ s.parent? = some p ∧ ∀ q j, q.child? j = some s ↔ q = p ∧ j = i := by
  constructor
  · intro hs
    have hposition := (indexInParent_eq_some_iff h).mpr ⟨p, hs⟩
    refine ⟨hs.1, fun q j => ⟨fun hq => ?_, ?_⟩⟩
    · have hs' := (standsAt_iff h.toLinked).mpr hq
      have hposition' := (indexInParent_eq_some_iff h).mpr ⟨q, hs'⟩
      exact ⟨Option.some.inj (hs'.1.symm.trans hs.1),
        Option.some.inj (Except.ok.inj (hposition'.symm.trans hposition))⟩
    · rintro ⟨rfl, rfl⟩
      exact hs.2
  · rintro ⟨hp, hplace⟩
    exact ⟨hp, (hplace p i).mpr ⟨rfl, rfl⟩⟩

/-- A child of a forest stands at some position of its parent. -/
lemma exists_standsAt (h : s.tree.WellFormed) (hp : s.parent? = some p) :
    ∃ i, s.StandsAt p i := by
  obtain ⟨position?, hposition⟩ := indexInParent_isOk h.toLinked
  cases position? with
  | none =>
    have hnone := (indexInParent_eq_none_iff h.toLinked).mp hposition
    rw [← parent?_eq_none_iff h.toLinked, hp] at hnone
    cases hnone
  | some i =>
    obtain ⟨q, hs⟩ := (indexInParent_eq_some_iff h).mp hposition
    obtain rfl : q = p := Option.some.inj (hs.1.symm.trans hp)
    exact ⟨i, hs⟩

/-- **A child has one position**, in the whole forest. -/
lemma existsUnique_place (h : s.tree.WellFormed) (hparent : s.node.parent ≠ none) :
    ∃! place : Site × ℕ, place.1.child? place.2 = some s := by
  rw [ne_eq, ← parent?_eq_none_iff h.toLinked] at hparent
  obtain ⟨p, hp⟩ := Option.ne_none_iff_exists'.mp hparent
  obtain ⟨i, hs⟩ := exists_standsAt h hp
  refine ⟨(p, i), hs.2, fun place hplace => ?_⟩
  obtain ⟨hq, hj⟩ := (((standsAt_iff_forall h).mp hs).2 _ _).mp hplace
  exact Prod.ext hq hj

/-! ## The siblings behind -/

/-- The siblings behind a site are what is left of the children after its position. -/
lemma following_eq_drop (h : s.tree.WellFormed) (hs : s.StandsAt p i) :
    s.following = p.children.drop (i + 1) := by
  have hlinked : p.tree.Linked := tree_of_parent? hs.1 ▸ h.toLinked
  have hposition := (idxOf?_eq_some_iff_child? h hs.1).mpr hs.2
  rw [← map_id_children hlinked] at hposition
  rw [following, hs.1]
  dsimp only
  rw [← drop_idxOf?, hposition, Option.map_some, Option.getD_some]

/-- **The siblings behind a site** are the children at the positions behind its own, in order. -/
lemma getElem?_following (h : s.tree.WellFormed) (hs : s.StandsAt p i) (k : ℕ) :
    s.following[k]? = p.child? (i + 1 + k) := by
  have hlinked : p.tree.Linked := tree_of_parent? hs.1 ▸ h.toLinked
  rw [following_eq_drop h hs, List.getElem?_drop, getElem?_children hlinked]

/-- No sibling comes twice among those that follow. -/
lemma nodup_following (h : s.tree.WellFormed) : s.following.Nodup := by
  unfold following
  cases hp : s.parent? with
  | none => exact List.nodup_nil
  | some p =>
    have hnodup := nodup_children (tree_of_parent? hp ▸ h : p.tree.WellFormed)
    exact hnodup.sublist ((List.tail_sublist _).trans (List.dropWhile_sublist _))

/-- **They are the siblings at larger positions.**

**Proof sketch.** What follows a site at a position are the children of its parent from the next
position on, in order (`getElem?_following`). So the `k`-th of them stands `k + 1` places behind the
site, and a sibling at a larger position is the one at the difference. -/
lemma mem_following_iff (h : s.tree.WellFormed) :
    c ∈ s.following ↔ ∃ p i j, s.StandsAt p i ∧ c.StandsAt p j ∧ i < j := by
  constructor
  · intro hc
    obtain ⟨p, hp, hp'⟩ := parent?_of_mem_following h.toLinked hc
    obtain ⟨i, hs⟩ := exists_standsAt h hp
    obtain ⟨k, hk⟩ := List.mem_iff_getElem?.mp hc
    rw [getElem?_following h hs] at hk
    exact ⟨p, i, i + 1 + k, hs, ⟨hp', hk⟩, by omega⟩
  · rintro ⟨p, i, j, hs, hc, hlt⟩
    obtain ⟨k, rfl⟩ := Nat.exists_eq_add_of_lt hlt
    refine List.mem_iff_getElem?.mpr ⟨k, ?_⟩
    rw [getElem?_following h hs, ← hc.2]
    congr 1
    omega

end Site

end EditIdioms
