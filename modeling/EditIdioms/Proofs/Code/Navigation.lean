import EditIdioms.Proofs.Code.Acyclic
import Mathlib.Data.List.Perm.Subperm

set_option relaxedAutoImplicit false
set_option autoImplicit false

/-!
# Going up and down a grounded tree

In a grounded tree every node has a depth, the number of nodes above it. On the way up no depth
occurs twice, so there are fewer nodes above a node than there are in the tree, and a path that goes
down gains one depth with each step. From this come two inductions, from the roots down and from the
leaves up, and what the walk from a node meets.

## Main definitions

* `Tree.Depth` — how far a node is below a root.
* `Site.depth` — how many nodes are above a site.

## Main results

* `length_le_size` — different nodes are not more than there are.
* `Depth.lt_size` — depths are less than the number of nodes.
* `depth_of_child` — a child is one further below.
* `induction_from_root`, `induction_from_leaves` — induction along the links.
* `mem_walk_iff` — the walk meets what the site is above of.
* `exists_way` — the way up from a node of the walk.
-/

namespace EditIdioms

namespace Tree

variable {t : Tree}

/-! ## Depths -/

/-- How far a node is below a root. -/
inductive Depth (t : Tree) : NodeId → ℕ → Prop
  /-- The node is a root itself. -/
  | root {id : NodeId} (inside : t.contains id) (parent_eq : t.parentOf? id = none) : Depth t id 0
  /-- The node is one further below than its parent. -/
  | child {id parent : NodeId} {d : ℕ} (parent_eq : t.parentOf? id = some parent)
    (above : Depth t parent d) : Depth t id (d + 1)

/-- A node that is below a root has a depth. -/
lemma Rooted.exists_depth {id : NodeId} (h : t.Rooted id) : ∃ d, t.Depth id d := by
  induction h with
  | root inside hroot => exact ⟨0, .root inside hroot⟩
  | child hparent _ ih =>
    obtain ⟨d, hd⟩ := ih
    exact ⟨d + 1, .child hparent hd⟩

/-- A node has one depth, as it has one parent. -/
lemma Depth.unique {id : NodeId} {d d' : ℕ} (h : t.Depth id d) (h' : t.Depth id d') : d = d' := by
  induction h generalizing d' with
  | root _ hroot =>
    cases h' with
    | root => rfl
    | child hparent _ =>
      rw [hroot] at hparent
      cases hparent
  | child hparent _ ih =>
    cases h' with
    | root _ hroot =>
      rw [hroot] at hparent
      cases hparent
    | child hparent' habove =>
      obtain rfl := Option.some.inj (hparent.symm.trans hparent')
      rw [ih habove]

/-- The nodes on the way up from a node are different, as their depths are.

**Proof sketch.** Induction on the depth. A root is a line of its own. Otherwise the node is put
before the line of its parent. It is not on that line yet: all nodes there are at most as deep as
the parent, and a node has only one depth. -/
lemma Depth.exists_line {id : NodeId} {d : ℕ} (h : t.Depth id d) :
    ∃ line : List NodeId, line.Nodup ∧ line.length = d + 1 ∧
      ∀ v ∈ line, t.contains v ∧ ∃ e ≤ d, t.Depth v e := by
  induction h with
  | @root id inside hroot =>
    exact ⟨[id], List.nodup_singleton id, rfl, by
      simpa using ⟨inside, Depth.root inside hroot⟩⟩
  | @child id parent d hparent habove ih =>
    obtain ⟨line, hnodup, hlength, hline⟩ := ih
    have hdepth : t.Depth id (d + 1) := .child hparent habove
    refine ⟨id :: line, List.nodup_cons.mpr ⟨fun hmem => ?_, hnodup⟩, by simp [hlength], ?_⟩
    · obtain ⟨-, e, he, hdepth'⟩ := hline id hmem
      have := hdepth.unique hdepth'
      omega
    · intro v hv
      rcases List.mem_cons.mp hv with rfl | hv
      · exact ⟨contains_of_parentOf? hparent, d + 1, Nat.le_refl _, hdepth⟩
      · obtain ⟨hinside, e, he, hdepth'⟩ := hline v hv
        exact ⟨hinside, e, Nat.le_succ_of_le he, hdepth'⟩

/-- Different nodes of an arena are not more than it has. -/
lemma length_le_size {ids : List NodeId} (hnodup : ids.Nodup)
    (hinside : ∀ id ∈ ids, t.contains id) : ids.length ≤ t.size := by
  have hindices : (ids.map NodeId.index).Nodup := by
    refine hnodup.map fun v w hvw => ?_
    rw [← v.ofIndex_index, hvw, w.ofIndex_index]
  have hrange : ids.map NodeId.index ⊆ List.range t.size := by
    intro i hi
    obtain ⟨v, hv, rfl⟩ := List.mem_map.mp hi
    exact List.mem_range.mpr (by simpa [contains] using hinside v hv)
  simpa using (List.Nodup.subperm hindices hrange).length_le

/-- **Depths are less than the number of nodes**: a node and those above it are that many different
ones. -/
lemma Depth.lt_size {id : NodeId} {d : ℕ} (h : t.Depth id d) : d < t.size := by
  obtain ⟨line, hnodup, hlength, hline⟩ := h.exists_line
  have hle := length_le_size hnodup fun v hv => (hline v hv).1
  rwa [hlength] at hle

end Tree

namespace Site

open EditIdioms.Tree

variable {s c p e : Site}

/-! ## Upwards -/

/-- As many nodes are above a site as its depth says, if the bound is not less.

**Proof sketch.** Induction on the depth. At depth zero the site is a root and there is nothing
above it. Otherwise it has a parent, which is there as the links agree, and whose depth is one less.
The parent is one site, and the rest are those above it, for which one step of the bound is left
over. -/
lemma length_ancestorsWithin (h : s.tree.Linked) {d : ℕ} (hd : s.tree.Depth s.id d) {bound : ℕ}
    (hbound : d ≤ bound) : (ancestorsWithin bound s).length = d := by
  induction d generalizing s bound with
  | zero =>
    cases hd with
    | root inside hroot =>
      have hs : s.parent? = none := by
        rw [parent?, ← parentOf?_id, hroot, Option.bind_none]
      rw [ancestorsWithin_of_root hs, List.length_nil]
  | succ d ih =>
    cases hd with
    | @child _ parent _ hparent habove =>
      obtain ⟨bound, rfl⟩ := Nat.exists_eq_succ_of_ne_zero (Nat.ne_zero_of_lt hbound)
      obtain ⟨p, hp, rfl⟩ := exists_parent? h hparent
      have htree := tree_of_parent? hp
      rw [← htree] at h habove
      rw [ancestorsWithin_of_child hp, List.length_cons,
        ih h habove (Nat.le_of_succ_le_succ hbound)]

/-- How many nodes are above the site. -/
def depth (s : Site) : ℕ := s.ancestors.length

/-- In a grounded tree this is how far the site is below its root. -/
lemma depth_spec (h : s.tree.Grounded) : s.tree.Depth s.id s.depth := by
  obtain ⟨d, hd⟩ := (h.rooted (contains_of_node? s.node?_id)).exists_depth
  have hlength := length_ancestorsWithin h.toLinked hd (Nat.le_of_lt hd.lt_size)
  rwa [depth, ancestors, hlength]

/-- The depth of a site is less than the number of nodes. -/
lemma depth_lt_size (h : s.tree.Grounded) : s.depth < s.tree.size := (depth_spec h).lt_size

/-- A child is one further below. -/
lemma depth_of_child (h : s.tree.Grounded) (hp : s.parent? = some p) : s.depth = p.depth + 1 := by
  obtain ⟨htree, hparent⟩ := parent?_eq_some_iff.mp hp
  have hp' := depth_spec (s := p) (htree ▸ h)
  rw [htree] at hp'
  exact (depth_spec h).unique (.child hparent hp')

/-- **Induction from the roots down.** What holds of the sites without parent, and of a child if it
does of its parent, holds of every site of a grounded tree.

**Proof sketch.** Induction on the depth. A site of depth zero has no parent, since a child is
deeper than its parent; a site of any other depth that has one is one deeper than it. -/
lemma induction_from_root {P : (s : Site) → s.tree.Grounded → Prop}
    (root : ∀ (s : Site) h, s.parent? = none → P s h)
    (child : ∀ (s p : Site) h (hp : s.parent? = some p), P p (tree_of_parent? hp ▸ h) → P s h)
    (s : Site) (h : s.tree.Grounded) : P s h := by
  generalize hd : s.depth = d
  induction d generalizing s with
  | zero =>
    refine root s h ?_
    cases hp : s.parent? with
    | none => rfl
    | some p =>
      have := depth_of_child h hp
      omega
  | succ d ih =>
    cases hp : s.parent? with
    | none => exact root s h hp
    | some p =>
      have := depth_of_child h hp
      exact child s p h hp (ih p _ (by omega))

/-- What is above a site stands in the same tree. -/
lemma tree_of_mem_ancestors (hs : s ∈ e.ancestors) : s.tree = e.tree := by
  unfold ancestors at hs
  generalize e.tree.size = bound at hs
  induction bound generalizing e with
  | zero => cases hs
  | succ bound ih =>
    cases hp : e.parent? with
    | none =>
      rw [ancestorsWithin_of_root hp] at hs
      cases hs
    | some p =>
      rw [ancestorsWithin_of_child hp, List.mem_cons] at hs
      rcases hs with rfl | hs
      · exact tree_of_parent? hp
      · exact (ih hs).trans (tree_of_parent? hp)

/-- What is above a site is less far below. -/
lemma depth_lt_of_mem_ancestors (h : e.tree.Grounded) (hs : s ∈ e.ancestors) :
    s.depth < e.depth := by
  induction e, h using induction_from_root with
  | root e h hroot =>
    rw [ancestors_of_root hroot] at hs
    cases hs
  | child e p h hp ih =>
    have hdepth := depth_of_child h hp
    rw [ancestors_of_child h.acyclic hp, List.mem_cons] at hs
    rcases hs with rfl | hs
    · omega
    · have := ih hs
      omega

/-- **The way up** from a site to one above it: whatever is on it is further below.

**Proof sketch.** Induction from the root. A root has nothing above it, so the site is the root
itself. Otherwise the site is the lower one, and the way is empty, or it is the parent or above it,
and the lower site is put before the way from the parent. It is further below than the sites on that
way, which by the length of the way up are further below than the upper site. -/
lemma exists_way (h : e.tree.Grounded) (hs : s ∈ e :: e.ancestors) :
    ∃ way, e :: e.ancestors = way ++ s :: s.ancestors ∧ ∀ v ∈ way, s.depth < v.depth := by
  induction e, h using induction_from_root with
  | root e h hroot =>
    rw [ancestors_of_root hroot, List.mem_singleton] at hs
    subst hs
    exact ⟨[], rfl, nofun⟩
  | child e p h hp ih =>
    rcases List.mem_cons.mp hs with rfl | hs
    · exact ⟨[], rfl, nofun⟩
    · rw [ancestors_of_child h.acyclic hp] at hs ⊢
      obtain ⟨way, hway, hbelow⟩ := ih hs
      refine ⟨e :: way, by rw [hway, List.cons_append], fun v hv => ?_⟩
      rcases List.mem_cons.mp hv with rfl | hv
      · have hlength := congrArg List.length hway
        rw [List.length_append, List.length_cons, List.length_cons] at hlength
        have hdepth := depth_of_child h hp
        unfold depth at hdepth ⊢
        omega
      · exact hbelow v hv

/-- What is above a site is also above those it is above of. -/
lemma mem_ancestors_of_parent? (h : e.tree.Grounded) (hc : c ∈ e :: e.ancestors)
    (hs : c.parent? = some s) : s ∈ e :: e.ancestors := by
  obtain ⟨way, hway, -⟩ := exists_way h hc
  have htree : c.tree = e.tree := by
    rcases List.mem_cons.mp hc with rfl | hc
    · rfl
    · exact tree_of_mem_ancestors hc
  rw [hway, ancestors_of_child (htree ▸ h.acyclic) hs]
  simp

/-! ## Downwards -/

/-- A child is one further below. -/
lemma depth_of_mem_children (h : s.tree.Grounded) (hc : c ∈ s.children) :
    c.depth = s.depth + 1 :=
  depth_of_child (tree_of_mem_children hc ▸ h)
    ((parent?_eq_some_iff_mem_children h.toLinked).mpr hc)

/-- **Induction from the leaves up.** What holds of a site if it does of its children holds of every
site of a grounded tree.

**Proof sketch.** Induction on how far the depth is below the size of the tree. A depth is less than
the size, and a child is one deeper than its parent. -/
lemma induction_from_leaves {P : (s : Site) → s.tree.Grounded → Prop}
    (step : ∀ (s : Site) h, (∀ c (hc : c ∈ s.children), P c (tree_of_mem_children hc ▸ h)) → P s h)
    (s : Site) (h : s.tree.Grounded) : P s h := by
  generalize hroom : s.tree.size - s.depth = room
  induction room generalizing s with
  | zero =>
    have := depth_lt_size h
    omega
  | succ room ih =>
    refine step s h fun c hc => ih c _ ?_
    have := depth_of_mem_children h hc
    rw [tree_of_mem_children hc]
    omega

/-- The walk goes on to the children of what it meets. -/
lemma mem_walk_of_child (h : s.tree.Grounded) (hp : p ∈ s.walk) (he : e ∈ p.children) :
    e ∈ s.walk := by
  induction s, h using induction_from_leaves with
  | step s h ih =>
    rw [walk_eq h.acyclic, List.mem_cons, List.mem_flatMap] at hp ⊢
    rcases hp with rfl | ⟨c, hc, hp⟩
    · have he' : e.tree.Grounded := tree_of_mem_children he ▸ h
      exact .inr ⟨e, he, by rw [walk_eq he'.acyclic]; exact List.mem_cons_self⟩
    · exact .inr ⟨c, hc, ih c hc hp⟩

/-- The walk stays in the tree. -/
lemma tree_of_mem_walk (h : s.tree.Grounded) (he : e ∈ s.walk) : e.tree = s.tree := by
  induction s, h using induction_from_leaves with
  | step s h ih =>
    rw [walk_eq h.acyclic, List.mem_cons, List.mem_flatMap] at he
    rcases he with rfl | ⟨c, hc, he⟩
    · rfl
    · exact (ih c hc he).trans (tree_of_mem_children hc)

/-- **The walk meets what the site is above of.**

**Proof sketch.** A site that is met is the start of the walk or is met from one of its children; by
induction from the leaves it is below that child or the child itself, and so below the start. The
other way round, by induction from the root, if the start is above the site it is the site itself,
or is the parent or above it; then the walk meets the parent, and with it all its children
(`mem_walk_of_child`). -/
lemma mem_walk_iff (h : s.tree.Grounded) (htree : e.tree = s.tree) :
    e ∈ s.walk ↔ s ∈ e :: e.ancestors := by
  have he : e.tree.Grounded := htree ▸ h
  constructor
  · intro hmem
    induction s, h using induction_from_leaves with
    | step s h ih =>
      rw [walk_eq h.acyclic, List.mem_cons, List.mem_flatMap] at hmem
      rcases hmem with rfl | ⟨c, hc, hmem⟩
      · exact List.mem_cons_self
      · have hup := ih c hc (htree.trans (tree_of_mem_children hc).symm) hmem
        exact mem_ancestors_of_parent? he hup
          ((parent?_eq_some_iff_mem_children h.toLinked).mpr hc)
  · intro hs
    induction e, he using induction_from_root with
    | root e he hroot =>
      rw [ancestors_of_root hroot, List.mem_singleton] at hs
      subst hs
      rw [walk_eq h.acyclic]
      exact List.mem_cons_self
    | child e p he hp ih =>
      rw [ancestors_of_child he.acyclic hp, List.mem_cons] at hs
      rcases hs with rfl | hs
      · rw [walk_eq h.acyclic]
        exact List.mem_cons_self
      · have hp' : p.tree.Grounded := tree_of_parent? hp ▸ he
        exact mem_walk_of_child h (ih ((tree_of_parent? hp).trans htree) hs)
          ((parent?_eq_some_iff_mem_children hp'.toLinked).mp hp)

end Site

end EditIdioms
