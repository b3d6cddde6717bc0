import EditIdioms.Code.Validation
import Mathlib.Data.List.Nodup
import Mathlib.Data.List.Perm.Basic
import Mathlib.Tactic.Lemma

set_option relaxedAutoImplicit false
set_option autoImplicit false

/-!
# Validation decides which arenas are forests

An arena is a forest when its links point inside, parents and children agree, nobody is listed
twice, and going up from any node comes to a node without parent. Validation looks at the links of
each node first; what is left to find out is whether the walk from the roots meets every node once.

On arenas with agreeing links the walk is governed by one relation between the nodes that have not
been met and the stack: every one of the former waits exactly once, on the stack or below another
one that has not been met. A step of the walk keeps it, so it holds at the start exactly if the walk
never meets a node twice. That nothing is left over at the end is where it matters that every node
is below a root: a cycle satisfies the relation with an empty stack.

## Main definitions

* `Tree.parentOf?` — the parent that a node names.
* `Tree.Rooted` — going up from a node comes to an end.
* `Tree.Linked` — links point inside and agree.
* `Tree.WellFormed` — the arena is a forest.
* `Tree.Grounded` — links agree and every node is below a root.

## Main results

* `linkDefect?_eq_none_iff`, `linked_iff` — what the check of the links finds out.
* `sweep_induction` — induction along the walk.
* `sweep_isOk` — the walk stays inside the arena.
* `sweep_sound`, `sweep_complete` — the walk finds no defect exactly if each node waits once and is
  below a root.
* `grounded_of_validate` — what a tree without defect gives to those who go along its links.
* `validate_isOk`, `validate_eq_none_iff`, `validate_decides` — validation decides which arenas are
  forests.
-/

namespace EditIdioms

namespace Tree

variable (t : Tree)

/-- The parent that a node names, if there is such a node and it names one. -/
def parentOf? (id : NodeId) : Option NodeId := (t.node? id).bind (·.parent)

/-- Going up from a node of the arena comes to a node without parent. -/
inductive Rooted : NodeId → Prop
  /-- The node has no parent itself. -/
  | root {id : NodeId} (inside : t.contains id) (parent_eq : t.parentOf? id = none) : Rooted id
  /-- Going up from its parent comes to one. -/
  | child {id parent : NodeId} (parent_eq : t.parentOf? id = some parent) (above : Rooted parent) :
    Rooted id

/-- Links point inside the arena, and parents and children agree. -/
structure Linked : Prop where
  parent_inside : ∀ {id parent : NodeId}, t.parentOf? id = some parent → t.contains parent
  child_inside : ∀ {id child : NodeId}, child ∈ t.listed id → t.contains child
  mem_listed_iff : ∀ {id child : NodeId}, child ∈ t.listed id ↔ t.parentOf? child = some id

/-- The arena is a forest. -/
structure WellFormed : Prop extends Linked t where
  listed_once : ∀ {id parent : NodeId}, t.parentOf? id = some parent →
    (t.listed parent).count id = 1
  rooted : ∀ {id : NodeId}, t.contains id → t.Rooted id

/-- Links agree and every node is below a root. This is what going along links relies on; that no
child is listed twice is not needed for it. -/
structure Grounded : Prop extends Linked t where
  rooted : ∀ {id : NodeId}, t.contains id → t.Rooted id

variable {t}

/-! ## The nodes of an arena -/

/-- There is a node exactly at the numbers inside the arena. -/
lemma node?_eq_none_iff {id : NodeId} : t.node? id = none ↔ t.contains id = false := by
  rw [node?, Array.getElem?_eq_none_iff, contains, decide_eq_false_iff_not, Nat.not_lt, size]

/-- A number with a node is inside the arena. -/
lemma contains_of_node? {id : NodeId} {node : Node} (h : t.node? id = some node) :
    t.contains id := by
  by_contra hout
  rw [node?_eq_none_iff.mpr (by simpa using hout)] at h
  cases h

/-- Inside the arena there is a node. -/
lemma exists_node {id : NodeId} (h : t.contains id) : ∃ node, t.node? id = some node := by
  cases hnode : t.node? id with
  | none => rw [node?_eq_none_iff.mp hnode] at h; cases h
  | some node => exact ⟨node, rfl⟩

/-- A node that names a parent is inside the arena. -/
lemma contains_of_parentOf? {id parent : NodeId} (h : t.parentOf? id = some parent) :
    t.contains id := by
  obtain ⟨node, hnode, -⟩ := Option.bind_eq_some_iff.mp h
  exact contains_of_node? hnode

/-- A node that lists a child is inside the arena. -/
lemma contains_of_mem_listed {id child : NodeId} (h : child ∈ t.listed id) : t.contains id := by
  cases hnode : t.node? id with
  | none => rw [listed, hnode] at h; cases h
  | some node => exact contains_of_node? hnode

/-- The numbers of the nodes are those inside the arena. -/
lemma mem_ids {id : NodeId} : id ∈ t.ids ↔ t.contains id := by
  simp only [ids, List.mem_map, List.mem_range, contains, decide_eq_true_eq]
  constructor
  · rintro ⟨i, hi, rfl⟩
    exact Nat.lt_of_le_of_lt (NodeId.index_ofIndex_le i) hi
  · exact fun h => ⟨id.index, h, id.ofIndex_index⟩

/-- No number is given to two nodes. -/
lemma nodup_ids (hsize : t.size ≤ UInt32.size) : t.ids.Nodup := by
  refine List.Nodup.map_on ?_ List.nodup_range
  intro i hi j hj hij
  rw [List.mem_range] at hi hj
  rw [← NodeId.index_ofIndex (Nat.lt_of_lt_of_le hi hsize), hij,
    NodeId.index_ofIndex (Nat.lt_of_lt_of_le hj hsize)]

/-- The roots are the nodes without parent. -/
lemma mem_roots {id : NodeId} : id ∈ t.roots ↔ t.contains id ∧ t.parentOf? id = none := by
  rw [roots, List.mem_filter, mem_ids]
  refine and_congr_right fun h => ?_
  obtain ⟨node, hnode⟩ := exists_node h
  simp [parentOf?, hnode]

/-! ## The check of the links -/

/-- A link to a parent is right when the parent is inside the arena and lists the node. -/
lemma parentDefect?_eq_none_iff {id parent : NodeId} :
    t.parentDefect? id parent = none ↔ id ∈ t.listed parent := by
  unfold parentDefect? listed
  cases t.node? parent with
  | none => simp
  | some above => simp

/-- A link to a child is right when the child is inside the arena and names the node. -/
lemma childDefect?_eq_none_iff {id child : NodeId} :
    t.childDefect? id child = none ↔ t.parentOf? child = some id := by
  unfold childDefect? parentOf?
  cases t.node? child with
  | none => simp
  | some below => simp

/-- The links of a node are right when its parent lists it and its children name it. -/
lemma linkDefect?_eq_none_iff {id : NodeId} :
    t.linkDefect? id = none ↔
      (∀ parent, t.parentOf? id = some parent → id ∈ t.listed parent) ∧
        ∀ child ∈ t.listed id, t.parentOf? child = some id := by
  cases hnode : t.node? id with
  | none => simp [linkDefect?, parentOf?, listed, hnode]
  | some node =>
    have hparent : node.parent.bind (t.parentDefect? id) = none ↔
        ∀ parent, t.parentOf? id = some parent → id ∈ t.listed parent := by
      simp only [Option.bind_eq_none_iff, parentDefect?_eq_none_iff, parentOf?, hnode,
        Option.bind_some]
    have hchildren : node.children.findSome? (t.childDefect? id) = none ↔
        ∀ child ∈ t.listed id, t.parentOf? child = some id := by
      simp only [List.findSome?_eq_none_iff, childDefect?_eq_none_iff, listed, hnode]
    rw [← hparent, ← hchildren, linkDefect?, hnode]
    dsimp only
    cases node.parent.bind (t.parentDefect? id) <;> simp

/-- No node has a defect of its links exactly when the links point inside and agree.

**Proof sketch.** A node has no defect of its links if its parent lists it and its children name it
(`linkDefect?_eq_none_iff`). Taken for all nodes these are the two directions of the agreement. A
node that lists something or names a parent is in the arena, and so, by the agreement, is what it
lists and the parent it names. -/
lemma linked_iff : t.ids.findSome? t.linkDefect? = none ↔ t.Linked := by
  rw [List.findSome?_eq_none_iff]
  constructor
  · intro h
    have hlisted {id parent : NodeId} (hp : t.parentOf? id = some parent) :
        id ∈ t.listed parent :=
      (linkDefect?_eq_none_iff.mp (h id (mem_ids.mpr (contains_of_parentOf? hp)))).1 _ hp
    have hnamed {id child : NodeId} (hc : child ∈ t.listed id) : t.parentOf? child = some id :=
      (linkDefect?_eq_none_iff.mp (h id (mem_ids.mpr (contains_of_mem_listed hc)))).2 _ hc
    exact {
      parent_inside := fun hp => contains_of_mem_listed (hlisted hp)
      child_inside := fun hc => contains_of_parentOf? (hnamed hc)
      mem_listed_iff := ⟨hnamed, hlisted⟩ }
  · intro h id _
    exact linkDefect?_eq_none_iff.mpr
      ⟨fun _ hp => h.mem_listed_iff.mpr hp, fun _ hc => h.mem_listed_iff.mp hc⟩

/-! ## The walk -/

/-- Below a node with agreeing links everything is rooted if the node is. -/
lemma Linked.rooted_listed (h : t.Linked) {id child : NodeId} (hid : t.Rooted id)
    (hchild : child ∈ t.listed id) : t.Rooted child :=
  Rooted.child (h.mem_listed_iff.mp hchild) hid

/-- The walk cannot go on from outside the arena. -/
lemma sweep_outside {id : NodeId} (hid : t.contains id = false) (unseen rest : List NodeId) :
    t.sweep unseen (id :: rest) = .error (.outside id) := by
  rw [sweep_cons, node?_eq_none_iff.mpr hid]

/-- A node that is met for the first time has its children met next. -/
lemma sweep_of_mem {id : NodeId} {unseen : List NodeId} (hid : t.contains id) (hmem : id ∈ unseen)
    (rest : List NodeId) :
    t.sweep unseen (id :: rest) = t.sweep (unseen.erase id) (t.listed id ++ rest) := by
  obtain ⟨node, hnode⟩ := exists_node hid
  simp only [sweep_cons, listed, hnode, if_pos hmem]

/-- A node that was met before is a defect. -/
lemma sweep_of_not_mem {id : NodeId} {unseen : List NodeId} (hid : t.contains id)
    (hmem : id ∉ unseen) (rest : List NodeId) :
    t.sweep unseen (id :: rest) = .ok (some (.listedTwice id)) := by
  obtain ⟨node, hnode⟩ := exists_node hid
  simp only [sweep_cons, hnode, if_neg hmem]

/-- Induction along the walk: it is at its end, or outside the arena, or meets a node for the first
time, or meets one again. -/
lemma sweep_induction {P : List NodeId → List NodeId → Prop} (done : ∀ unseen, P unseen [])
    (outside : ∀ unseen id rest, t.contains id = false → P unseen (id :: rest))
    (first : ∀ unseen id rest, t.contains id → id ∈ unseen →
      P (unseen.erase id) (t.listed id ++ rest) → P unseen (id :: rest))
    (again : ∀ unseen id rest, t.contains id → id ∉ unseen → P unseen (id :: rest))
    (unseen stack : List NodeId) : P unseen stack := by
  induction unseen, stack using sweep.induct t with
  | case1 unseen => exact done unseen
  | case2 unseen id rest hnode => exact outside unseen id rest (node?_eq_none_iff.mp hnode)
  | case3 unseen id rest node hnode hmem ih =>
    have hlisted : t.listed id = node.children := by rw [listed, hnode]
    exact first unseen id rest (contains_of_node? hnode) hmem (hlisted ▸ ih)
  | case4 unseen id rest node hnode hmem =>
    exact again unseen id rest (contains_of_node? hnode) hmem

/-- The walk stays inside the arena when it starts there. -/
lemma sweep_isOk (h : t.Linked) (unseen stack : List NodeId)
    (hstack : ∀ id ∈ stack, t.contains id) : ∃ defect?, t.sweep unseen stack = .ok defect? := by
  induction unseen, stack using sweep_induction (t := t) with
  | done unseen => exact ⟨_, t.sweep_nil unseen⟩
  | outside unseen id rest hid =>
    rw [hstack id List.mem_cons_self] at hid
    cases hid
  | first unseen id rest hid hmem ih =>
    rw [sweep_of_mem hid hmem]
    refine ih fun child hchild => ?_
    rcases List.mem_append.mp hchild with hc | hc
    · exact h.child_inside hc
    · exact hstack child (List.mem_cons_of_mem id hc)
  | again unseen id rest hid hmem => exact ⟨_, sweep_of_not_mem hid hmem rest⟩

/-- Each node that has not been met waits exactly once, on the stack or below another such node. -/
def Waiting (t : Tree) (unseen stack : List NodeId) : Prop :=
  unseen.Perm (stack ++ unseen.flatMap t.listed)

/-- Meeting a node for the first time is a step that keeps, and reflects, how the others wait. -/
lemma waiting_cons {unseen rest : List NodeId} {id : NodeId} (hmem : id ∈ unseen) :
    t.Waiting unseen (id :: rest) ↔ t.Waiting (unseen.erase id) (t.listed id ++ rest) := by
  have hunseen : unseen.Perm (id :: unseen.erase id) := List.perm_cons_erase hmem
  have hbelow : (unseen.flatMap t.listed).Perm
      (t.listed id ++ (unseen.erase id).flatMap t.listed) := hunseen.flatMap_right t.listed
  have hwaiting : (rest ++ unseen.flatMap t.listed).Perm
      (t.listed id ++ rest ++ (unseen.erase id).flatMap t.listed) := by
    refine (hbelow.append_left rest).trans ?_
    rw [← List.append_assoc]
    exact List.perm_append_comm.append_right _
  constructor
  · intro h
    exact (List.perm_cons id).mp (hunseen.symm.trans (h.trans (hwaiting.cons id)))
  · intro h
    exact hunseen.trans ((h.cons id).trans (hwaiting.cons id).symm)

/-- **Soundness of the walk.** If it finds no defect, each node waits once at its start, and every
node is rooted if those on the stack are.

**Proof sketch.** Induction along the walk. At its end nothing is left and nobody waits; each step
before it meets a node for the first time (`waiting_cons`), which then is rooted, and so are its
children. -/
lemma sweep_sound (h : t.Linked) (unseen stack : List NodeId)
    (hsweep : t.sweep unseen stack = .ok none) :
    t.Waiting unseen stack ∧ ((∀ id ∈ stack, t.Rooted id) → ∀ id ∈ unseen, t.Rooted id) := by
  induction unseen, stack using sweep_induction (t := t) with
  | done unseen =>
    rw [sweep_nil] at hsweep
    obtain rfl : unseen = [] := by simpa using hsweep
    exact ⟨List.Perm.refl [], fun _ id hid => absurd hid List.not_mem_nil⟩
  | outside unseen id rest hid =>
    rw [sweep_outside hid] at hsweep
    cases hsweep
  | first unseen id rest hid hmem ih =>
    rw [sweep_of_mem hid hmem] at hsweep
    obtain ⟨hwaiting, hrooted⟩ := ih hsweep
    refine ⟨(waiting_cons hmem).mpr hwaiting, fun hstack v hv => ?_⟩
    have hid : t.Rooted id := hstack id List.mem_cons_self
    by_cases hvid : v = id
    · exact hvid ▸ hid
    · refine hrooted (fun child hchild => ?_) v ((List.mem_erase_of_ne hvid).mpr hv)
      rcases List.mem_append.mp hchild with hc | hc
      · exact h.rooted_listed hid hc
      · exact hstack child (List.mem_cons_of_mem id hc)
  | again unseen id rest hid hmem =>
    rw [sweep_of_not_mem hid hmem] at hsweep
    cases hsweep

/-- A node that is rooted cannot be among nodes each of which has its parent among them. -/
lemma Rooted.not_mem {unseen : List NodeId}
    (hclosed : ∀ id ∈ unseen, ∃ parent ∈ unseen, t.parentOf? id = some parent) {id : NodeId}
    (h : t.Rooted id) : id ∉ unseen := by
  induction h with
  | root inside hroot =>
    intro hmem
    obtain ⟨parent, -, hparent⟩ := hclosed _ hmem
    rw [hroot] at hparent
    cases hparent
  | child hparent _ ih =>
    intro hmem
    obtain ⟨parent, hmem', hparent'⟩ := hclosed _ hmem
    obtain rfl := Option.some.inj (hparent.symm.trans hparent')
    exact ih hmem'

/-- **Completeness of the walk.** If each node waits once and is rooted, the walk finds no defect.

**Proof sketch.** Induction along the walk. The node on top of the stack waits, so it has not been
met before. When the stack is empty, every node that is left waits below another one that is left,
which cannot be as it is rooted (`Rooted.not_mem`). -/
lemma sweep_complete (h : t.Linked) (unseen stack : List NodeId) (hwaiting : t.Waiting unseen stack)
    (hrooted : ∀ id ∈ unseen, t.Rooted id) (hunseen : ∀ id ∈ unseen, t.contains id) :
    t.sweep unseen stack = .ok none := by
  induction unseen, stack using sweep_induction (t := t) with
  | done unseen =>
    have hclosed : ∀ id ∈ unseen, ∃ parent ∈ unseen, t.parentOf? id = some parent := by
      intro id hid
      obtain ⟨parent, hmem, hlisted⟩ := List.mem_flatMap.mp (hwaiting.mem_iff.mp hid)
      exact ⟨parent, hmem, h.mem_listed_iff.mp hlisted⟩
    have hnil : unseen = [] :=
      List.eq_nil_iff_forall_not_mem.mpr fun id hid => (hrooted id hid).not_mem hclosed hid
    rw [sweep_nil, hnil]
    rfl
  | outside unseen id rest hid =>
    rw [hunseen id (hwaiting.mem_iff.mpr (by simp))] at hid
    cases hid
  | first unseen id rest hid hmem ih =>
    rw [sweep_of_mem hid hmem]
    exact ih ((waiting_cons hmem).mp hwaiting)
      (fun v hv => hrooted v (List.mem_of_mem_erase hv))
      (fun v hv => hunseen v (List.mem_of_mem_erase hv))
  | again unseen id rest hid hmem => exact absurd (hwaiting.mem_iff.mpr (by simp)) hmem

/-! ## Forests -/

/-- In a forest the children that a node lists are different. -/
lemma WellFormed.nodup_listed (h : t.WellFormed) (id : NodeId) : (t.listed id).Nodup := by
  refine List.nodup_iff_count_le_one.mpr fun child => ?_
  by_cases hchild : child ∈ t.listed id
  · exact Nat.le_of_eq (h.listed_once (h.mem_listed_iff.mp hchild))
  · rw [List.count_eq_zero_of_not_mem hchild]
    exact Nat.zero_le 1

/-- In a forest each node is listed by one node at most. -/
lemma WellFormed.nodup_flatMap_listed (h : t.WellFormed) {ids : List NodeId} (hids : ids.Nodup) :
    (ids.flatMap t.listed).Nodup := by
  refine List.nodup_flatMap.mpr ⟨fun id _ => h.nodup_listed id, ?_⟩
  refine hids.imp fun {a b} hab child ha hb => hab ?_
  exact Option.some.inj ((h.mem_listed_iff.mp ha).symm.trans (h.mem_listed_iff.mp hb))

/-- At the start of the walk each node of a forest waits once, as a root or below its parent.

**Proof sketch.** Both lists have no repetition: a root is listed by no node, no node is listed by
two, and none is listed twice by one. So it is enough that they have the same members. A node
without parent is a root, and one with a parent is listed by it. The other way round, roots and
listed nodes are in the arena. -/
lemma WellFormed.waiting (h : t.WellFormed) (hsize : t.size ≤ UInt32.size) :
    t.Waiting t.ids t.roots.reverse := by
  have hids : t.ids.Nodup := nodup_ids hsize
  have hroots : t.roots.Nodup := hids.filter _
  have hdisjoint : t.roots.reverse.Disjoint (t.ids.flatMap t.listed) := by
    intro id hroot hid
    obtain ⟨parent, -, hlisted⟩ := List.mem_flatMap.mp hid
    have hnone := (mem_roots.mp (List.mem_reverse.mp hroot)).2
    rw [h.mem_listed_iff.mp hlisted] at hnone
    cases hnone
  have hnodup : (t.roots.reverse ++ t.ids.flatMap t.listed).Nodup :=
    List.nodup_append'.mpr ⟨List.nodup_reverse.mpr hroots,
      h.nodup_flatMap_listed hids, hdisjoint⟩
  refine (List.perm_ext_iff_of_nodup hids hnodup).mpr fun id => ?_
  rw [mem_ids, List.mem_append, List.mem_reverse, mem_roots, List.mem_flatMap]
  constructor
  · intro hid
    cases hparent : t.parentOf? id with
    | none => exact .inl ⟨hid, rfl⟩
    | some parent =>
      exact .inr ⟨parent, mem_ids.mpr (h.parent_inside hparent),
        h.mem_listed_iff.mpr hparent⟩
  · rintro (⟨hid, -⟩ | ⟨parent, -, hlisted⟩)
    · exact hid
    · exact h.child_inside hlisted

/-- An arena whose links agree and whose nodes each wait once is a forest if all nodes are
rooted. -/
lemma Linked.wellFormed (h : t.Linked) (hsize : t.size ≤ UInt32.size)
    (hwaiting : t.Waiting t.ids t.roots.reverse) (hrooted : ∀ id ∈ t.ids, t.Rooted id) :
    t.WellFormed := by
  refine ⟨h, fun {id parent} hparent => ?_, fun hid => hrooted _ (mem_ids.mpr hid)⟩
  have hlisted : id ∈ t.listed parent := h.mem_listed_iff.mpr hparent
  have hmem : parent ∈ t.ids := mem_ids.mpr (h.parent_inside hparent)
  have hnodup : (t.roots.reverse ++ t.ids.flatMap t.listed).Nodup :=
    hwaiting.nodup_iff.mp (nodup_ids hsize)
  have hbelow := (List.nodup_flatMap.mp (List.nodup_append'.mp hnodup).2.1).1 parent hmem
  exact List.count_eq_one_of_mem hbelow hlisted

/-- The walk starts with nodes without parent. -/
lemma mem_reverse_roots {id : NodeId} (hid : id ∈ t.roots.reverse) :
    t.contains id ∧ t.parentOf? id = none :=
  mem_roots.mp (List.mem_reverse.mp hid)

/-- The walk through an arena with agreeing links finds no defect exactly when the arena is a
forest. -/
lemma Linked.sweep_eq_none_iff (h : t.Linked) (hsize : t.size ≤ UInt32.size) :
    t.sweep t.ids t.roots.reverse = .ok none ↔ t.WellFormed := by
  constructor
  · intro hsweep
    obtain ⟨hwaiting, hrooted⟩ := sweep_sound h _ _ hsweep
    exact h.wellFormed hsize hwaiting (hrooted fun id hid =>
      .root (mem_reverse_roots hid).1 (mem_reverse_roots hid).2)
  · intro hforest
    exact sweep_complete h _ _ (hforest.waiting hsize)
      (fun id hid => hforest.rooted (mem_ids.mp hid)) (fun id => mem_ids.mp)

variable (t) in
/-- Validation stays inside the arena: it finds a defect or none, and never meets a node that is not
there. -/
lemma validate_isOk : ∃ defect?, t.validate = .ok defect? := by
  unfold validate
  cases hlinks : t.ids.findSome? t.linkDefect? with
  | some defect => exact ⟨some defect, rfl⟩
  | none =>
    dsimp only
    split
    · exact sweep_isOk (linked_iff.mp hlinks) _ _ fun id hid =>
        (mem_reverse_roots hid).1
    · exact ⟨_, rfl⟩

/-- There is no defect to report exactly if validation finds none. -/
lemma defect?_eq_none_iff : t.defect? = none ↔ t.validate = .ok none := by
  obtain ⟨found?, hvalidate⟩ := t.validate_isOk
  rw [defect?, hvalidate, Except.ok.injEq]

/-- Validation finds no defect exactly when there are numbers for all nodes, the links agree and the
walk finds none. -/
lemma validate_eq_none_iff_sweep :
    t.validate = .ok none ↔
      t.size ≤ UInt32.size ∧ t.Linked ∧ t.sweep t.ids t.roots.reverse = .ok none := by
  unfold validate
  cases hlinks : t.ids.findSome? t.linkDefect? with
  | some defect =>
    refine iff_of_false nofun fun h => ?_
    rw [linked_iff.mpr h.2.1] at hlinks
    cases hlinks
  | none =>
    dsimp only
    split
    · rename_i hsize
      exact ⟨fun hsweep => ⟨hsize, linked_iff.mp hlinks, hsweep⟩, fun h => h.2.2⟩
    · rename_i hsize
      exact iff_of_false nofun fun h => hsize h.1

/-- **Validation finds no defect** exactly in forests with numbers for all nodes. -/
lemma validate_eq_none_iff : t.validate = .ok none ↔ t.size ≤ UInt32.size ∧ t.WellFormed := by
  rw [validate_eq_none_iff_sweep]
  refine and_congr_right fun hsize => ⟨?_, fun h => ?_⟩
  · rintro ⟨hlinked, hsweep⟩
    exact (hlinked.sweep_eq_none_iff hsize).mp hsweep
  · exact ⟨h.toLinked, (h.toLinked.sweep_eq_none_iff hsize).mpr h⟩

/-- A forest is grounded. -/
lemma WellFormed.grounded (h : t.WellFormed) : t.Grounded := ⟨h.toLinked, h.rooted⟩

/-- **An arena without defect is grounded.** -/
lemma grounded_of_validate (h : t.validate = .ok none) : t.Grounded :=
  (validate_eq_none_iff.mp h).2.grounded

/-- **Validation decides which arenas are forests.** It never reaches outside the arena, whatever
the links are, and finds no defect exactly when the arena is a forest.

**Proof sketch.** If some links are wrong, that is the defect, and the arena is no forest
(`linked_iff`). Otherwise the walk comes to an end inside the arena (`sweep_isOk`), and finds no
defect exactly when each node waits once and is rooted (`sweep_sound`, `sweep_complete`). -/
theorem validate_decides (t : Tree) (hsize : t.size < UInt32.size) :
    (∃ defect?, t.validate = .ok defect?) ∧ (t.validate = .ok none ↔ t.WellFormed) :=
  ⟨t.validate_isOk, validate_eq_none_iff.trans (and_iff_right (Nat.le_of_lt hsize))⟩

/-- A block with a statement in it is a forest, and two nodes that are each other's parent are not,
although their links agree. -/
theorem validate_decides_pair :
    let nested : Tree := { nodes := #[{ kind := .block, children := [⟨1⟩] },
      { kind := .returnStatement, parent := some ⟨0⟩ }] }
    let cycle : Tree := { nodes := #[{ kind := .block, parent := some ⟨1⟩, children := [⟨1⟩] },
      { kind := .block, parent := some ⟨0⟩, children := [⟨0⟩] }] }
    (nested.size < UInt32.size ∧ nested.WellFormed) ∧
      cycle.size < UInt32.size ∧ cycle.validate = .ok (some (.cyclic ⟨0⟩)) ∧
      ¬ cycle.WellFormed := by
  intro nested cycle
  have hnested : nested.validate = .ok none := by
    rw [validate, show nested.ids.findSome? nested.linkDefect? = none by decide,
      show nested.ids = [⟨0⟩, ⟨1⟩] by decide, show nested.roots.reverse = [⟨0⟩] by decide]
    dsimp only
    rw [if_pos (by decide)]
    simp [sweep_cons, sweep_nil, node?, nested, NodeId.index]
  have hcycle : cycle.validate = .ok (some (.cyclic ⟨0⟩)) := by
    rw [validate, show cycle.ids.findSome? cycle.linkDefect? = none by decide,
      show cycle.roots.reverse = [] by decide]
    dsimp only
    rw [if_pos (by decide)]
    exact cycle.sweep_nil _
  refine ⟨⟨by decide, (validate_decides nested (by decide)).2.mp hnested⟩, by decide, hcycle,
    fun h => ?_⟩
  have hnone := (validate_decides cycle (by decide)).2.mpr h
  rw [hcycle] at hnone
  cases hnone

end Tree

end EditIdioms
