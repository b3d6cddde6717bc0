import EditIdioms.Proofs.Code.Forest
import Mathlib.Logic.Relation
import Mathlib.Order.WellFounded
import Mathlib.Data.Fintype.EquivFin

set_option relaxedAutoImplicit false
set_option autoImplicit false

/-!
# What the messages of validation say

Validation refuses a tree with a message about some of its nodes. A message about a link can be
checked at the nodes that it names. The other two come from the walk from the roots, which knows
nothing but the nodes that it has met: when it meets a node again, all nodes that it has met have
waited as often as they are listed by others that it has met, so this node is listed twice; and what
it never meets is not below a root, so going up from there never comes to an end.

Going up without end leads into a cycle, but it need not have started on one. The message about
cycles is given for the first node that was not met, which may hang below a cycle, and then it is
wrong.

## Main definitions

* `Tree.Up` — from a node to its parent.
* `TreeDefect.Says` — what a message says of the nodes that it names.
* `Tree.Swept` — what is known of the nodes that the walk has met.
* `Tree.FirstUnrooted` — the first node that is not below a root.

## Main results

* `linkDefect?_true` — messages about links are true.
* `Linked.rooted_of_no_cycle`, `Linked.exists_cycle_above` — going up from a node.
* `sweep_defect` — what the walk finds out.
* `rejection_names_defect` — messages are true, but for the one about cycles.
* `rejection_blames_below_cycle` — a node that is called part of a cycle and is not.
-/

namespace EditIdioms

open Relation

namespace Tree

/-- From a node to the parent that it names. -/
def Up (t : Tree) (id parent : NodeId) : Prop := t.parentOf? id = some parent

end Tree

/-- What the message of a defect says of the nodes that it names. -/
def TreeDefect.Says (t : Tree) : TreeDefect → Prop
  -- the parent is outside the arena, and is the parent of the node
  | danglingParent node parent => ¬ t.contains parent ∧ t.parentOf? node = some parent
  -- the parent is there, is the parent of the node, and does not list it
  | unlisted node parent =>
    t.contains parent ∧ t.parentOf? node = some parent ∧ node ∉ t.listed parent
  -- the child is outside the arena, and the node lists it
  | danglingChild node child => ¬ t.contains child ∧ child ∈ t.listed node
  -- the child is there, the node lists it, and it does not name the node as its parent
  | foreignChild child node =>
    t.contains child ∧ child ∈ t.listed node ∧ t.parentOf? child ≠ some node
  -- the node is listed at least twice, by one node or by several
  | listedTwice node => 2 ≤ (t.ids.flatMap t.listed).count node
  -- going up from the node leads back to it
  | cyclic node => TransGen t.Up node node

namespace Tree

variable {t : Tree} {id parent child : NodeId} {defect : TreeDefect}

/-! ## Messages about links -/

/-- What is found wrong with a link to a parent is true, and is not about cycles. -/
lemma parentDefect?_true (hparent : t.parentOf? id = some parent)
    (h : t.parentDefect? id parent = some defect) :
    defect.Says t ∧ ∀ v, defect ≠ .cyclic v := by
  unfold parentDefect? at h
  cases hnode : t.node? parent with
  | none =>
    rw [hnode] at h
    cases h
    exact ⟨⟨by simp [node?_eq_none_iff.mp hnode], hparent⟩, nofun⟩
  | some above =>
    rw [hnode] at h
    dsimp only at h
    split at h
    · cases h
    · rename_i hout
      cases h
      refine ⟨⟨contains_of_node? hnode, hparent, ?_⟩, nofun⟩
      rwa [listed, hnode]

/-- What is found wrong with a link to a child is true, and is not about cycles. -/
lemma childDefect?_true (hchild : child ∈ t.listed id) (h : t.childDefect? id child = some defect) :
    defect.Says t ∧ ∀ v, defect ≠ .cyclic v := by
  unfold childDefect? at h
  cases hnode : t.node? child with
  | none =>
    rw [hnode] at h
    cases h
    exact ⟨⟨by simp [node?_eq_none_iff.mp hnode], hchild⟩, nofun⟩
  | some below =>
    rw [hnode] at h
    dsimp only at h
    split at h
    · cases h
    · rename_i hforeign
      cases h
      refine ⟨⟨contains_of_node? hnode, hchild, ?_⟩, nofun⟩
      rwa [parentOf?, hnode, Option.bind_some]

/-- **Messages about links are true**, and none of them is about cycles.

**Proof sketch.** The link to the parent is looked at first. If it has a defect, the node names that
parent, and what the defect says holds (`parentDefect?_true`). Otherwise the defect is that of a
child which the node lists (`childDefect?_true`). Neither of them gives the defect of a cycle. -/
lemma linkDefect?_true (h : t.linkDefect? id = some defect) :
    defect.Says t ∧ ∀ v, defect ≠ .cyclic v := by
  unfold linkDefect? at h
  cases hnode : t.node? id with
  | none =>
    rw [hnode] at h
    cases h
  | some node =>
    rw [hnode] at h
    dsimp only at h
    cases hup : node.parent.bind (t.parentDefect? id) with
    | some found =>
      rw [hup] at h
      cases h
      obtain ⟨parent, hparent, hdefect⟩ := Option.bind_eq_some_iff.mp hup
      refine parentDefect?_true ?_ hdefect
      rw [parentOf?, hnode, Option.bind_some, hparent]
    | none =>
      rw [hup] at h
      obtain ⟨child, hchild, hdefect⟩ := List.exists_of_findSome?_eq_some h
      refine childDefect?_true ?_ hdefect
      rwa [listed, hnode]

/-! ## Going up -/

/-- There are finitely many numbers. -/
instance : Finite NodeId :=
  Finite.of_injective (fun id : NodeId => (⟨id.index, id.index_lt⟩ : Fin UInt32.size)) (by
    intro id id' h
    rw [← id.ofIndex_index, ← id'.ofIndex_index, Fin.mk.inj h])

/-- What is above a node of the arena is in the arena. -/
lemma Linked.contains_of_up (h : t.Linked) (hid : t.contains id)
    (hway : ReflTransGen t.Up id parent) : t.contains parent := by
  induction hway with
  | refl => exact hid
  | tail _ hup _ => exact h.parent_inside hup

/-- With no cycle above a node, going up from what is above it is well-founded, as there are
finitely many nodes. -/
lemma wellFounded_above (hno : ∀ v, ReflTransGen t.Up id v → ¬ TransGen t.Up v v) :
    WellFounded fun p v => ReflTransGen t.Up id v ∧ TransGen t.Up v p := by
  have : IsTrans NodeId fun p v => ReflTransGen t.Up id v ∧ TransGen t.Up v p :=
    ⟨fun p v w hpv hvw => ⟨hvw.1, hvw.2.trans hpv.2⟩⟩
  have : Std.Irrefl fun p v => ReflTransGen t.Up id v ∧ TransGen t.Up v p :=
    ⟨fun v hv => hno v hv.1 hv.2⟩
  exact Finite.wellFounded_of_trans_of_irrefl _

/-- **A node with no cycle above it is below a root.**

**Proof sketch.** Induction from the top down over what is above the node: it has no parent, or a
parent that is below a root. -/
lemma Linked.rooted_of_no_cycle (h : t.Linked) (hid : t.contains id)
    (hno : ∀ v, ReflTransGen t.Up id v → ¬ TransGen t.Up v v) : t.Rooted id := by
  have hall : ∀ v, ReflTransGen t.Up id v → t.Rooted v := by
    intro v
    induction v using (wellFounded_above hno).induction with
    | _ v ih =>
      intro hway
      cases hparent : t.parentOf? v with
      | none => exact .root (h.contains_of_up hid hway) hparent
      | some parent =>
        have hup : t.Up v parent := hparent
        exact .child hparent (ih parent ⟨hway, .single hup⟩ (hway.tail hup))
  exact hall id .refl

/-- **Going up from a node that is not below a root leads into a cycle.** -/
lemma Linked.exists_cycle_above (h : t.Linked) (hid : t.contains id) (hrooted : ¬ t.Rooted id) :
    ∃ v, ReflTransGen t.Up id v ∧ TransGen t.Up v v := by
  by_contra hno
  refine hrooted (h.rooted_of_no_cycle hid fun v hv hcycle => ?_)
  exact hno ⟨v, hv, hcycle⟩

/-! ## What the walk finds out -/

/-- What is known when the walk has met some nodes: all others are left over in their order; the
nodes that it has met and those on the stack are the roots and what the nodes that it has met list,
one by one; and all of them are below a root. -/
structure Swept (t : Tree) (met unseen stack : List NodeId) : Prop where
  sublist : unseen.Sublist t.ids
  perm_ids : t.ids.Perm (met ++ unseen)
  perm_waited : (stack ++ met).Perm (t.roots ++ met.flatMap t.listed)
  rooted : ∀ id ∈ stack ++ met, t.Rooted id

variable {met unseen stack rest : List NodeId}

/-- At the start nothing has been met. -/
lemma swept_start : t.Swept [] t.ids t.roots.reverse where
  sublist := List.Sublist.refl _
  perm_ids := List.Perm.refl _
  perm_waited := by simp
  rooted id hid := by
    rw [List.append_nil] at hid
    exact .root (mem_reverse_roots hid).1 (mem_reverse_roots hid).2

/-- **A step of the walk** meets a node that has not been met.

**Proof sketch.** The node moves from those that are waited for to those that were met, and what it
lists is added to the waiting ones. So the nodes met and unseen are still all nodes, and those
waiting and met are still the roots and what the met ones list, both in another order. What is
listed by a node below a root is below that root. -/
lemma Swept.step (h : t.Linked) (hs : t.Swept met unseen (id :: rest)) (hmem : id ∈ unseen) :
    t.Swept (id :: met) (unseen.erase id) (t.listed id ++ rest) where
  sublist := List.erase_sublist.trans hs.sublist
  perm_ids := hs.perm_ids.trans (((List.perm_cons_erase hmem).append_left met).trans
    List.perm_middle)
  perm_waited := by
    have hmoved : (rest ++ id :: met).Perm (t.roots ++ met.flatMap t.listed) :=
      List.perm_middle.trans hs.perm_waited
    rw [List.flatMap_cons, List.append_assoc]
    refine (hmoved.append_left (t.listed id)).trans ?_
    rw [← List.append_assoc, ← List.append_assoc]
    exact List.perm_append_comm.append_right _
  rooted v hv := by
    have hid : t.Rooted id := hs.rooted id List.mem_cons_self
    rw [List.append_assoc, List.mem_append, List.mem_append, List.mem_cons] at hv
    rcases hv with hv | hv | rfl | hv
    · exact h.rooted_listed hid hv
    · exact hs.rooted v (by simp [hv])
    · exact hid
    · exact hs.rooted v (by simp [hv])

/-- **A node that is met again is listed twice.** The nodes that it has met are no more than there
are, and a node that is listed is no root, so it has waited at most as often as it is listed.

**Proof sketch.** The node is in front of the stack and has been met, so it counts at least twice
among the nodes that wait or were met. These are the roots and what the nodes that were met list. If
the node is a root, it is listed nowhere and only one root, so it counts once. So it is no root, and
it is listed at least twice by nodes that were met, of which there are not more than there are
nodes. -/
lemma Swept.count_listed (h : t.Linked) (hsize : t.size ≤ UInt32.size)
    (hs : t.Swept met unseen (id :: rest)) (hmem : id ∈ met) :
    2 ≤ (t.ids.flatMap t.listed).count id := by
  have hwaited : (id :: rest ++ met).count id = (t.roots ++ met.flatMap t.listed).count id :=
    hs.perm_waited.count_eq id
  have hmet : 0 < met.count id := List.count_pos_iff.mpr hmem
  have hfew : (met.flatMap t.listed).count id ≤ (t.ids.flatMap t.listed).count id := by
    rw [(hs.perm_ids.flatMap_right t.listed).count_eq, List.flatMap_append, List.count_append]
    exact Nat.le_add_right _ _
  rw [List.cons_append, List.count_cons_self, List.count_append, List.count_append] at hwaited
  by_cases hroot : id ∈ t.roots
  · -- a root waits once and is not listed, so it is not met again
    have honce : t.roots.count id ≤ 1 :=
      List.nodup_iff_count_le_one.mp ((nodup_ids hsize).filter _) id
    have hunlisted : id ∉ met.flatMap t.listed := by
      intro hlisted
      obtain ⟨parent, -, hparent⟩ := List.mem_flatMap.mp hlisted
      have hnone := (mem_roots.mp hroot).2
      rw [h.mem_listed_iff.mp hparent] at hnone
      cases hnone
    rw [List.count_eq_zero_of_not_mem hunlisted] at hwaited
    omega
  · rw [List.count_eq_zero_of_not_mem hroot] at hwaited
    omega

/-- When the stack is empty, what is below a root has been met. -/
lemma Swept.mem_met_of_rooted (h : t.Linked) (hs : t.Swept met unseen []) (hid : t.Rooted id) :
    id ∈ met := by
  have hall : ∀ {v : NodeId}, v ∈ met ↔ v ∈ t.roots ++ met.flatMap t.listed :=
    hs.perm_waited.mem_iff
  induction hid with
  | root inside hroot =>
    exact hall.mpr (List.mem_append_left _ (mem_roots.mpr ⟨inside, hroot⟩))
  | child hparent _ ih =>
    refine hall.mpr (List.mem_append_right _ (List.mem_flatMap.mpr ⟨_, ih, ?_⟩))
    exact h.mem_listed_iff.mpr hparent

/-- The first node of the arena that is not below a root. -/
structure FirstUnrooted (t : Tree) (id : NodeId) : Prop where
  inside : t.contains id
  unrooted : ¬ t.Rooted id
  first : ∀ v, t.contains v → v.index < id.index → t.Rooted v

/-- The numbers of the nodes ascend. -/
lemma pairwise_ids (hsize : t.size ≤ UInt32.size) :
    t.ids.Pairwise fun id id' => id.index < id'.index := by
  refine List.pairwise_map.mpr (List.pairwise_lt_range.imp_of_mem fun {i j} hi hj hij => ?_)
  rw [List.mem_range] at hi hj
  rwa [NodeId.index_ofIndex (by omega), NodeId.index_ofIndex (by omega)]

/-- **What is left over in the end** is not below a root, and what comes before it is.

**Proof sketch.** When no node waits any more, all that is below a root has been met, and no node is
both met and left over. What is left over stands in the order of the numbers, so a node with a
smaller number than the first one has been met, and only nodes below a root are met. -/
lemma Swept.firstUnrooted (h : t.Linked) (hsize : t.size ≤ UInt32.size)
    (hs : t.Swept met (id :: unseen) []) : t.FirstUnrooted id := by
  have hmem : id ∈ t.ids := hs.sublist.subset List.mem_cons_self
  refine ⟨mem_ids.mp hmem, fun hrooted => ?_, fun v hv hlt => ?_⟩
  · have hmet := hs.mem_met_of_rooted h hrooted
    have hnodup := hs.perm_ids.nodup_iff.mp (nodup_ids hsize)
    exact (List.nodup_append'.mp hnodup).2.2 hmet List.mem_cons_self
  · rcases List.mem_append.mp (hs.perm_ids.mem_iff.mp (mem_ids.mpr hv)) with hmet | hleft
    · exact hs.rooted v (by simpa using hmet)
    · -- what is left over comes behind the first one left over
      have hascending := (pairwise_ids hsize).sublist hs.sublist
      rcases List.mem_cons.mp hleft with rfl | hbehind
      · omega
      · have := (List.pairwise_cons.mp hascending).1 v hbehind
        omega

/-- **What the walk finds out**: a node that is listed twice, or the first one that is not below a
root.

**Proof sketch.** Induction along the walk, each step of which keeps what is known of the nodes that
have been met (`Swept.step`). -/
lemma sweep_defect (h : t.Linked) (hsize : t.size ≤ UInt32.size) (hs : t.Swept met unseen stack)
    (hsweep : t.sweep unseen stack = .ok (some defect)) :
    (∃ id, defect = .listedTwice id ∧ defect.Says t) ∨
      ∃ id, defect = .cyclic id ∧ t.FirstUnrooted id := by
  induction unseen, stack using sweep_induction (t := t) generalizing met with
  | done unseen =>
    rw [sweep_nil] at hsweep
    cases unseen with
    | nil => cases hsweep
    | cons id unseen =>
      cases hsweep
      exact .inr ⟨id, rfl, hs.firstUnrooted h hsize⟩
  | outside unseen id rest hid =>
    rw [sweep_outside hid] at hsweep
    cases hsweep
  | first unseen id rest hid hmem ih =>
    rw [sweep_of_mem hid hmem] at hsweep
    exact ih (hs.step h hmem) hsweep
  | again unseen id rest hid hmem =>
    rw [sweep_of_not_mem hid hmem] at hsweep
    cases hsweep
    have hmet : id ∈ met := by
      have := hs.perm_ids.mem_iff.mp (mem_ids.mpr hid)
      simpa [hmem] using this
    exact .inl ⟨id, rfl, hs.count_listed h hsize hmet⟩

/-- **A message of validation is true of the nodes that it names**, unless it is the one about
cycles. That one is given for the first node that is not below a root, and going up from there leads
into a cycle; so it is true exactly if this node is on the cycle itself.

**Proof sketch.** Messages about links are true (`linkDefect?_true`). Where links agree, the walk
finds a node that is listed twice, or the first one that is not below a root (`sweep_defect`), and
above the latter there is a cycle (`Linked.exists_cycle_above`). -/
theorem rejection_names_defect {t : Tree} {defect : TreeDefect}
    (h : t.validate = .ok (some defect)) :
    ((∀ id, defect ≠ .cyclic id) → defect.Says t) ∧
    ∀ id, defect = .cyclic id → t.size ≤ UInt32.size →
      t.FirstUnrooted id ∧ ∃ v, ReflTransGen t.Up id v ∧ TransGen t.Up v v := by
  unfold validate at h
  cases hlinks : t.ids.findSome? t.linkDefect? with
  | some found =>
    rw [hlinks] at h
    cases h
    obtain ⟨id, -, hdefect⟩ := List.exists_of_findSome?_eq_some hlinks
    obtain ⟨htrue, hlink⟩ := linkDefect?_true hdefect
    exact ⟨fun _ => htrue, fun v hcyclic => absurd hcyclic (hlink v)⟩
  | none =>
    have hlinked : t.Linked := linked_iff.mp hlinks
    rw [hlinks] at h
    dsimp only at h
    split at h
    · rename_i hsize
      rcases sweep_defect hlinked hsize swept_start h with ⟨id, rfl, htrue⟩ | ⟨id, rfl, hfirst⟩
      · exact ⟨fun _ => htrue, nofun⟩
      · refine ⟨fun hno => absurd rfl (hno id), ?_⟩
        rintro v heq -
        cases heq
        exact ⟨hfirst, hlinked.exists_cycle_above hfirst.inside hfirst.unrooted⟩
    · rename_i hsize
      cases h
      exact ⟨fun hno => absurd rfl (hno _), fun _ _ hle => absurd hle hsize⟩

/-- A statement that its block lists twice, and a statement in a block that is its own parent: the
statement comes first and is below no root, and the cycle above it is the block. -/
theorem rejection_names_defect_pair :
    let doubled : Tree := { nodes := #[{ kind := .block, children := [⟨1⟩, ⟨1⟩] },
      { kind := .returnStatement, parent := some ⟨0⟩ }] }
    let hanging : Tree := { nodes := #[{ kind := .returnStatement, parent := some ⟨1⟩ },
      { kind := .block, parent := some ⟨1⟩, children := [⟨1⟩, ⟨0⟩] }] }
    (doubled.validate = .ok (some (.listedTwice ⟨1⟩)) ∧ (TreeDefect.listedTwice ⟨1⟩).Says doubled) ∧
      (hanging.validate = .ok (some (.cyclic ⟨0⟩)) ∧ hanging.size ≤ UInt32.size) ∧
      hanging.FirstUnrooted ⟨0⟩ ∧ ∃ v, ReflTransGen hanging.Up ⟨0⟩ v ∧ TransGen hanging.Up v v := by
  intro doubled hanging
  have hdoubled : doubled.validate = .ok (some (.listedTwice ⟨1⟩)) := by decide +kernel
  have hhanging : hanging.validate = .ok (some (.cyclic ⟨0⟩)) := by decide +kernel
  obtain ⟨htrue, -⟩ := rejection_names_defect hdoubled
  obtain ⟨-, hcyclic⟩ := rejection_names_defect hhanging
  exact ⟨⟨hdoubled, htrue nofun⟩, ⟨hhanging, by decide⟩, hcyclic ⟨0⟩ rfl (by decide)⟩

/-- **A node that is called part of a cycle and is not**: the statement in a block that is its own
parent. Going up from the statement leads to the block and never back. -/
theorem rejection_blames_below_cycle :
    let hanging : Tree := { nodes := #[{ kind := .returnStatement, parent := some ⟨1⟩ },
      { kind := .block, parent := some ⟨1⟩, children := [⟨1⟩, ⟨0⟩] }] }
    hanging.validate = .ok (some (.cyclic ⟨0⟩)) ∧
      (TreeDefect.cyclic ⟨0⟩).message = "n0 is part of a cycle" ∧
      ¬ (TreeDefect.cyclic ⟨0⟩).Says hanging ∧ (TreeDefect.cyclic ⟨1⟩).Says hanging := by
  intro hanging
  have hstay : ∀ v, ReflTransGen hanging.Up ⟨1⟩ v → v = ⟨1⟩ := by
    intro v hway
    induction hway with
    | refl => rfl
    | tail _ hup ih =>
      subst ih
      cases hup
      rfl
  refine ⟨by decide +kernel, by decide +kernel, fun hcycle => ?_, .single rfl⟩
  obtain ⟨v, hup, hback⟩ := TransGen.head'_iff.mp hcycle
  cases hup
  cases hstay _ hback

end Tree

end EditIdioms
