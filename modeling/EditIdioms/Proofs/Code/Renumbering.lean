import EditIdioms.Code.NullGuard
import EditIdioms.Proofs.Code.Navigation
import Mathlib.Data.List.FinRange
import Mathlib.Data.List.Forall2

set_option relaxedAutoImplicit false
set_option autoImplicit false

/-!
# Renumbering the nodes of a tree

The number of a node says where it stands in the arena, and nothing about the code. Moving the nodes
to other places, with all links following them, gives an arena that is a forest if the first one is,
and every question about a node has the answer it had before.

Two sites correspond when the second one is what the first one has become. The neighbours of
corresponding sites correspond, one by one and in the same order, and so does whatever a walk or a
search finds. None of this needs that walks come to an end: both arenas have the same size, so a
bound that cuts off one walk cuts off the other one at the same place.

## Main definitions

* `Tree.Renumbers` — one arena has become another one.
* `Tree.numbering`, `Tree.renumber` — what a permutation of the places makes of an arena.
* `Site.Renumbered` — one site has become another one.

## Main results

* `renumbers_renumber` — every permutation of the places is a renumbering.
* `Renumbers.validate_eq_none` — what has no defect has become something without defect.
* `Renumbered.rel_children`, `Renumbered.rel_parent?`, `Renumbered.indexInParent_eq` — neighbours.
* `Renumbered.rel_findAll`, `Renumbered.rel_findFirst?` — searches.
* `Renumbered.sameStructure_eq`, `Renumbered.dereferenceAfter_eq` — questions about expressions.
-/

namespace EditIdioms

/-! ## Lists of corresponding elements -/

section Correspondence

variable {α β γ δ ε ζ : Type} {R : α → β → Prop} {l : List α} {l' : List β}

/-- First answers correspond if answers do. -/
lemma rel_findSome? {P : γ → δ → Prop} {g : α → Option γ} {g' : β → Option δ}
    (h : List.Forall₂ R l l') (hg : ∀ a b, R a b → Option.Rel P (g a) (g' b)) :
    Option.Rel P (l.findSome? g) (l'.findSome? g') := by
  induction h with
  | nil => exact .none
  | @cons a b l l' hab _ ih =>
    have hfirst := hg a b hab
    rw [List.findSome?_cons, List.findSome?_cons]
    generalize g a = found?, g' b = found'? at hfirst
    cases hfirst with
    | some hfound => exact .some hfound
    | none => exact ih

/-- First answers are the same if answers are. -/
lemma findSome?_eq_of_rel {g : α → Option γ} {g' : β → Option γ} (h : List.Forall₂ R l l')
    (hg : ∀ a b, R a b → g' b = g a) : l'.findSome? g' = l.findSome? g := by
  induction h with
  | nil => rfl
  | cons hab _ ih => rw [List.findSome?_cons, List.findSome?_cons, hg _ _ hab, ih]

/-- The first elements with a property correspond. -/
lemma rel_find? {p : α → Bool} {q : β → Bool} (h : List.Forall₂ R l l')
    (hp : ∀ a b, R a b → q b = p a) : Option.Rel R (l.find? p) (l'.find? q) := by
  induction h with
  | nil => exact .none
  | @cons a b l l' hab _ ih =>
    rw [List.find?_cons, List.find?_cons, hp a b hab]
    cases p a with
    | true => exact .some hab
    | false => exact ih

/-- What all pairs have is the same. -/
lemma all_zip_eq_of_rel {S : γ → δ → Prop} {m : List γ} {m' : List δ} {p : α × γ → Bool}
    {q : β × δ → Bool} (h : List.Forall₂ R l l') (hm : List.Forall₂ S m m')
    (hp : ∀ a b c d, R a b → S c d → q (b, d) = p (a, c)) :
    (l'.zip m').all q = (l.zip m).all p := by
  induction h generalizing m m' with
  | nil => rfl
  | cons hab _ ih =>
    cases hm with
    | nil => rfl
    | cons hcd hm =>
      rw [List.zip_cons_cons, List.zip_cons_cons, List.all_cons, List.all_cons,
        hp _ _ _ _ hab hcd, ih hm]

/-- Whether there is something with a property is the same. -/
lemma any_eq_of_rel {o : Option α} {o' : Option β} {p : α → Bool} {q : β → Bool}
    (h : Option.Rel R o o') (hp : ∀ a b, R a b → q b = p a) : o'.any q = o.any p := by
  cases h with
  | some hab => exact hp _ _ hab
  | none => rfl

/-- A map that tells an element from the others keeps its place. -/
lemma idxOf?_map [BEq γ] [LawfulBEq γ] [BEq δ] [LawfulBEq δ] {f : γ → δ} {a : γ} (l : List γ)
    (hf : ∀ b ∈ l, f b = f a → b = a) : (l.map f).idxOf? (f a) = l.idxOf? a := by
  induction l with
  | nil => rfl
  | cons b l ih =>
    have hrest := ih fun c hc => hf c (List.mem_cons_of_mem _ hc)
    have hhead : (f b == f a) = (b == a) := by
      rw [Bool.eq_iff_iff, beq_iff_eq, beq_iff_eq]
      exact ⟨hf b List.mem_cons_self, congrArg f⟩
    rw [List.map_cons, List.idxOf?_cons, List.idxOf?_cons, hhead, hrest]

end Correspondence

/-! ## Arenas -/

/-- The node with its links led to other numbers. -/
def Node.renumber (f : NodeId → NodeId) (node : Node) : Node :=
  { node with parent := node.parent.map f, children := node.children.map f }

namespace Tree

/-- The nodes of `t` were given other numbers, which has made `t'` of it: the numbers that `t` has
are carried one to one to those that `t'` has, and each node stands at its new number, with its
links led there as well and its children in order. -/
structure Renumbers (f : NodeId → NodeId) (t t' : Tree) : Prop where
  injOn : ∀ {a b : NodeId}, t.contains a → t.contains b → f a = f b → a = b
  ids_perm : (t.ids.map f).Perm t'.ids
  node?_eq : ∀ {id : NodeId}, t.contains id → t'.node? (f id) = (t.node? id).map (·.renumber f)

/-- The numbers after the nodes were moved to other places. -/
def numbering (t : Tree) (σ : Equiv.Perm (Fin t.size)) (id : NodeId) : NodeId :=
  if h : id.index < t.size then .ofIndex (σ ⟨id.index, h⟩) else id

/-- The arena after the nodes were moved to other places. -/
def renumber (t : Tree) (σ : Equiv.Perm (Fin t.size)) : Tree where
  nodes := .ofFn fun i : Fin t.size =>
    have : (σ.symm i).val < t.nodes.size := (σ.symm i).isLt
    t.nodes[(σ.symm i).val].renumber (t.numbering σ)

variable {t t' : Tree} {f : NodeId → NodeId}

/-- Where the number of a node leads. -/
lemma index_numbering (hsize : t.size ≤ UInt32.size) (σ : Equiv.Perm (Fin t.size)) {id : NodeId}
    (h : id.index < t.size) : (t.numbering σ id).index = σ ⟨id.index, h⟩ := by
  rw [numbering, dif_pos h, NodeId.index_ofIndex]
  exact Nat.lt_of_lt_of_le (σ ⟨id.index, h⟩).isLt hsize

/-- The node at a place is the one that was moved there. -/
lemma node?_renumber (σ : Equiv.Perm (Fin t.size)) {id : NodeId} (i : Fin t.size)
    (h : id.index = σ i) :
    (t.renumber σ).node? id = t.nodes[i.val]?.map (·.renumber (t.numbering σ)) := by
  have hi : i.val < t.nodes.size := i.isLt
  have hid : id.index < t.size := by
    rw [h]
    exact (σ i).isLt
  have hplace : σ.symm ⟨id.index, hid⟩ = i := by
    rw [Equiv.symm_apply_eq]
    exact Fin.ext h
  rw [node?, renumber, Array.getElem?_ofFn, dif_pos hid, Array.getElem?_eq_getElem hi]
  simp only [hplace, Option.map_some]

/-- **Every permutation of the places is a renumbering**, if there are numbers for all of them.

**Proof sketch.** Numbers that go to the same number come from places that the permutation takes to
the same place, so they are equal (`hinj`). The new numbers are those of the places in permuted
order, and permuting all places gives all places (`Equiv.Perm.map_finRange_perm`). Each node has
been put in its new place, with its links renamed (`node?_renumber`). -/
lemma renumbers_renumber (hsize : t.size ≤ UInt32.size) (σ : Equiv.Perm (Fin t.size)) :
    t.Renumbers (t.numbering σ) (t.renumber σ) := by
  have hcount : (t.renumber σ).size = t.size := Array.size_ofFn
  have hplace : ∀ {id : NodeId}, t.contains id ↔ id.index < t.size := decide_eq_true_iff
  have hinj : ∀ {a b : NodeId}, t.contains a → t.contains b →
      t.numbering σ a = t.numbering σ b → a = b := by
    intro a b ha hb hab
    have hindex := congrArg NodeId.index hab
    rw [index_numbering hsize σ (hplace.mp ha), index_numbering hsize σ (hplace.mp hb)] at hindex
    have hsame := Fin.mk.inj (σ.injective (Fin.ext hindex))
    rw [← a.ofIndex_index, hsame, b.ofIndex_index]
  have hids : t.ids = (List.finRange t.size).map fun i => .ofIndex i.val := by
    rw [ids, ← List.map_coe_finRange_eq_range, List.map_map]
    rfl
  refine ⟨hinj, ?_, fun {id} hid => node?_renumber σ _ (index_numbering hsize σ (hplace.mp hid))⟩
  have hids' : (t.renumber σ).ids = t.ids := by rw [ids, hcount, ids]
  have hmoved : t.ids.map (t.numbering σ) =
      ((List.finRange t.size).map σ).map fun i => .ofIndex i.val := by
    rw [hids, List.map_map, List.map_map]
    refine List.map_congr_left fun i _ => ?_
    have hi := NodeId.index_ofIndex (Nat.lt_of_lt_of_le i.isLt hsize)
    simp only [Function.comp_apply, numbering, hi, i.isLt, dif_pos, Fin.eta]
  rw [hmoved, hids', hids]
  exact (Equiv.Perm.map_finRange_perm σ).map _

namespace Renumbers

/-- Both arenas have the same size. -/
lemma size_eq (h : t.Renumbers f t') : t'.size = t.size := by
  have hlength := h.ids_perm.length_eq
  rw [List.length_map, ids, ids, List.length_map, List.length_map, List.length_range,
    List.length_range] at hlength
  exact hlength.symm

/-- A number of the new arena is that of a node of the old one. -/
lemma contains_iff (h : t.Renumbers f t') {id' : NodeId} :
    t'.contains id' ↔ ∃ id, t.contains id ∧ f id = id' := by
  rw [← mem_ids, ← h.ids_perm.mem_iff, List.mem_map]
  exact exists_congr fun id => and_congr_left fun _ => mem_ids

/-- The parent that a node names has moved. -/
lemma parentOf?_eq (h : t.Renumbers f t') {id : NodeId} (hid : t.contains id) :
    t'.parentOf? (f id) = (t.parentOf? id).map f := by
  obtain ⟨node, hnode⟩ := exists_node hid
  rw [parentOf?, parentOf?, h.node?_eq hid, hnode]
  rfl

/-- The children that a node lists have moved. -/
lemma listed_eq (h : t.Renumbers f t') {id : NodeId} (hid : t.contains id) :
    t'.listed (f id) = (t.listed id).map f := by
  obtain ⟨node, hnode⟩ := exists_node hid
  rw [listed, listed, h.node?_eq hid, hnode]
  rfl

/-- A link to a parent comes from one in the old arena. -/
lemma parentOf?_eq_some_iff (h : t.Renumbers f t') {id' parent' : NodeId} :
    t'.parentOf? id' = some parent' ↔
      ∃ id parent, t.parentOf? id = some parent ∧ f id = id' ∧ f parent = parent' := by
  constructor
  · intro hparent'
    obtain ⟨id, hid, rfl⟩ := h.contains_iff.mp (contains_of_parentOf? hparent')
    rw [h.parentOf?_eq hid] at hparent'
    obtain ⟨parent, hparent, rfl⟩ := Option.map_eq_some_iff.mp hparent'
    exact ⟨id, parent, hparent, rfl, rfl⟩
  · rintro ⟨id, parent, hparent, rfl, rfl⟩
    rw [h.parentOf?_eq (contains_of_parentOf? hparent), hparent, Option.map_some]

/-- A link to a child comes from one in the old arena. -/
lemma mem_listed_iff (h : t.Renumbers f t') {id' child' : NodeId} :
    child' ∈ t'.listed id' ↔
      ∃ id child, child ∈ t.listed id ∧ f id = id' ∧ f child = child' := by
  constructor
  · intro hchild'
    obtain ⟨id, hid, rfl⟩ := h.contains_iff.mp (contains_of_mem_listed hchild')
    rw [h.listed_eq hid] at hchild'
    obtain ⟨child, hchild, rfl⟩ := List.mem_map.mp hchild'
    exact ⟨id, child, hchild, rfl, rfl⟩
  · rintro ⟨id, child, hchild, rfl, rfl⟩
    rw [h.listed_eq (contains_of_mem_listed hchild)]
    exact List.mem_map_of_mem hchild

/-- Links that agree still do when the nodes have other numbers. -/
lemma linked (h : t.Renumbers f t') (hl : t.Linked) : t'.Linked where
  parent_inside hparent' := by
    obtain ⟨id, parent, hparent, rfl, rfl⟩ := h.parentOf?_eq_some_iff.mp hparent'
    exact h.contains_iff.mpr ⟨parent, hl.parent_inside hparent, rfl⟩
  child_inside hchild' := by
    obtain ⟨id, child, hchild, rfl, rfl⟩ := h.mem_listed_iff.mp hchild'
    exact h.contains_iff.mpr ⟨child, hl.child_inside hchild, rfl⟩
  mem_listed_iff {id' child'} := by
    rw [h.mem_listed_iff, h.parentOf?_eq_some_iff]
    constructor
    · rintro ⟨id, child, hchild, hid, hchild'⟩
      exact ⟨child, id, hl.mem_listed_iff.mp hchild, hchild', hid⟩
    · rintro ⟨child, id, hparent, hchild', hid⟩
      exact ⟨id, child, hl.mem_listed_iff.mpr hparent, hid, hchild'⟩

/-- A node below a root still is. -/
lemma rooted (h : t.Renumbers f t') {id : NodeId} (hid : t.Rooted id) : t'.Rooted (f id) := by
  induction hid with
  | root inside hroot =>
    refine .root (h.contains_iff.mpr ⟨_, inside, rfl⟩) ?_
    rw [h.parentOf?_eq inside, hroot, Option.map_none]
  | child hparent _ ih => exact .child (h.parentOf?_eq_some_iff.mpr ⟨_, _, hparent, rfl, rfl⟩) ih

/-- The roots have moved, and may stand in another order. -/
lemma roots_perm (h : t.Renumbers f t') : (t.roots.map f).Perm t'.roots := by
  have hroots : t.roots.map f =
      (t.ids.map f).filter fun id => (t'.node? id).any (·.parent.isNone) := by
    rw [List.filter_map]
    refine congrArg (List.map f) (List.filter_congr fun id hid => ?_)
    rw [Function.comp_apply, h.node?_eq (mem_ids.mp hid)]
    cases t.node? id with
    | none => rfl
    | some node => exact (Option.isNone_map ..).symm
  rw [hroots]
  exact h.ids_perm.filter _

/-- Nodes wait at the start of the walk as they did. -/
lemma waiting (h : t.Renumbers f t') (hw : t.Waiting t.ids t.roots.reverse) :
    t'.Waiting t'.ids t'.roots.reverse := by
  have hbelow : (t.ids.flatMap t.listed).map f = (t.ids.map f).flatMap t'.listed := by
    rw [List.map_flatMap, List.flatMap_map]
    exact List.flatMap_congr fun id hid => (h.listed_eq (mem_ids.mp hid)).symm
  have hroots : (t.roots.reverse.map f).Perm t'.roots.reverse := by
    rw [List.map_reverse]
    exact (List.reverse_perm _).trans (h.roots_perm.trans (List.reverse_perm _).symm)
  calc t'.ids
    List.Perm _ (t.ids.map f) := h.ids_perm.symm
    List.Perm _ ((t.roots.reverse ++ t.ids.flatMap t.listed).map f) := hw.map f
    _ = t.roots.reverse.map f ++ (t.ids.map f).flatMap t'.listed := by
      rw [List.map_append, hbelow]
    List.Perm _ (t'.roots.reverse ++ t'.ids.flatMap t'.listed) :=
      hroots.append (h.ids_perm.flatMap_right _)

/-- **An arena without defect has become one.** -/
lemma validate_eq_none (h : t.Renumbers f t') (hv : t.validate = .ok none) :
    t'.validate = .ok none := by
  obtain ⟨hsize, hl, hsweep⟩ := validate_eq_none_iff_sweep.mp hv
  obtain ⟨hwaiting, -⟩ := sweep_sound hl _ _ hsweep
  have hl' := h.linked hl
  refine validate_eq_none_iff_sweep.mpr ⟨h.size_eq ▸ hsize, hl',
    sweep_complete hl' _ _ (h.waiting hwaiting) ?_ fun id => mem_ids.mp⟩
  intro id' hid'
  obtain ⟨id, hid, rfl⟩ := h.contains_iff.mp (mem_ids.mp hid')
  exact h.rooted ((grounded_of_validate hv).rooted hid)

end Renumbers

end Tree

/-! ## Sites -/

namespace Site

open EditIdioms.Tree

/-- The site of a tree with agreeing links has become another one. -/
structure Renumbered (f : NodeId → NodeId) (s s' : Site) : Prop where
  tree_renumbers : s.tree.Renumbers f s'.tree
  linked : s.tree.Linked
  id_eq : s'.id = f s.id

/-- A site is in its arena. -/
lemma contains_id (s : Site) : s.tree.contains s.id := contains_of_node? s.node?_id

/-- The site of a node has become that of the moved node. -/
lemma rel_site? {t t' : Tree} {f : NodeId → NodeId} (h : t.Renumbers f t') (hl : t.Linked)
    {id : NodeId} (hid : t.contains id) :
    Option.Rel (Renumbered f) (t.site? id) (t'.site? (f id)) := by
  have hin : id.index < t.nodes.size := decide_eq_true_iff.mp hid
  have hin' : (f id).index < t'.nodes.size :=
    decide_eq_true_iff.mp (h.contains_iff.mpr ⟨id, hid, rfl⟩)
  rw [site?, site?, dif_pos hin, dif_pos hin']
  exact .some ⟨h, hl, rfl⟩

namespace Renumbered

variable {f g : NodeId → NodeId} {s s' x x' : Site}

/-- The node is the same, apart from its links. -/
lemma node_eq (h : Renumbered f s s') : s'.node = s.node.renumber f := by
  have hnode := h.tree_renumbers.node?_eq s.contains_id
  rw [← h.id_eq, node?_id, node?_id, Option.map_some] at hnode
  exact Option.some.inj hnode

/-- The kind of a site is the same when it has moved. -/
lemma kind_eq (h : Renumbered f s s') : s'.kind = s.kind := by
  rw [kind, h.node_eq]
  rfl

/-- The number of children listed is the same. -/
lemma childCount_eq (h : Renumbered f s s') : s'.childCount = s.childCount := by
  rw [childCount, h.node_eq]
  exact List.length_map ..

/-- The trees have the same size. -/
lemma size_eq (h : Renumbered f s s') : s'.tree.size = s.tree.size := h.tree_renumbers.size_eq

/-- A neighbour in the old arena has become one in the new arena. -/
lemma rel_neighbour (h : Renumbered f s s') {id : NodeId} (hid : s.tree.contains id) :
    Option.Rel (Renumbered f) (s.tree.site? id) (s'.tree.site? (f id)) :=
  rel_site? h.tree_renumbers h.linked hid

/-- The children listed are in the old arena. -/
lemma contains_of_mem (h : Renumbered f s s') {id : NodeId} (hid : id ∈ s.node.children) :
    s.tree.contains id := by
  rw [← listed_id] at hid
  exact h.linked.child_inside hid

/-- **The children** have moved, and are in their order. -/
lemma rel_children (h : Renumbered f s s') :
    List.Forall₂ (Renumbered f) s.children s'.children := by
  have hlisted : List.Forall₂ (fun id id' => id ∈ s.node.children ∧ id' = f id) s.node.children
      (s.node.children.map f) :=
    List.forall₂_map_right_iff.mpr (List.forall₂_same.mpr fun id hid => ⟨hid, rfl⟩)
  rw [children, children, h.node_eq]
  refine List.rel_filterMap (fun id id' hid => ?_) hlisted
  obtain ⟨hmem, rfl⟩ := hid
  exact h.rel_neighbour (h.contains_of_mem hmem)

/-- The child at a position has moved. -/
lemma rel_child? (h : Renumbered f s s') (i : ℕ) :
    Option.Rel (Renumbered f) (s.child? i) (s'.child? i) := by
  rw [child?, child?, h.node_eq, Node.renumber, List.getElem?_map]
  cases hid : s.node.children[i]? with
  | none => exact .none
  | some id => exact h.rel_neighbour (h.contains_of_mem (List.mem_of_getElem? hid))

/-- **The parent** has moved with the site, and there is none if there was none. -/
lemma rel_parent? (h : Renumbered f s s') :
    Option.Rel (Renumbered f) s.parent? s'.parent? := by
  rw [parent?, parent?, h.node_eq, Node.renumber]
  cases hp : s.node.parent with
  | none => exact .none
  | some parent =>
    rw [← parentOf?_id] at hp
    exact h.rel_neighbour (h.linked.parent_inside hp)

/-- **The place among the siblings** is the same. -/
lemma indexInParent_eq (h : Renumbered f s s') : s'.indexInParent = s.indexInParent := by
  unfold indexInParent
  rw [h.node_eq, h.id_eq, Node.renumber]
  cases hp : s.node.parent with
  | none => rfl
  | some parent =>
    have hlink := hp
    rw [← parentOf?_id] at hlink
    have hin := h.linked.parent_inside hlink
    obtain ⟨above, habove⟩ := exists_node hin
    have hlisted : ∀ id ∈ above.children, s.tree.contains id := fun id hid =>
      h.linked.child_inside (by rwa [listed, habove])
    have hplace := idxOf?_map above.children fun id hid =>
      h.tree_renumbers.injOn (hlisted id hid) s.contains_id
    simp only [Option.map_some, h.tree_renumbers.node?_eq hin, habove, Node.renumber, hplace]

/-! ## Walks and searches -/

/-- What is above a site, as far as it is followed, has moved with it. -/
lemma rel_ancestorsWithin (h : Renumbered f s s') (bound : ℕ) :
    List.Forall₂ (Renumbered f) (ancestorsWithin bound s) (ancestorsWithin bound s') := by
  induction bound generalizing s s' with
  | zero => exact .nil
  | succ bound ih =>
    have hparent := h.rel_parent?
    rw [ancestorsWithin, ancestorsWithin]
    generalize s.parent? = p?, s'.parent? = p'? at hparent
    cases hparent with
    | none => exact .nil
    | some hp => exact .cons hp (ih hp)

/-- The executable around the site has moved. -/
lemma rel_enclosingExecutable? (h : Renumbered f s s') :
    Option.Rel (Renumbered f) s.enclosingExecutable? s'.enclosingExecutable? := by
  have habove := h.rel_ancestorsWithin s.tree.size
  rw [enclosingExecutable?, enclosingExecutable?, ancestors, ancestors, h.size_eq]
  exact rel_find? habove fun a b hab => by rw [hab.kind_eq]

/-- A pattern holds as it did. -/
lemma holds_eq (h : Renumbered f s s') (p : Pattern) : p.holds s' = p.holds s := by
  induction p generalizing s s' with
  | kind predicate => exact congrArg predicate h.kind_eq
  | childOf parent ih => exact any_eq_of_rel h.rel_parent? fun _ _ hp => ih hp
  | all p q ihp ihq => rw [Pattern.holds, Pattern.holds, ihp h, ihq h]
  | any p q ihp ihq => rw [Pattern.holds, Pattern.holds, ihp h, ihq h]
  | not p ih => rw [Pattern.holds, Pattern.holds, ih h]

/-- The children that a search goes on to have moved. -/
lemma rel_inner (h : Renumbered f s s') : List.Forall₂ (Renumbered f) s.inner s'.inner :=
  List.rel_filter (fun _ _ hab => by simp only [hab.kind_eq]) h.rel_children

/-- **What a search for all finds** has moved.

**Proof sketch.** Both trees have as many nodes, so both searches have the same bound; induction on
it. The pattern holds of the moved site if it holds of the site, and what is searched below it are
the moved children in sight. -/
lemma rel_findAll (h : Renumbered f s s') (p : Pattern) :
    List.Forall₂ (Renumbered f) (s.findAll p) (s'.findAll p) := by
  rw [findAll, findAll, h.size_eq]
  generalize s.tree.size = bound
  induction bound generalizing s s' with
  | zero => exact .nil
  | succ bound ih =>
    have hbelow : List.Forall₂ (Renumbered f) (s.inner.flatMap (findAllWithin p bound))
        (s'.inner.flatMap (findAllWithin p bound)) :=
      List.rel_flatMap h.rel_inner fun _ _ hc => ih hc
    rw [findAllWithin, findAllWithin, h.holds_eq]
    cases p.holds s with
    | true => exact .cons h hbelow
    | false => exact hbelow

/-- **What a search for the first one finds** has moved. -/
lemma rel_findFirst? (h : Renumbered f s s') (p : Pattern) :
    Option.Rel (Renumbered f) (s.findFirst? p) (s'.findFirst? p) := by
  rw [findFirst?, findFirst?, h.size_eq]
  generalize s.tree.size = bound
  induction bound generalizing s s' with
  | zero => exact .none
  | succ bound ih =>
    rw [findFirstWithin?, findFirstWithin?, h.holds_eq]
    cases p.holds s with
    | true => exact .some h
    | false => exact rel_findSome? h.rel_inner fun _ _ hc => ih hc

/-- **Two subtrees** agree as they did, even if only one of them has moved. -/
lemma sameStructure_eq (h : Renumbered f s s') (hx : Renumbered g x x') :
    s'.sameStructure x' = s.sameStructure x := by
  rw [sameStructure, sameStructure, h.size_eq, hx.size_eq]
  generalize max s.tree.size x.tree.size = bound
  induction bound generalizing s s' x x' with
  | zero => rfl
  | succ bound ih =>
    have hbelow := all_zip_eq_of_rel h.rel_children hx.rel_children
      (p := fun c => sameStructureWithin bound c.1 c.2)
      (q := fun c => sameStructureWithin bound c.1 c.2) fun _ _ _ _ ha hb => ih ha hb
    rw [sameStructureWithin, sameStructureWithin, h.kind_eq, hx.kind_eq, h.childCount_eq,
      hx.childCount_eq]
    exact congrArg _ hbelow

/-! ## Null tests and what they guard -/

/-- The expression that is tested has moved.

**Proof sketch.** The kinds of the two sites agree, so both are comparisons or neither is. Their
first and second children have moved, if they are there, and the children have the same kinds, so
the same one of them is the null literal. The tested expression is the other one. -/
lemma rel_nullTest? (h : Renumbered f s s') :
    Option.Rel (fun a b => Renumbered f a.1 b.1 ∧ b.2 = a.2) s.nullTest? s'.nullTest? := by
  have hleft := h.rel_child? 0
  have hright := h.rel_child? 1
  unfold nullTest?
  rw [h.kind_eq]
  cases s.kind with
  | binary op =>
    by_cases hop : op = .equal ∨ op = .notEqual
    · simp only [if_pos hop]
      generalize s.child? 0 = left?, s'.child? 0 = left'? at hleft
      generalize s.child? 1 = right?, s'.child? 1 = right'? at hright
      cases hleft with
      | none => exact .none
      | some hl =>
        cases hright with
        | none => exact .none
        | @some right right' hr =>
          simp only [hl.kind_eq, hr.kind_eq]
          cases (Site.kind _).isNullLiteral <;> cases right.kind.isNullLiteral
          · exact .none
          · exact .some ⟨hl, rfl⟩
          · exact .some ⟨hr, rfl⟩
          · exact .none
    · simp only [if_neg hop]
      exact .none
  | _ => exact .none

/-- A branch returns as it did. -/
lemma reachesReturn_eq (h : Renumbered f s s') : s'.reachesReturn = s.reachesReturn := by
  have hfound := h.rel_findFirst? .returnStatement
  unfold reachesReturn
  generalize s.findFirst? .returnStatement = r?, s'.findFirst? .returnStatement = r'? at hfound
  cases hfound <;> rfl

/-- A receiver is the same expression as it was. -/
lemma hasReceiver_eq (h : Renumbered f s s') (hx : Renumbered f x x') :
    s'.hasReceiver x' = s.hasReceiver x :=
  any_eq_of_rel (h.rel_child? 0) fun _ _ hc => hc.sameStructure_eq hx

/-- What is dereferenced first in some code is the same. -/
lemma dereference?_eq (h : Renumbered f s s') (hx : Renumbered f x x') :
    s'.dereference? x' = s.dereference? x := by
  have hfound : List.Forall₂ (Renumbered f) ((s.findAll .dereference).filter (·.hasReceiver x))
      ((s'.findAll .dereference).filter (·.hasReceiver x')) :=
    List.rel_filter (fun _ _ hab => by simp only [hab.hasReceiver_eq hx]) (h.rel_findAll _)
  exact findSome?_eq_of_rel hfound fun _ _ he => by rw [he.kind_eq]

/-- **What the siblings behind a site dereference** is the same. -/
lemma dereferenceAfter_eq (h : Renumbered f s s') (hx : Renumbered f x x') :
    s'.dereferenceAfter x' = s.dereferenceAfter x := by
  have hparent := h.rel_parent?
  unfold dereferenceAfter
  rw [h.indexInParent_eq]
  generalize s.parent? = p?, s'.parent? = p'? at hparent
  cases hparent with
  | none => rfl
  | some hp =>
    have hbehind (position : ℕ) := findSome?_eq_of_rel
      (List.forall₂_drop (position + 1) hp.rel_children) fun _ _ hc => hc.dereference?_eq hx
    simp only [hbehind]

end Renumbered

end Site

end EditIdioms
