import EditIdioms.Code.Search
import EditIdioms.Proofs.Code.Neighbours
import Mathlib.Data.Set.Card

set_option relaxedAutoImplicit false
set_option autoImplicit false

/-!
# Links without cycles

Functions that go along the links of a tree carry a bound, the size of the tree. For the bound never
to be met, links need not agree, nor lead to nodes that are there: it is enough that no way down
along children comes back to where it started, and no way up along parents does. Then each step
leaves fewer nodes that can still be met, and at the start these are not more than the tree has.
From this come the equations of the functions without their bounds.

## Main definitions

* `Tree.NoReturn`, `Tree.Acyclic` — no way along links leads back.
* `Site.height` — how many nodes can be met on the way from a site.

## Main results

* `eq_of_height` — a function along links does not depend on its bound if that leaves room.
* `induction_along` — induction against the links.
* `ancestors_of_child`, `walk_eq`, `findAll_step`, `findFirst?_step`, `sameStructure_step` — walks,
  searches and comparisons without their bounds.
* `acyclic_of_ascending`, `Grounded.acyclic` — trees without cycles.
-/

namespace EditIdioms

/-- No way along links that starts in the tree leads back to its start. -/
def Tree.NoReturn (t : Tree) (link : Site → Site → Prop) : Prop :=
  ∀ s : Site, s.tree = t → ¬ Relation.TransGen link s s

/-- There is no cycle in the links to children that are there, and none in the links to parents that
are there. The links may disagree. -/
structure Tree.Acyclic (t : Tree) : Prop where
  down : t.NoReturn fun s c => c ∈ s.children
  up : t.NoReturn fun s p => s.parent? = some p

namespace Site

open EditIdioms.Tree

variable {s c p e x : Site}

/-! ## Heights -/

/-- The sites that can be met on the way along links from a site, the site itself included. -/
def reach (link : Site → Site → Prop) (s : Site) : Set Site := {e | Relation.ReflTransGen link s e}

/-- How many sites can be met on the way from a site. -/
noncomputable def height (link : Site → Site → Prop) (s : Site) : ℕ := (reach link s).ncard

section Height

variable {link : Site → Site → Prop} (hlink : ∀ {s e : Site}, link s e → e.tree = s.tree)

/-- A site is told by its place in the arena. -/
lemma injOn_index (t : Tree) : Set.InjOn (fun e : Site => e.id.index) {e | e.tree = t} := by
  intro e he e' he' hindex
  refine eq_of_id_eq (he.trans he'.symm) ?_
  rw [← e.id.ofIndex_index, ← e'.id.ofIndex_index]
  exact congrArg _ hindex

/-- The sites of a tree have their places in its arena. -/
lemma mapsTo_index (t : Tree) :
    Set.MapsTo (fun e : Site => e.id.index) {e | e.tree = t} (Finset.range t.size) := by
  rintro e rfl
  exact Finset.mem_coe.mpr (Finset.mem_range.mpr e.inArena)

/-- A tree has finitely many sites. -/
lemma finite_sites (t : Tree) : {e : Site | e.tree = t}.Finite :=
  .of_injOn (mapsTo_index t) (injOn_index t) (Finset.finite_toSet _)

include hlink in
/-- What is reached from a site by links that stay in the tree stands in its tree. -/
lemma reach_subset (s : Site) : reach link s ⊆ {e | e.tree = s.tree} := by
  intro e he
  induction he with
  | refl => rfl
  | tail _ hstep ih => exact (hlink hstep).trans ih

include hlink in
/-- No more sites can be met than the tree has nodes. -/
lemma height_le_size (s : Site) : height link s ≤ s.tree.size :=
  calc (reach link s).ncard
    _ ≤ {e : Site | e.tree = s.tree}.ncard :=
      Set.ncard_le_ncard (reach_subset hlink s) (finite_sites s.tree)
    _ ≤ (Finset.range s.tree.size : Set ℕ).ncard :=
      Set.ncard_le_ncard_of_injOn _ (mapsTo_index s.tree) (injOn_index s.tree)
        (Finset.finite_toSet _)
    _ = s.tree.size := by rw [Set.ncard_coe_finset, Finset.card_range]

include hlink in
/-- A height is not zero, as the site itself is among what is met. -/
lemma height_pos (s : Site) : 0 < height link s :=
  (Set.ncard_pos ((finite_sites s.tree).subset (reach_subset hlink s))).mpr
    ⟨s, Relation.ReflTransGen.refl⟩

include hlink in
/-- **After a step there is less to be met**, if no way leads back. -/
lemma height_lt (h : s.tree.NoReturn link) (he : link s e) : height link e < height link s := by
  refine Set.ncard_lt_ncard ⟨fun v hv => .head he hv, fun hsub => ?_⟩
    ((finite_sites s.tree).subset (reach_subset hlink s))
  have hback : Relation.ReflTransGen link e s := hsub .refl
  exact h s rfl (.head' he hback)

include hlink in
/-- **A function along links**, whose value on a site is settled by those where the links lead, does
not depend on its bound if the bound leaves room for all that can be met.

**Proof sketch.** Induction on the bound. Where a link leads less can be met, so the smaller bounds
leave room for it, and there the function has one value; by that its value on the site is
settled. -/
lemma eq_of_height {α : Type} {f : ℕ → Site → α}
    (step : ∀ bound bound' s, (∀ e, link s e → f bound e = f bound' e) →
      f (bound + 1) s = f (bound' + 1) s)
    (h : s.tree.NoReturn link) {bound bound' : ℕ} (hroom : height link s ≤ bound)
    (hroom' : height link s ≤ bound') : f bound s = f bound' s := by
  have hpos : 0 < height link s := height_pos hlink s
  induction bound generalizing s bound' with
  | zero => omega
  | succ bound ih =>
    obtain ⟨bound', rfl⟩ := Nat.exists_eq_succ_of_ne_zero (show bound' ≠ 0 by omega)
    refine step bound bound' s fun e he => ?_
    have hlt : height link e < height link s := height_lt hlink h he
    exact ih ((hlink he).symm ▸ h) (by omega) (by omega) (height_pos hlink e)

include hlink in
/-- The size of the tree leaves room, and so does one more. -/
lemma eq_succ_of_step {α : Type} {f : ℕ → Site → α}
    (step : ∀ bound bound' s, (∀ e, link s e → f bound e = f bound' e) →
      f (bound + 1) s = f (bound' + 1) s)
    (h : s.tree.NoReturn link) {bound : ℕ} (hroom : s.tree.size ≤ bound) :
    f bound s = f (bound + 1) s := by
  have hle : height link s ≤ s.tree.size := height_le_size hlink s
  have hroom' : height link s ≤ bound := Nat.le_trans hle hroom
  exact eq_of_height hlink step h hroom' (Nat.le_succ_of_le hroom')

include hlink in
/-- **Induction against the links.** What holds of a site if it does of those where its links lead
holds of every site of a tree without return. -/
lemma induction_along {t : Tree} (h : t.NoReturn link) {P : (s : Site) → s.tree = t → Prop}
    (step : ∀ (s : Site) hs, (∀ e (he : link s e), P e ((hlink he).trans hs)) → P s hs) (s : Site)
    (hs : s.tree = t) : P s hs := by
  generalize hroom : height link s = room
  induction room using Nat.strong_induction_on generalizing s with
  | _ room ih =>
    subst hs
    exact step s rfl fun e he => ih _ (hroom ▸ height_lt hlink h he) e _ rfl

end Height

/-! ## Equations without bounds -/

/-- Nothing is above a site without parent. -/
lemma ancestorsWithin_of_root (hs : s.parent? = none) (bound : ℕ) :
    ancestorsWithin bound s = [] := by
  cases bound with
  | zero => rfl
  | succ bound => rw [ancestorsWithin, hs]

/-- What is above a child, within a bound. -/
lemma ancestorsWithin_of_child (hp : s.parent? = some p) (bound : ℕ) :
    ancestorsWithin (bound + 1) s = p :: ancestorsWithin bound p := by
  rw [ancestorsWithin, hp]

/-- Nothing is above a site without parent. -/
lemma ancestors_of_root (hs : s.parent? = none) : s.ancestors = [] := ancestorsWithin_of_root hs _

/-- **What is above a child** is its parent and what is above that. -/
lemma ancestors_of_child (h : s.tree.Acyclic) (hp : s.parent? = some p) :
    s.ancestors = p :: p.ancestors := by
  have hstep : ∀ bound bound' (s : Site),
      (∀ p, s.parent? = some p → ancestorsWithin bound p = ancestorsWithin bound' p) →
        ancestorsWithin (bound + 1) s = ancestorsWithin (bound' + 1) s := by
    intro bound bound' s hs
    cases hp : s.parent? with
    | none => rw [ancestorsWithin_of_root hp, ancestorsWithin_of_root hp]
    | some p => rw [ancestorsWithin_of_child hp, ancestorsWithin_of_child hp, hs p hp]
  rw [ancestors, eq_succ_of_step tree_of_parent? hstep h.up (Nat.le_refl _),
    ancestorsWithin_of_child hp, ancestors, tree_of_parent? hp]

/-- **The walk** meets the site, and then walks from each child. -/
lemma walk_eq (h : s.tree.Acyclic) : s.walk = s :: s.children.flatMap walk := by
  have hstep : ∀ bound bound' (s : Site),
      (∀ c ∈ s.children, walkWithin bound c = walkWithin bound' c) →
        walkWithin (bound + 1) s = walkWithin (bound' + 1) s := by
    intro bound bound' s hs
    rw [walkWithin, walkWithin, List.flatMap_congr hs]
  rw [walk, eq_succ_of_step tree_of_mem_children hstep h.down (Nat.le_refl _), walkWithin]
  refine congrArg (s :: ·) (List.flatMap_congr fun c hc => ?_)
  rw [walk, tree_of_mem_children hc]

/-- A child that a search goes on to is a child, and neither an executable nor a class. -/
lemma mem_inner : c ∈ s.inner ↔
    c ∈ s.children ∧ c.kind.isExecutable = false ∧ c.kind.isClass = false := by
  rw [inner, List.mem_filter, Bool.and_eq_true, Bool.not_eq_true', Bool.not_eq_true']

/-- The first answer of a list depends on the answers of its elements only. -/
lemma findSome?_congr {α : Type} {l : List Site} {f g : Site → Option α} (h : ∀ c ∈ l, f c = g c) :
    l.findSome? f = l.findSome? g := by
  rw [← List.head?_filterMap, ← List.head?_filterMap, List.filterMap_congr h]

/-- **A search for all** goes on to the children in sight.

**Proof sketch.** The search is bounded by the number of nodes. One step of it asks for the children
only, so in an arena without cycles a bound that is large enough may be one larger
(`eq_succ_of_step`), and the searches below the children have the same bound since they stand in the
same tree. -/
lemma findAll_step (h : s.tree.Acyclic) (q : Pattern) :
    s.findAll q = (if q.holds s then [s] else []) ++ s.inner.flatMap (·.findAll q) := by
  have hstep : ∀ bound bound' (s : Site),
      (∀ c ∈ s.children, findAllWithin q bound c = findAllWithin q bound' c) →
        findAllWithin q (bound + 1) s = findAllWithin q (bound' + 1) s := by
    intro bound bound' s hs
    have hinner : ∀ c ∈ s.inner, findAllWithin q bound c = findAllWithin q bound' c :=
      fun c hc => hs c (mem_inner.mp hc).1
    rw [findAllWithin, findAllWithin, List.flatMap_congr hinner]
  have hbelow : s.inner.flatMap (findAllWithin q s.tree.size) = s.inner.flatMap (·.findAll q) := by
    refine List.flatMap_congr fun c hc => ?_
    rw [findAll, tree_of_mem_children (mem_inner.mp hc).1]
  rw [findAll, eq_succ_of_step tree_of_mem_children hstep h.down (Nat.le_refl _), findAllWithin,
    hbelow]
  cases q.holds s <;> rfl

/-- **A search for the first one** goes on to the children in sight. -/
lemma findFirst?_step (h : s.tree.Acyclic) (q : Pattern) :
    s.findFirst? q = if q.holds s then some s else s.inner.findSome? (·.findFirst? q) := by
  have hstep : ∀ bound bound' (s : Site),
      (∀ c ∈ s.children, findFirstWithin? q bound c = findFirstWithin? q bound' c) →
        findFirstWithin? q (bound + 1) s = findFirstWithin? q (bound' + 1) s := by
    intro bound bound' s hs
    rw [findFirstWithin?, findFirstWithin?,
      findSome?_congr fun c hc => hs c (mem_inner.mp hc).1]
  have hbelow : s.inner.findSome? (findFirstWithin? q s.tree.size) =
      s.inner.findSome? (·.findFirst? q) := by
    refine findSome?_congr fun c hc => ?_
    rw [findFirst?, tree_of_mem_children (mem_inner.mp hc).1]
  rw [findFirst?, eq_succ_of_step tree_of_mem_children hstep h.down (Nat.le_refl _),
    findFirstWithin?, hbelow]

/-- Whether all elements have a property depends on the elements only. -/
lemma all_congr_of_mem {α : Type} {l : List α} {p q : α → Bool} (h : ∀ a ∈ l, p a = q a) :
    l.all p = l.all q := by
  rw [Bool.eq_iff_iff, List.all_eq_true, List.all_eq_true]
  exact forall₂_congr fun a ha => by rw [h a ha]

/-- Two nodes agree apart from what is below their children. -/
def sameHead (s x : Site) : Bool := s.kind.equal x.kind && s.childCount == x.childCount

/-- **A comparison** goes on to the children, in pairs. It comes to an end if the first tree has no
cycle, whatever the other one is.

**Proof sketch.** How many levels are compared does not matter as long as there are as many as the
tree is deep (`eq_succ_of_step`), so one level may be taken off. What is left is a comparison of
each pair of children with the bound of their parents. As children are in the same trees as their
parents, this is the bound of their own comparison. -/
lemma sameStructure_step (h : s.tree.Acyclic) (x : Site) :
    s.sameStructure x =
      (s.sameHead x && (s.children.zip x.children).all fun (a, b) => a.sameStructure b) := by
  have hstep : ∀ bound bound' (s : Site),
      (∀ c ∈ s.children, sameStructureWithin bound c = sameStructureWithin bound' c) →
        sameStructureWithin (bound + 1) s = sameStructureWithin (bound' + 1) s := by
    intro bound bound' s hs
    funext x
    rw [sameStructureWithin, sameStructureWithin]
    refine congrArg _ (all_congr_of_mem fun ⟨a, b⟩ hab => ?_)
    exact congrFun (hs a (List.of_mem_zip hab).1) b
  have hbelow : ((s.children.zip x.children).all fun (a, b) =>
        sameStructureWithin (max s.tree.size x.tree.size) a b) =
      (s.children.zip x.children).all fun (a, b) => a.sameStructure b := by
    refine all_congr_of_mem fun ⟨a, b⟩ hab => ?_
    obtain ⟨ha, hb⟩ := List.of_mem_zip hab
    change sameStructureWithin _ a b = a.sameStructure b
    rw [sameStructure, tree_of_mem_children ha, tree_of_mem_children hb]
  rw [sameStructure, eq_succ_of_step tree_of_mem_children hstep h.down (Nat.le_max_left _ _),
    sameStructureWithin, hbelow, sameHead]

end Site

/-! ## Trees without cycles -/

namespace Tree

open EditIdioms.Site

variable {t : Tree}

/-- Links along which a quantity grows do not lead back. -/
lemma noReturn_of_lt {link : Site → Site → Prop} (rank : Site → ℕ)
    (h : ∀ {s e : Site}, s.tree = t → link s e → e.tree = t ∧ rank s < rank e) :
    t.NoReturn link := by
  have hway : ∀ {s e : Site}, s.tree = t → Relation.TransGen link s e →
      e.tree = t ∧ rank s < rank e := by
    intro s e hs hse
    induction hse with
    | single hlink => exact h hs hlink
    | tail _ hlink ih =>
      obtain ⟨htree, hlt⟩ := h ih.1 hlink
      exact ⟨htree, Nat.lt_trans ih.2 hlt⟩
  exact fun s hs hcycle => Nat.lt_irrefl _ (hway hs hcycle).2

/-- An arena has no cycles if the parents that nodes name stand before them and the children that
they list behind them, as far as they are there.

**Proof sketch.** On the way down the number of a site grows, so no site comes back to itself. On
the way up what is behind it grows, which is bounded by the size of the arena. -/
lemma acyclic_of_ascending
    (hdown : ∀ id ∈ t.ids, ∀ child ∈ t.listed id, t.contains child → id.index < child.index)
    (hup : ∀ id ∈ t.ids, ∀ parent ∈ t.parentOf? id, t.contains parent → parent.index < id.index) :
    t.Acyclic where
  down := by
    refine noReturn_of_lt (·.id.index) fun {s c} hs hc => ?_
    subst hs
    obtain ⟨htree, hlisted⟩ := mem_children_iff.mp hc
    refine ⟨htree, hdown s.id (mem_ids.mpr (contains_of_mem_listed hlisted)) c.id hlisted ?_⟩
    exact htree ▸ contains_of_node? c.node?_id
  up := by
    refine noReturn_of_lt (fun s => s.tree.size - s.id.index) fun {s p} hs hp => ?_
    subst hs
    obtain ⟨htree, hparent⟩ := parent?_eq_some_iff.mp hp
    have hlt := hup s.id (mem_ids.mpr (contains_of_parentOf? hparent)) p.id hparent
      (htree ▸ contains_of_node? p.node?_id)
    have hin : s.id.index < s.tree.size := s.inArena
    refine ⟨htree, ?_⟩
    rw [htree]
    omega

/-- No way up from below a root leads back, since it comes to the root.

**Proof sketch.** Induction on the way from the root. A root has no parent, so no way up starts at
it. A child has one parent only, through which any way up goes, and a way from the child back to
itself gives one from the parent back to the parent. -/
lemma Rooted.no_return {id : NodeId} (hid : t.Rooted id) {s : Site} (hs : s.tree = t)
    (hsid : s.id = id) : ¬ Relation.TransGen (fun s p : Site => s.parent? = some p) s s := by
  intro hcycle
  induction hid generalizing s with
  | root _ hroot =>
    obtain ⟨p, hp, -⟩ := Relation.TransGen.head'_iff.mp hcycle
    have hparent := (parent?_eq_some_iff.mp hp).2
    rw [hs, hsid, hroot] at hparent
    cases hparent
  | child hparent _ ih =>
    obtain ⟨p, hp, hback⟩ := Relation.TransGen.head'_iff.mp hcycle
    obtain ⟨htree, hparent'⟩ := parent?_eq_some_iff.mp hp
    rw [hs, hsid, hparent] at hparent'
    exact ih (htree.trans hs) (Option.some.inj hparent').symm (.tail' hback hp)

/-- Where links agree, a way down is a way up. -/
lemma Linked.transGen_up (h : t.Linked) {s e : Site} (hs : s.tree = t)
    (hway : Relation.TransGen (fun s c : Site => c ∈ s.children) s e) :
    e.tree = t ∧ Relation.TransGen (fun s p : Site => s.parent? = some p) e s := by
  induction hway with
  | single hc =>
    exact ⟨(tree_of_mem_children hc).trans hs,
      .single ((parent?_eq_some_iff_mem_children (hs ▸ h)).mpr hc)⟩
  | tail _ hc ih =>
    obtain ⟨htree, hup⟩ := ih
    exact ⟨(tree_of_mem_children hc).trans htree,
      .head ((parent?_eq_some_iff_mem_children (htree ▸ h)).mpr hc) hup⟩

/-- **Grounded trees have no cycles**, neither on the way down nor on the way up. -/
lemma Grounded.acyclic (h : t.Grounded) : t.Acyclic := by
  have hup : t.NoReturn fun s p => s.parent? = some p := fun s hs =>
    (h.rooted (hs ▸ contains_of_node? s.node?_id)).no_return hs rfl
  exact ⟨fun s hs hcycle => hup s hs (h.toLinked.transGen_up hs hcycle).2, hup⟩

end Tree

end EditIdioms
