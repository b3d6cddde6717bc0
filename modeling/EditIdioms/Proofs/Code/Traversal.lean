import EditIdioms.Proofs.Code.Loops
import EditIdioms.Proofs.Code.Scope

set_option relaxedAutoImplicit false
set_option autoImplicit false

/-!
# Walking down and climbing up

A walk goes down along the lists of children, and climbing goes up along the parents that nodes
name. In a forest the two tell the same: a walk meets a node exactly if climbing from that node
meets the start of the walk. On the way up depths decrease, so no node comes twice there, and two
children of one node are not both above a third. This is why no node comes twice in a walk either,
and why each node of the arena is met from one root.

## Main definitions

* `pushLoop` — the loop of a walk, with a stack that is pushed to and popped at its end.
* `climbLoop` — the loop that goes from parent to parent.
* `Tree.tops` — the sites without parent.

## Main results

* `Loop.Ends.of_view` — a loop that goes as another one does ends where that one ends.
* `pushLoop_ends`, `climbLoop_ends` — on a tree without cycles both loops end.
* `pairwise_ancestors` — depths decrease on the way up.
* `nodup_walk`, `nodup_flatMap_walk_tops` — no node comes twice in a walk, or in the walks from all
  roots.
* `navigation_agrees` — walking down and climbing up agree.
-/

namespace EditIdioms

/-! ## The loops -/

namespace Loop

variable {σ τ β : Type} {loop : Loop σ β} {loop' : Loop τ β} {b : β}

/-- **A loop that goes as another one does**, seen through a view of its states, ends where that one
ends. -/
lemma Ends.of_view {view : τ → σ} (h : ∀ t, loop (view t) = (loop' t).map view id) {t : τ}
    (hends : loop.Ends (view t) b) : loop'.Ends t b := by
  generalize hs : view t = s at hends
  induction hends generalizing t with
  | stop hstop =>
    rw [← hs, h] at hstop
    cases hstep : loop' t with
    | inl t' => simp [hstep] at hstop
    | inr b' =>
      obtain rfl : b' = _ := by simpa [hstep] using hstop
      exact .stop hstep
  | @step s s' b hstep _ ih =>
    rw [← hs, h] at hstep
    cases hstep' : loop' t with
    | inl t' => exact .step hstep' (ih (by simpa [hstep'] using hstep))
    | inr b' => simp [hstep'] at hstep

end Loop

/-- The loop of a walk, with the sites met so far. The site at the end of the stack is met next, and
its children are pushed from the last to the first. -/
def pushLoop : Loop (List Site × List Site) (List Site) := fun (stack, met) =>
  match stack.getLast? with
  | none => .inr met
  | some s => .inl (stack.dropLast ++ s.children.reverse, met ++ [s])

/-- The loop that goes from parent to parent, with the sites met so far. -/
def climbLoop : Loop (Option Site × List Site) (List Site)
  | (none, met) => .inr met
  | (some s, met) => .inl (s.parent?, met ++ [s])

/-- Read from its end, the stack is that of the walk that puts children in the place of a site. -/
lemma walkLoop_reverse (state : List Site × List Site) :
    walkLoop (state.1.reverse, state.2) =
      (pushLoop state).map (fun state => (state.1.reverse, state.2)) id := by
  obtain ⟨stack, met⟩ := state
  induction stack using List.reverseRecOn with
  | nil => rfl
  | append_singleton stack s =>
    simp [walkLoop, pushLoop]

namespace Tree.Acyclic

open EditIdioms.Site

variable {t : Tree} {s : Site}

/-- **A walk with a stack ends** on a tree without cycles. -/
lemma pushLoop_ends (h : t.Acyclic) (hs : s.tree = t) : pushLoop.Ends ([s], []) s.walk :=
  Loop.Ends.of_view walkLoop_reverse (h.walkLoop_ends hs)

/-- **Climbing ends** on a tree without cycles.

**Proof sketch.** Induction along the links to parents. A root ends the loop. At any other site one
step takes the parent to what was met, and what is above the site is the parent and what is above
that. -/
lemma climbLoop_ends (h : t.Acyclic) (hs : s.tree = t) (met : List Site) :
    climbLoop.Ends (s.parent?, met) (met ++ s.ancestors) := by
  induction s, hs using induction_along tree_of_parent? h.up generalizing met with
  | step s hs ih =>
    cases hp : s.parent? with
    | none =>
      rw [ancestors_of_root hp, List.append_nil]
      exact .stop rfl
    | some p =>
      rw [ancestors_of_child (hs ▸ h) hp, List.append_cons]
      exact .step rfl (ih p hp (met ++ [p]))

end Tree.Acyclic

namespace Site

open EditIdioms.Tree

variable {s c d e : Site}

/-! ## The way up -/

/-- **Depths decrease on the way up.** -/
lemma pairwise_ancestors (h : e.tree.Grounded) :
    (e :: e.ancestors).Pairwise fun a b => b.depth < a.depth := by
  induction e, h using induction_from_root with
  | root e h hroot =>
    rw [ancestors_of_root hroot]
    exact List.pairwise_singleton _ e
  | child e p h hp ih =>
    refine List.pairwise_cons.mpr ⟨fun a ha => depth_lt_of_mem_ancestors h ha, ?_⟩
    rwa [ancestors_of_child h.acyclic hp]

/-- No node comes twice on the way up. -/
lemma nodup_way_up (h : e.tree.Grounded) : (e :: e.ancestors).Nodup :=
  (pairwise_ancestors h).imp fun {a b} hlt heq => by
    rw [heq] at hlt
    exact Nat.lt_irrefl _ hlt

/-- Of the nodes on the way up, one has a given depth. -/
lemma eq_of_depth_eq (h : e.tree.Grounded) (hc : c ∈ e :: e.ancestors)
    (hd : d ∈ e :: e.ancestors) (hdepth : c.depth = d.depth) : c = d := by
  have hne : (e :: e.ancestors).Pairwise fun a b => a.depth ≠ b.depth :=
    (pairwise_ancestors h).imp fun {a b} hlt => Nat.ne_of_gt hlt
  have : Std.Symm fun a b : Site => a.depth ≠ b.depth := ⟨fun _ _ => Ne.symm⟩
  by_contra hcd
  exact hne.forall hc hd hcd hdepth

/-- What a site is above of, itself included, stands in its tree. -/
lemma tree_of_mem_way_up (h : s ∈ e :: e.ancestors) : s.tree = e.tree := by
  rcases List.mem_cons.mp h with rfl | h
  · rfl
  · exact tree_of_mem_ancestors h

/-! ## The walk -/

/-- In a forest the children of a site are different. -/
lemma nodup_children (h : s.tree.WellFormed) : s.children.Nodup := by
  have hids : (s.children.map (·.id)).Nodup := by
    rw [map_id_children h.toLinked, ← listed_id]
    exact h.nodup_listed s.id
  exact hids.of_map

/-- Walks from different sites of one depth have nothing in common. -/
lemma disjoint_walk (hc : c.tree.Grounded) (hd : d.tree.Grounded) (hdepth : c.depth = d.depth)
    (hne : c ≠ d) : c.walk.Disjoint d.walk := by
  intro e he he'
  have htree : e.tree = c.tree := tree_of_mem_walk hc he
  have htree' : e.tree = d.tree := tree_of_mem_walk hd he'
  exact hne (eq_of_depth_eq (htree ▸ hc) ((mem_walk_iff hc htree).mp he)
    ((mem_walk_iff hd htree').mp he') hdepth)

/-- Walks from different sites of one depth meet no node twice, if no single one does. -/
lemma nodup_flatMap_walk {l : List Site} {depth : ℕ} (hl : l.Nodup)
    (hgrounded : ∀ s ∈ l, s.tree.Grounded) (hdepth : ∀ s ∈ l, s.depth = depth)
    (hwalk : ∀ s ∈ l, s.walk.Nodup) : (l.flatMap walk).Nodup := by
  refine List.nodup_flatMap.mpr ⟨hwalk, hl.pairwise_of_forall_ne fun c hc d hd hne => ?_⟩
  exact disjoint_walk (hgrounded c hc) (hgrounded d hd)
    ((hdepth c hc).trans (hdepth d hd).symm) hne

/-- **No node comes twice in a walk.**

**Proof sketch.** Induction from the leaves. The site is not met from its children, as they are one
level further below and what is met from them is not above them. The walks of two different children
have nothing in common, and none of them has a repetition (`nodup_flatMap_walk`). -/
lemma nodup_walk (h : s.tree.WellFormed) : s.walk.Nodup := by
  have hs := h.grounded
  induction s, hs using induction_from_leaves with
  | step s hs ih =>
    have htree : ∀ c ∈ s.children, c.tree = s.tree := fun c hc => tree_of_mem_children hc
    rw [walk_eq hs.acyclic, List.nodup_cons]
    constructor
    · intro hmem
      obtain ⟨c, hc, hsc⟩ := List.mem_flatMap.mp hmem
      have hup := (mem_walk_iff (htree c hc ▸ hs) (htree c hc).symm).mp hsc
      have hdepth := depth_of_mem_children hs hc
      -- a child is further below than the site, and nothing above the site is
      rcases List.mem_cons.mp hup with rfl | hup
      · omega
      · have := depth_lt_of_mem_ancestors hs hup
        omega
    · exact nodup_flatMap_walk (nodup_children h) (fun c hc => htree c hc ▸ hs)
        (fun c hc => depth_of_mem_children hs hc) fun c hc => ih c hc (htree c hc ▸ h)

/-- **A walk meets** its start and what the start is above of. -/
lemma mem_walk_iff_mem_ancestors (h : s.tree.Grounded) : e ∈ s.walk ↔ e = s ∨ s ∈ e.ancestors := by
  constructor
  · intro he
    exact (List.mem_cons.mp ((mem_walk_iff h (tree_of_mem_walk h he)).mp he)).imp_left Eq.symm
  · intro hs
    have hup : s ∈ e :: e.ancestors := List.mem_cons.mpr (hs.imp_left Eq.symm)
    exact (mem_walk_iff h (tree_of_mem_way_up hup).symm).mpr hup

end Site

/-! ## Roots -/

namespace Tree

open EditIdioms.Site

variable {t : Tree} {s e : Site}

/-- The sites of the nodes without parent. -/
def tops (t : Tree) : List Site := t.roots.filterMap t.site?

/-- These are the sites of the tree that name no parent. -/
lemma mem_tops : s ∈ t.tops ↔ s.tree = t ∧ s.node.parent = none := by
  rw [tops, List.mem_filterMap]
  constructor
  · rintro ⟨id, hid, hsite⟩
    obtain ⟨rfl, rfl⟩ := site?_eq_some_iff.mp hsite
    exact ⟨rfl, s.parentOf?_id ▸ (mem_roots.mp hid).2⟩
  · rintro ⟨rfl, hparent⟩
    refine ⟨s.id, mem_roots.mpr ⟨contains_of_node? s.node?_id, ?_⟩,
      site?_eq_some_iff.mpr ⟨rfl, rfl⟩⟩
    rw [parentOf?_id, hparent]

/-- No root comes twice, as the nodes of the arena have different numbers. -/
lemma nodup_tops (hsize : t.size ≤ UInt32.size) : t.tops.Nodup := by
  refine ((nodup_ids hsize).filter _).filterMap fun id id' s hs hs' => ?_
  exact (site?_eq_some_iff.mp hs).2.symm.trans (site?_eq_some_iff.mp hs').2

/-- A root has no parent to go up to. -/
lemma parent?_of_mem_tops (h : s ∈ t.tops) : s.parent? = none := by
  rw [parent?, (mem_tops.mp h).2, Option.bind_none]

/-- A root is not below anything. -/
lemma depth_of_mem_tops (h : s ∈ t.tops) : s.depth = 0 := by
  rw [depth, ancestors_of_root (parent?_of_mem_tops h), List.length_nil]

/-- **Every site is below a root**, or is one. -/
lemma exists_top (h : e.tree.Grounded) : ∃ s ∈ e.tree.tops, s ∈ e :: e.ancestors := by
  induction e, h using induction_from_root with
  | root e h hroot =>
    exact ⟨e, mem_tops.mpr ⟨rfl, (parent?_eq_none_iff h.toLinked).mp hroot⟩, List.mem_cons_self⟩
  | child e p h hp ih =>
    obtain ⟨s, hs, hup⟩ := ih
    refine ⟨s, tree_of_parent? hp ▸ hs, List.mem_cons_of_mem e ?_⟩
    rwa [ancestors_of_child h.acyclic hp]

/-- **No node comes twice in the walks from the roots.** -/
lemma nodup_flatMap_walk_tops (h : t.WellFormed) (hsize : t.size ≤ UInt32.size) :
    (t.tops.flatMap walk).Nodup := by
  have htree : ∀ s ∈ t.tops, s.tree = t := fun s hs => (mem_tops.mp hs).1
  exact nodup_flatMap_walk (nodup_tops hsize) (fun s hs => htree s hs ▸ h.grounded)
    (fun s hs => depth_of_mem_tops hs) fun s hs => nodup_walk (htree s hs ▸ h)

/-- **The walks from the roots meet the whole arena.**

**Proof sketch.** A walk stays in the tree of its root. The other way round the way up from a site
comes to a root, and a site is met by the walk from whatever is above it. -/
lemma mem_flatMap_walk_tops (h : t.Grounded) : e ∈ t.tops.flatMap walk ↔ e.tree = t := by
  rw [List.mem_flatMap]
  constructor
  · rintro ⟨s, hs, he⟩
    obtain ⟨rfl, -⟩ := mem_tops.mp hs
    exact tree_of_mem_walk h he
  · rintro rfl
    obtain ⟨s, hs, hup⟩ := exists_top h
    have htree : s.tree = e.tree := tree_of_mem_way_up hup
    exact ⟨s, hs, (mem_walk_iff (htree ▸ h) htree.symm).mpr hup⟩

/-- **Walking down and climbing up agree.** In a tree without defect a walk ends, meets its start
and then walks from each child in turn, and meets no node twice. It meets just its start and the
nodes from which climbing comes by the start. Climbing ends, and meets no node twice and not the
one that it starts from. The walks from all nodes without parent meet every node of the arena once.

**Proof sketch.** That the loops end needs no more than that there are no cycles. Depths decrease on
the way up (`pairwise_ancestors`), so at most one of several sites of one depth is above a given
one, which keeps the walks from siblings apart, and those from roots (`nodup_flatMap_walk`). -/
theorem navigation_agrees (h : t.validate = .ok none) :
    (∀ a : Site, a.tree = t →
      pushLoop.Ends ([a], []) a.walk ∧ a.walk = a :: a.children.flatMap walk ∧ a.walk.Nodup ∧
        ∀ b : Site, b ∈ a.walk ↔ b = a ∨ a ∈ b.ancestors) ∧
    (∀ b : Site, b.tree = t →
      climbLoop.Ends (b.parent?, []) b.ancestors ∧ b.ancestors.Nodup ∧ b ∉ b.ancestors) ∧
    (t.tops.flatMap walk).Nodup ∧ ∀ b : Site, b ∈ t.tops.flatMap walk ↔ b.tree = t := by
  obtain ⟨hsize, hforest⟩ := validate_eq_none_iff.mp h
  have hgrounded := hforest.grounded
  refine ⟨fun a ha => ?_, fun b hb => ?_, nodup_flatMap_walk_tops hforest hsize,
    fun b => mem_flatMap_walk_tops hgrounded⟩
  · subst ha
    exact ⟨hgrounded.acyclic.pushLoop_ends rfl, walk_eq hgrounded.acyclic, nodup_walk hforest,
      fun b => mem_walk_iff_mem_ancestors hgrounded⟩
  · subst hb
    obtain ⟨hself, hnodup⟩ := List.nodup_cons.mp (nodup_way_up hgrounded)
    exact ⟨hgrounded.acyclic.climbLoop_ends rfl [], hnodup, hself⟩

/-- A block with two statements, of which the first holds an expression, and a class beside it,
numbered in no order: the walk from the block leaves the class out. -/
theorem navigation_agrees_scattered :
    let t : Tree := { nodes := #[{ kind := .returnStatement, parent := some ⟨1⟩ },
      { kind := .block, children := [⟨3⟩, ⟨0⟩] }, { kind := .classDeclaration "C" },
      { kind := .throwStatement, parent := some ⟨1⟩, children := [⟨4⟩] },
      { kind := .thisAccess, parent := some ⟨3⟩ }] }
    let block : Site := ⟨t, ⟨1⟩, by decide⟩
    let access : Site := ⟨t, ⟨4⟩, by decide⟩
    t.validate = .ok none ∧
      (pushLoop.Ends ([block], []) block.walk ∧
        block.walk.map (·.id) = [⟨1⟩, ⟨3⟩, ⟨4⟩, ⟨0⟩]) ∧
      (climbLoop.Ends (access.parent?, []) access.ancestors ∧ block ∈ access.ancestors) ∧
      (t.tops.flatMap walk).Nodup ∧ (t.tops.flatMap walk).length = 5 := by
  intro t block access
  have hvalidate : t.validate = .ok none := by decide +kernel
  have hmet : block.walk.map (·.id) = [⟨1⟩, ⟨3⟩, ⟨4⟩, ⟨0⟩] := by decide +kernel
  obtain ⟨hdown, hup, hnodup, -⟩ := navigation_agrees hvalidate
  obtain ⟨-, hforest⟩ := validate_eq_none_iff.mp hvalidate
  obtain ⟨hends, -, -, hmem⟩ := hdown block rfl
  have hfour : (⟨4⟩ : NodeId) ∈ block.walk.map (·.id) := by rw [hmet]; decide
  obtain ⟨e, he, hid⟩ := List.mem_map.mp hfour
  have htree : e.tree = block.tree := tree_of_mem_walk hforest.grounded he
  obtain rfl : e = access := eq_of_id_eq htree hid
  have habove : block ∈ access.ancestors :=
    ((hmem access).mp he).resolve_left fun heq => by cases congrArg Site.id heq
  exact ⟨hvalidate, ⟨hends, hmet⟩, ⟨(hup access rfl).1, habove⟩, hnodup, by decide +kernel⟩

end Tree

end EditIdioms
