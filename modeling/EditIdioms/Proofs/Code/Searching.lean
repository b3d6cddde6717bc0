import EditIdioms.Proofs.Code.Traversal

set_option relaxedAutoImplicit false
set_option autoImplicit false

/-!
# Searches and the walk

A search is a walk that leaves some children out: where the children of a site are pushed, the
executables and classes among them are not. A walk that leaves nothing out, and then keeps the sites
that fit and have no executable and no class on the way down to them, comes to the same. The site
where a search starts is on no such way, so it is found even if it is an executable.

A search for the first site has a loop of its own, which stops where something fits. It finds the
first site of the search for all.

## Main definitions

* `gatherLoop`, `seekLoop` — the loops of the two searches, with a stack that is pushed to and
  popped at its end.

## Main results

* `gatherLoop_ends`, `seekLoop_ends` — on a tree without cycles both loops end.
* `way_down` — what is above a site of a walk, up to where the walk starts.
* `search_keeps_of_walk` — a search finds a part of the walk.
-/

namespace EditIdioms

/-! ## The loops -/

/-- The loop of a search for all, with the sites found so far. The site at the end of the stack is
looked at next, and the children that a search goes on to are pushed from the last to the first. -/
def gatherLoop (q : Pattern) : Loop (List Site × List Site) (List Site) := fun (stack, found) =>
  match stack.getLast? with
  | none => .inr found
  | some s =>
    .inl (stack.dropLast ++ s.inner.reverse, if q.holds s then found ++ [s] else found)

/-- The loop of a search for the first one, which stops at a site that fits. -/
def seekLoop (q : Pattern) : Loop (List Site) (Option Site) := fun stack =>
  match stack.getLast? with
  | none => .inr none
  | some s => if q.holds s then .inr (some s) else .inl (stack.dropLast ++ s.inner.reverse)

/-- Read from its end, the stack is that of the search that puts children in the place of a site. -/
lemma collectLoop_reverse (q : Pattern) (state : List Site × List Site) :
    collectLoop q (state.1.reverse, state.2) =
      (gatherLoop q state).map (fun state => (state.1.reverse, state.2)) id := by
  obtain ⟨stack, found⟩ := state
  induction stack using List.reverseRecOn with
  | nil => rfl
  | append_singleton stack s => simp [collectLoop, gatherLoop]

/-- The same for a search for the first one. -/
lemma searchLoop_reverse (q : Pattern) (stack : List Site) :
    searchLoop q stack.reverse = (seekLoop q stack).map List.reverse id := by
  induction stack using List.reverseRecOn with
  | nil => rfl
  | append_singleton stack s => cases hq : q.holds s <;> simp [searchLoop, seekLoop, hq]

namespace Tree.Acyclic

open EditIdioms.Site

variable {t : Tree} {s : Site}

/-- **A search for all ends** on a tree without cycles. -/
lemma gatherLoop_ends (h : t.Acyclic) (hs : s.tree = t) (q : Pattern) :
    (gatherLoop q).Ends ([s], []) (s.findAll q) :=
  Loop.Ends.of_view (collectLoop_reverse q) ((h.loopsEnd hs).collect q)

/-- **A search for the first one ends** on a tree without cycles. -/
lemma seekLoop_ends (h : t.Acyclic) (hs : s.tree = t) (q : Pattern) :
    (seekLoop q).Ends [s] (s.findFirst? q) :=
  Loop.Ends.of_view (searchLoop_reverse q) ((h.loopsEnd hs).search q)

end Tree.Acyclic

/-! ## What searches find -/

namespace Site

open EditIdioms.Tree

variable {s e : Site} {q : Pattern}

/-- **What is above a site of a walk**: first the way down to it, and then the site where the walk
starts, with all that is above that one.

**Proof sketch.** The way up from the site goes through the site where the walk starts, and what
comes before that is deeper than it. So the way down is cut off at the first site with its number
and nowhere before. -/
lemma way_down (h : s.tree.Grounded) (he : e ∈ s.walk) :
    e :: e.ancestors = s.wayFrom e ++ s :: s.ancestors := by
  have htree := tree_of_mem_walk h he
  have hup := (mem_walk_iff h htree).mp he
  obtain ⟨way, hway, hbelow⟩ := exists_way (htree ▸ h) hup
  have hne : ∀ v ∈ way, v.id ≠ s.id := by
    intro v hv
    have hmem : v ∈ e :: e.ancestors := hway ▸ List.mem_append_left _ hv
    exact id_ne_of_depth_lt ((tree_of_mem_way_up hmem).trans htree) (hbelow v hv)
  rw [wayFrom_eq hway hne]
  exact hway

/-- A search keeps what fits and is in sight of its start. -/
lemma findAll_eq_filter_walk (h : s.tree.Grounded) :
    s.findAll q = s.walk.filter fun e => q.holds e && s.sees e := by
  rw [findAll_eq h, inSight, List.filter_filter]

/-- What a search for the first one finds comes first in a search for all. -/
lemma findFirst?_eq_head?_findAll (h : s.tree.Grounded) :
    s.findFirst? q = (s.findAll q).head? := by
  rw [findFirst?_eq h, findAll_eq h, List.head?_filter]

end Site

namespace Tree

open EditIdioms.Site

variable {t : Tree}

/-- **A search finds a part of the walk.** In a tree without defect a search for all ends. It finds,
in the order of the walk and each of them once, the sites on which the pattern holds and which have
no executable and no class on the way down to them. The site itself is on that way and the start of
the search is not: what is above a site of the walk is the way, then the start, and then what is
above the start. A search for the first one ends, with the first of the sites that a search for all
finds.

**Proof sketch.** Each of the two loops goes as the one that keeps its stack the other way round
(`collectLoop_reverse`, `searchLoop_reverse`), and these end with the values of the functions. What
is in sight of a site is the site, and what is in sight of the children that a search goes on to
(`inSight_eq`), so by induction from the leaves up a search finds what is in sight and fits. -/
theorem search_keeps_of_walk (h : t.validate = .ok none) (s : Site) (hs : s.tree = t)
    (q : Pattern) :
    (gatherLoop q).Ends ([s], []) (s.findAll q) ∧
      (∀ e ∈ s.walk, e :: e.ancestors = s.wayFrom e ++ s :: s.ancestors) ∧
      s.findAll q = s.walk.filter (fun e => q.holds e &&
        (s.wayFrom e).all fun v => !v.kind.isExecutable && !v.kind.isClass) ∧
      (s.findAll q).Nodup ∧
      (seekLoop q).Ends [s] (s.findFirst? q) ∧ s.findFirst? q = (s.findAll q).head? := by
  subst hs
  obtain ⟨-, hforest⟩ := validate_eq_none_iff.mp h
  have hgrounded := hforest.grounded
  have hkeeps := findAll_eq_filter_walk (q := q) hgrounded
  refine ⟨hgrounded.acyclic.gatherLoop_ends rfl q, fun e he => way_down hgrounded he, hkeeps, ?_,
    hgrounded.acyclic.seekLoop_ends rfl q, findFirst?_eq_head?_findAll hgrounded⟩
  rw [hkeeps]
  exact (nodup_walk hforest).filter _

/-- A lambda with a `return`, with a lambda in it that has one as well, and with a block that has a
third one. A search from the outer lambda starts in an executable and finds the first and the third
`return`; the second one has the inner lambda on the way down to it. Leaving out what stands right
in a lambda, only the third one is found. -/
theorem search_keeps_of_walk_lambda :
    let t : Tree := { nodes := #[{ kind := .lambda [], children := [⟨1⟩, ⟨2⟩, ⟨4⟩] },
      { kind := .returnStatement, parent := some ⟨0⟩ },
      { kind := .lambda [], parent := some ⟨0⟩, children := [⟨3⟩] },
      { kind := .returnStatement, parent := some ⟨2⟩ },
      { kind := .block, parent := some ⟨0⟩, children := [⟨5⟩] },
      { kind := .returnStatement, parent := some ⟨4⟩ }] }
    let outer : Site := ⟨t, ⟨0⟩, by decide⟩
    let deeper : Pattern := .all .returnStatement (.not (.childOf (.kind (·.isExecutable))))
    t.validate = .ok none ∧
      ((gatherLoop .returnStatement).Ends ([outer], []) (outer.findAll .returnStatement) ∧
        (outer.findAll .returnStatement).map (·.id) = [⟨1⟩, ⟨5⟩] ∧
        (outer.findAll .returnStatement).Nodup) ∧
      (seekLoop deeper).Ends [outer] (outer.findFirst? deeper) ∧
      outer.findFirst? deeper = (outer.findAll deeper).head? ∧
      (outer.findAll deeper).map (·.id) = [⟨5⟩] := by
  intro t outer deeper
  have hvalidate : t.validate = .ok none := by decide +kernel
  obtain ⟨hall, -, -, hnodup, -, -⟩ :=
    search_keeps_of_walk hvalidate outer rfl .returnStatement
  obtain ⟨-, -, -, -, hfirst, hhead⟩ := search_keeps_of_walk hvalidate outer rfl deeper
  exact ⟨hvalidate, ⟨hall, by decide +kernel, hnodup⟩, hfirst, hhead, by decide +kernel⟩

end Tree

end EditIdioms
