import EditIdioms.Code.NullGuard
import EditIdioms.Proofs.Code.Navigation

set_option relaxedAutoImplicit false
set_option autoImplicit false

/-!
# What is in sight

A search sees the node where it starts, and every node below it unless the way down to that node
goes into an executable or a class. The node where the search starts is not asked what it is: a
search that starts at a lambda looks into the lambda. So what is in sight belongs to the executable
around the start, except when the start is an executable itself.

## Main definitions

* `Site.wayFrom` — the nodes on the way down to a site.
* `Site.sees`, `Site.inSight` — what is in sight, in the order of the walk.
* `Site.following` — the siblings behind a site.
* `Site.Returns`, `Site.Dereferences`, `Site.FirstDereference` — what the searches look for.

## Main results

* `inSight_eq` — what is in sight of a node is the node, and what is in sight of the children that a
  search goes on to.
* `findAll_eq`, `findFirst?_eq` — searches find what is in sight.
* `reachesReturn_iff`, `findSome?_dereference?_eq_some_iff` — the questions that detectors ask.
* `dereferenceAfter_eq` — the siblings that are searched are those that follow.
* `enclosingExecutable?_of_inSight` — to which executable what is in sight belongs.
-/

namespace EditIdioms

/-! ## Patterns -/

namespace Pattern

variable {s : Site} {p q : Pattern}

@[simp] lemma returnStatement_holds :
    returnStatement.holds s = true ↔ s.kind = .returnStatement := by
  unfold returnStatement holds
  cases s.kind <;> simp

@[simp] lemma breakStatement_holds : breakStatement.holds s = true ↔ s.kind = .breakStatement := by
  unfold breakStatement holds
  cases s.kind <;> simp

@[simp] lemma ifStatement_holds : ifStatement.holds s = true ↔ s.kind = .ifStatement := by
  unfold ifStatement holds
  cases s.kind <;> simp

@[simp] lemma caseArm_holds : caseArm.holds s = true ↔ s.kind = .caseArm := by
  unfold caseArm holds
  cases s.kind <;> simp

@[simp] lemma whileLoop_holds : whileLoop.holds s = true ↔ s.kind = .whileLoop := by
  unfold whileLoop holds
  cases s.kind <;> simp

@[simp] lemma invocation_holds :
    invocation.holds s = true ↔ ∃ signature, s.kind = .invocation signature := by
  unfold invocation holds
  cases s.kind <;> simp

@[simp] lemma childOf_holds :
    (childOf p).holds s = true ↔ ∃ parent, s.parent? = some parent ∧ p.holds parent = true := by
  rw [holds, Option.any_eq_true]

@[simp] lemma all_holds : (all p q).holds s = true ↔ p.holds s = true ∧ q.holds s = true := by
  rw [holds, Bool.and_eq_true]

@[simp] lemma any_holds : (any p q).holds s = true ↔ p.holds s = true ∨ q.holds s = true := by
  rw [holds, Bool.or_eq_true]

@[simp] lemma not_holds : (not p).holds s = true ↔ ¬ p.holds s = true := by
  rw [holds, Bool.not_eq_true', Bool.not_eq_true]

end Pattern

namespace Site

open EditIdioms.Tree

variable {s c p e root : Site}

/-! ## Definitions -/

/-- The nodes on the way from a root down to a site, last one first. The root is not one of them. -/
def wayFrom (root e : Site) : List Site := (e :: e.ancestors).takeWhile (·.id ≠ root.id)

/-- Whether the way down to a site goes into no executable and no class. -/
def sees (root e : Site) : Bool :=
  (root.wayFrom e).all fun s => !s.kind.isExecutable && !s.kind.isClass

/-- The nodes in sight from a root, in the order of the walk. -/
def inSight (root : Site) : List Site := root.walk.filter root.sees

/-- The siblings behind a site. -/
def following (s : Site) : List Site :=
  match s.parent? with
  | none => []
  | some p => (p.children.dropWhile (·.id ≠ s.id)).tail

/-- A `return` is in sight. -/
def Returns (branch : Site) : Prop := ∃ r ∈ branch.inSight, r.kind = .returnStatement

/-- The site reads a field of the expression `x`, or calls a method on it. -/
def Dereferences (e x : Site) (d : Dereference) : Prop :=
  e.kind.dereference? = some d ∧ ∃ receiver, e.child? 0 = some receiver ∧
    receiver.sameStructure x = true

/-! ## The way down -/

/-- The way is what is passed before the root is met. -/
lemma wayFrom_eq {way : List Site} (hway : e :: e.ancestors = way ++ s :: s.ancestors)
    (hne : ∀ v ∈ way, v.id ≠ s.id) : s.wayFrom e = way := by
  rw [wayFrom, hway, List.takeWhile_append_of_pos (by simpa using hne),
    List.takeWhile_cons_of_neg (by simp), List.append_nil]

/-- There are no steps from a node to itself. -/
lemma wayFrom_self (s : Site) : s.wayFrom s = [] := by
  have hway : s :: s.ancestors = [] ++ s :: s.ancestors := rfl
  exact wayFrom_eq hway nofun

/-- Two sites of a tree with different depths have different numbers. -/
lemma id_ne_of_depth_lt (htree : e.tree = s.tree) (hdepth : s.depth < e.depth) : e.id ≠ s.id := by
  intro hid
  rw [eq_of_id_eq htree hid] at hdepth
  exact Nat.lt_irrefl _ hdepth

/-- The way from a node to what is below one of its children goes by this child.

**Proof sketch.** The way up from the lower site passes the child, and everything on it before the
child is further below (`exists_way`), so it is the way from the child. Above the child comes the
node. So the way from the node is the same with the child at its end: no site on it has the number
of the node, as each of them is further below. -/
lemma wayFrom_of_child (h : s.tree.Grounded) (hc : c ∈ s.children) (he : e ∈ c.walk) :
    s.wayFrom e = c.wayFrom e ++ [c] := by
  have hctree := tree_of_mem_children hc
  have hcg : c.tree.Grounded := hctree ▸ h
  have hetree := tree_of_mem_walk hcg he
  have heg : e.tree.Grounded := hetree ▸ hcg
  have hup := (mem_walk_iff hcg hetree).mp he
  obtain ⟨way, hway, hbelow⟩ := exists_way heg hup
  have hparent := (parent?_eq_some_iff_mem_children h.toLinked).mpr hc
  have hdepth := depth_of_child hcg hparent
  have htree : ∀ v ∈ way, v.tree = c.tree := by
    intro v hv
    have hmem : v ∈ e :: e.ancestors := by
      rw [hway]
      exact List.mem_append_left _ hv
    rcases List.mem_cons.mp hmem with rfl | hmem
    · exact hetree
    · exact (tree_of_mem_ancestors hmem).trans hetree
  have hfrom : c.wayFrom e = way :=
    wayFrom_eq hway fun v hv => id_ne_of_depth_lt (htree v hv) (hbelow v hv)
  rw [hfrom]
  refine wayFrom_eq ?_ fun v hv => ?_
  · rw [hway, ancestors_of_child hcg.acyclic hparent, List.append_assoc, List.singleton_append]
  · rcases List.mem_append.mp hv with hv | hv
    · have := hbelow v hv
      exact id_ne_of_depth_lt ((htree v hv).trans hctree) (by omega)
    · obtain rfl := List.mem_singleton.mp hv
      exact id_ne_of_depth_lt hctree (by omega)

/-- Every node sees itself, as nothing stands between. -/
lemma sees_self (s : Site) : s.sees s = true := by
  rw [sees, wayFrom_self]
  rfl

/-- A node sees what is below one of its children if the child does and can be passed. -/
lemma sees_of_child (h : s.tree.Grounded) (hc : c ∈ s.children) (he : e ∈ c.walk) :
    s.sees e = ((!c.kind.isExecutable && !c.kind.isClass) && c.sees e) := by
  rw [sees, wayFrom_of_child h hc he, List.all_append, List.all_cons, List.all_nil, Bool.and_true,
    Bool.and_comm]
  rfl

/-- Looking from a node into the walks of children is looking from those that can be passed.

**Proof sketch.** Induction on the list of children. From the node, what is below a child is seen if
it is seen from that child and the child can be passed (`sees_of_child`). So the walk of a child
that can be passed is filtered as from the child, and of the walk of another one nothing is left. -/
lemma flatMap_filter_sees (h : s.tree.Grounded) {l : List Site} (hl : ∀ c ∈ l, c ∈ s.children) :
    (l.flatMap fun c => c.walk.filter s.sees) =
      (l.filter fun c => !c.kind.isExecutable && !c.kind.isClass).flatMap inSight := by
  induction l with
  | nil => rfl
  | cons c l ih =>
    have hc := hl c List.mem_cons_self
    have hrest := ih fun d hd => hl d (List.mem_cons_of_mem c hd)
    rw [List.flatMap_cons, hrest]
    cases hopen : !c.kind.isExecutable && !c.kind.isClass with
    | true =>
      simp only [List.filter_cons, hopen, if_true, List.flatMap_cons]
      congr 1
      refine List.filter_congr fun e he => ?_
      rw [sees_of_child h hc he, hopen, Bool.true_and]
    | false =>
      simp only [List.filter_cons, hopen, Bool.false_eq_true, if_false]
      have hnone : c.walk.filter s.sees = [] := by
        refine List.filter_eq_nil_iff.mpr fun e he => ?_
        rw [sees_of_child h hc he, hopen]
        exact Bool.false_ne_true
      rw [hnone, List.nil_append]

/-- **What is in sight** of a node is the node, and what is in sight of the children that a search
goes on to. -/
lemma inSight_eq (h : s.tree.Grounded) : s.inSight = s :: s.inner.flatMap inSight := by
  rw [inSight, walk_eq h.acyclic, List.filter_cons_of_pos (sees_self s), List.filter_flatMap,
    flatMap_filter_sees h fun c hc => hc]
  rfl

/-! ## Searches -/

/-- **A search for all** finds what is in sight and fits, in the order of the walk. -/
lemma findAll_eq (h : s.tree.Grounded) (q : Pattern) : s.findAll q = s.inSight.filter q.holds := by
  induction s, h using induction_from_leaves with
  | step s h ih =>
    have hbelow : s.inner.flatMap (·.findAll q) = (s.inner.flatMap inSight).filter q.holds := by
      rw [List.filter_flatMap]
      exact List.flatMap_congr fun c hc => ih c (mem_inner.mp hc).1
    rw [findAll_step h.acyclic, hbelow, inSight_eq h]
    cases hq : q.holds s with
    | true => rw [List.filter_cons_of_pos hq]; rfl
    | false => rw [List.filter_cons_of_neg (by simp [hq])]; rfl

/-- **A search for the first one** finds the first that is in sight and fits. -/
lemma findFirst?_eq (h : s.tree.Grounded) (q : Pattern) :
    s.findFirst? q = s.inSight.find? q.holds := by
  induction s, h using induction_from_leaves with
  | step s h ih =>
    have hbelow : s.inner.findSome? (·.findFirst? q) = (s.inner.flatMap inSight).find? q.holds := by
      rw [List.find?_flatMap, findSome?_congr fun c hc => ih c (mem_inner.mp hc).1]
    rw [findFirst?_step h.acyclic, hbelow, inSight_eq h, List.find?_cons]
    cases q.holds s <;> rfl

/-- **A branch returns** if a `return` is in sight. -/
lemma reachesReturn_iff (h : s.tree.Grounded) : s.reachesReturn = true ↔ s.Returns := by
  rw [reachesReturn, findFirst?_eq h, List.find?_isSome]
  exact exists_congr fun r => and_congr_right fun _ => Pattern.returnStatement_holds

/-! ## Dereferences -/

/-- The dereference of an expression that a site is. -/
def dereferenceOf? (x e : Site) : Option Dereference :=
  if e.hasReceiver x then e.kind.dereference? else none

/-- This is what it is to dereference an expression. -/
lemma dereferenceOf?_eq_some_iff {x : Site} {d : Dereference} :
    dereferenceOf? x e = some d ↔ e.Dereferences x d := by
  have hreceiver : e.hasReceiver x = true ↔
      ∃ receiver, e.child? 0 = some receiver ∧ receiver.sameStructure x = true := by
    rw [hasReceiver, Option.any_eq_true]
  rw [Dereferences, ← hreceiver, dereferenceOf?]
  cases e.hasReceiver x <;> simp

/-- The first dereference in a scope. -/
lemma dereference?_eq (h : s.tree.Grounded) (x : Site) :
    s.dereference? x = s.inSight.findSome? (dereferenceOf? x) := by
  rw [dereference?, findAll_eq h, ← List.head?_filterMap, ← List.head?_filterMap,
    List.filterMap_filter, List.filterMap_filter]
  congr 1
  refine List.filterMap_congr fun e _ => ?_
  simp only [Pattern.dereference, Pattern.holds, dereferenceOf?]
  cases e.kind <;> cases e.hasReceiver x <;> rfl

/-- A dereference is the first one in what is in sight of scopes, one scope after the other. -/
def FirstDereference (scopes : List Site) (x : Site) (d : Dereference) : Prop :=
  ∃ before found after, scopes.flatMap inSight = before ++ found :: after ∧
    found.Dereferences x d ∧ ∀ e ∈ before, ∀ d', ¬ e.Dereferences x d'

/-- The first dereference is in sight of one of the scopes. -/
lemma FirstDereference.exists_mem {scopes : List Site} {x : Site} {d : Dereference}
    (h : FirstDereference scopes x d) :
    ∃ scope ∈ scopes, ∃ e ∈ scope.inSight, e.Dereferences x d := by
  obtain ⟨before, found, after, hsplit, hfound, -⟩ := h
  have hmem : found ∈ scopes.flatMap inSight := by
    rw [hsplit]
    exact List.mem_append_right _ List.mem_cons_self
  obtain ⟨scope, hscope, hsight⟩ := List.mem_flatMap.mp hmem
  exact ⟨scope, hscope, found, hsight, hfound⟩

/-- **The first dereference in scopes**, searched one after another, is the first one among what is
in sight of them. -/
lemma findSome?_dereference?_eq {scopes : List Site} (h : ∀ scope ∈ scopes, scope.tree.Grounded)
    (x : Site) : scopes.findSome? (·.dereference? x) =
      (scopes.flatMap inSight).findSome? (dereferenceOf? x) := by
  induction scopes with
  | nil => rfl
  | cons scope scopes ih =>
    rw [List.flatMap_cons, List.findSome?_append, List.findSome?_cons,
      dereference?_eq (h scope List.mem_cons_self),
      ih fun scope hscope => h scope (List.mem_cons_of_mem _ hscope)]
    cases scope.inSight.findSome? (dereferenceOf? x) <;> rfl

/-- **Looking for a dereference** in scopes finds the first one. -/
lemma findSome?_dereference?_eq_some_iff {scopes : List Site}
    (h : ∀ scope ∈ scopes, scope.tree.Grounded) {x : Site} {d : Dereference} :
    scopes.findSome? (·.dereference? x) = some d ↔ FirstDereference scopes x d := by
  have hnone : ∀ e : Site, dereferenceOf? x e = none ↔ ∀ d', ¬ e.Dereferences x d' := by
    intro e
    rw [Option.eq_none_iff_forall_ne_some]
    exact forall_congr' fun d' => not_congr dereferenceOf?_eq_some_iff
  rw [findSome?_dereference?_eq h, List.findSome?_eq_some_iff]
  simp only [hnone, dereferenceOf?_eq_some_iff, FirstDereference]

/-- There is a first dereference if there is one. -/
lemma exists_firstDereference_iff {scopes : List Site} {x : Site}
    (h : ∀ scope ∈ scopes, scope.tree.Grounded) :
    (∃ d, FirstDereference scopes x d) ↔
      ∃ scope ∈ scopes, ∃ e ∈ scope.inSight, ∃ d, e.Dereferences x d := by
  have hfirst : (∃ d, FirstDereference scopes x d) ↔
      ((scopes.flatMap inSight).findSome? (dereferenceOf? x)).isSome = true := by
    rw [Option.isSome_iff_exists, ← findSome?_dereference?_eq h]
    exact exists_congr fun d => (findSome?_dereference?_eq_some_iff h).symm
  rw [hfirst, List.findSome?_isSome_iff]
  simp only [List.mem_flatMap, Option.isSome_iff_exists, dereferenceOf?_eq_some_iff]
  constructor
  · rintro ⟨e, ⟨scope, hscope, he⟩, hd⟩
    exact ⟨scope, hscope, e, he, hd⟩
  · rintro ⟨scope, hscope, e, he, hd⟩
    exact ⟨e, ⟨scope, hscope, he⟩, hd⟩

/-! ## Siblings -/

/-- Where links agree, every listed child is there. -/
lemma map_id_children (h : s.tree.Linked) : s.children.map (·.id) = s.node.children := by
  have hthere : ∀ id ∈ s.node.children, ∃ c, s.tree.site? id = some c ∧ c.id = id := by
    intro id hid
    rw [← listed_id] at hid
    have hin : id.index < s.tree.size := by
      simpa [contains] using h.child_inside hid
    exact ⟨⟨s.tree, id, hin⟩, site?_eq_some_iff.mpr ⟨rfl, rfl⟩, rfl⟩
  unfold children
  generalize s.node.children = ids at hthere
  induction ids with
  | nil => rfl
  | cons id ids ih =>
    obtain ⟨c, hc, hid⟩ := hthere id List.mem_cons_self
    rw [List.filterMap_cons_some hc, List.map_cons, hid,
      ih fun id hid => hthere id (List.mem_cons_of_mem _ hid)]

/-- What is behind the first one with a number. -/
lemma drop_idxOf? (l : List Site) (id : NodeId) :
    (((l.map (·.id)).idxOf? id).map fun i => l.drop (i + 1)).getD [] =
      (l.dropWhile (·.id ≠ id)).tail := by
  induction l with
  | nil => rfl
  | cons c l ih =>
    rw [List.map_cons, List.idxOf?_cons]
    by_cases hc : c.id = id
    · simp [hc]
    · rw [if_neg (by simpa using hc), List.dropWhile_cons_of_pos (by simpa using hc), ← ih,
        Option.map_map]
      rfl

/-- Where a site stands among its siblings. It is no fault to ask this, whatever the tree is. -/
lemma indexInParent_eq (hp : s.parent? = some p) :
    s.indexInParent = .ok (p.node.children.idxOf? s.id) := by
  obtain ⟨htree, hparent⟩ := parent?_eq_some_iff.mp hp
  rw [parentOf?_id] at hparent
  unfold indexInParent
  rw [hparent]
  dsimp only
  rw [← htree, node?_id]

/-- Looking into the siblings that follow is no fault either. -/
lemma dereferenceAfter_isOk (s x : Site) : ∃ found?, s.dereferenceAfter x = .ok found? := by
  unfold dereferenceAfter
  cases hp : s.parent? with
  | none => exact ⟨none, rfl⟩
  | some p =>
    dsimp only
    rw [indexInParent_eq hp]
    cases p.node.children.idxOf? s.id with
    | none => exact ⟨none, rfl⟩
    | some position => exact ⟨_, rfl⟩

/-- **The siblings that are searched** are those that follow. -/
lemma dereferenceAfter_eq (h : s.tree.Linked) (x : Site) :
    s.dereferenceAfter x = .ok (s.following.findSome? (·.dereference? x)) := by
  unfold dereferenceAfter following
  cases hp : s.parent? with
  | none => rfl
  | some p =>
    have hlinked : p.tree.Linked := tree_of_parent? hp ▸ h
    dsimp only
    rw [indexInParent_eq hp, ← map_id_children hlinked, ← drop_idxOf?]
    cases (p.children.map (·.id)).idxOf? s.id <;> rfl

/-- Siblings that follow have the same parent. -/
lemma parent?_of_mem_following (h : s.tree.Linked) (hc : c ∈ s.following) :
    ∃ p, s.parent? = some p ∧ c.parent? = some p := by
  unfold following at hc
  cases hp : s.parent? with
  | none =>
    rw [hp] at hc
    cases hc
  | some p =>
    rw [hp] at hc
    have hmem : c ∈ p.children := (List.dropWhile_sublist _).mem (List.mem_of_mem_tail hc)
    exact ⟨p, rfl, (parent?_eq_some_iff_mem_children (tree_of_parent? hp ▸ h)).mpr hmem⟩

/-! ## Executables around -/

/-- The executable around a child is its parent or the one around that. -/
lemma enclosingExecutable?_of_child (h : s.tree.Grounded) (hp : s.parent? = some p) :
    s.enclosingExecutable? = if p.kind.isExecutable then some p else p.enclosingExecutable? := by
  rw [enclosingExecutable?, ancestors_of_child h.acyclic hp, List.find?_cons]
  cases p.kind.isExecutable <;> rfl

/-- **What is in sight** of a root, and is not the root, belongs to the root if that is an
executable, and to the executable around the root if not. -/
lemma enclosingExecutable?_of_inSight (h : root.tree.Grounded) (he : e ∈ root.inSight) :
    e = root ∨ e.enclosingExecutable? =
      if root.kind.isExecutable then some root else root.enclosingExecutable? := by
  induction root, h using induction_from_leaves with
  | step root h ih =>
    rw [inSight_eq h, List.mem_cons, List.mem_flatMap] at he
    rcases he with rfl | ⟨c, hc, he⟩
    · exact .inl rfl
    · obtain ⟨hchild, hexecutable, -⟩ := mem_inner.mp hc
      have hcg : c.tree.Grounded := tree_of_mem_children hchild ▸ h
      have hparent := (parent?_eq_some_iff_mem_children h.toLinked).mpr hchild
      right
      rcases ih c hchild he with rfl | he
      · exact enclosingExecutable?_of_child hcg hparent
      · rw [he, hexecutable, if_neg Bool.false_ne_true]
        exact enclosingExecutable?_of_child hcg hparent

end Site

end EditIdioms
