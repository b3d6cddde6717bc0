import EditIdioms.Proofs.Code.Forest

set_option relaxedAutoImplicit false
set_option autoImplicit false

/-!
# Trees that are built node by node

A tree can be built by calls that add one node each, without parent or below a node that is named.
Nothing checks that the named parent is there. If it is, the arena stays a forest. If it is not, the
node that is added names a parent that does not list it, or itself; and no later call changes the
parent of a node or lists it anywhere, since calls only list the nodes that they add. So the arena
never becomes a forest again, even when the missing parent is added in the end.

## Main definitions

* `Tree.Grown` — what a call does to the links of an arena.
* `Tree.Stunted` — a node that names itself as its parent, or a parent that does not list it.
* `Addition`, `Tree.built` — calls, and the tree that they build.

## Main results

* `grown_addRoot`, `grown_addChild` — what the two calls do.
* `WellFormed.grown`, `Stunted.grown` — what a call keeps.
* `built_validates_iff` — which calls build a forest.
-/

namespace EditIdioms

namespace Tree

/-- The arena has one more node, which names the given parent and is listed last by it, if the
parent is there. -/
structure Grown (t t' : Tree) (parent? : Option NodeId) : Prop where
  size_eq : t'.size = t.size + 1
  parentOf?_eq : ∀ id, t'.parentOf? id = if id = t.nextId then parent? else t.parentOf? id
  listed_eq : ∀ id, t'.listed id =
    if parent? = some id ∧ t'.contains id then t.listed id ++ [t.nextId] else t.listed id

variable {t t' : Tree} {parent? : Option NodeId} {id parent : NodeId} {kind : NodeKind}

/-! ## What the calls do -/

/-- The next node gets the number behind the last one, while there are numbers. -/
lemma index_nextId (hsize : t.size < UInt32.size) : t.nextId.index = t.size :=
  NodeId.index_ofIndex hsize

/-- The next node is the one with that number. -/
lemma index_eq_size_iff (hsize : t.size < UInt32.size) : id.index = t.size ↔ id = t.nextId := by
  constructor
  · intro h
    rw [← id.ofIndex_index, h, nextId]
  · rintro rfl
    exact index_nextId hsize

/-- The next node is not in the arena yet. -/
lemma not_contains_nextId (hsize : t.size < UInt32.size) : ¬ t.contains t.nextId := by
  simp [contains, index_nextId hsize]

/-- The children that a node lists, if it is there. -/
lemma listed_eq_getD (t : Tree) (id : NodeId) :
    t.listed id = ((t.node? id).map Node.children).getD [] := by
  unfold listed
  cases t.node? id <;> rfl

/-- A node that is not there lists nothing. -/
lemma listed_eq_nil (h : ¬ t.contains id) : t.listed id = [] := by
  rw [listed_eq_getD, node?_eq_none_iff.mpr (by simpa using h)]
  rfl

/-! ### Pushing a node -/

section Push

variable (hsize : t.size < UInt32.size) (node : Node) (id : NodeId)

include hsize

/-- The nodes after one more was pushed. -/
lemma node?_push :
    node? ⟨t.nodes.push node⟩ id = if id = t.nextId then some node else t.node? id := by
  rw [node?, Array.getElem?_push]
  exact if_congr (index_eq_size_iff hsize) rfl rfl

/-- The parents after a node was pushed. -/
lemma parentOf?_push :
    parentOf? ⟨t.nodes.push node⟩ id = if id = t.nextId then node.parent else t.parentOf? id := by
  rw [parentOf?, node?_push hsize]
  split <;> rfl

/-- The children after a node was pushed. -/
lemma listed_push :
    listed ⟨t.nodes.push node⟩ id = if id = t.nextId then node.children else t.listed id := by
  rw [listed_eq_getD, node?_push hsize, listed_eq_getD]
  split <;> rfl

end Push

/-! ### Listing a child -/

section Listing

variable (t) (parent child id : NodeId)

/-- The arena when a node is listed as the last child of another one, if that is there. -/
def listing (t : Tree) (parent child : NodeId) : Tree :=
  ⟨t.nodes.modify parent.index fun n => { n with children := n.children ++ [child] }⟩

/-- The nodes after a child was listed. -/
lemma node?_listing :
    (t.listing parent child).node? id =
      if parent = id then (t.node? id).map fun n => { n with children := n.children ++ [child] }
      else t.node? id := by
  rw [listing, node?, Array.getElem?_modify]
  refine if_congr ⟨fun h => ?_, congrArg NodeId.index⟩ rfl rfl
  rw [← parent.ofIndex_index, h, id.ofIndex_index]

/-- Listing a child changes nobody's parent. -/
lemma parentOf?_listing : (t.listing parent child).parentOf? id = t.parentOf? id := by
  rw [parentOf?, node?_listing, parentOf?]
  split
  · cases t.node? id <;> rfl
  · rfl

/-- The children after a child was listed. -/
lemma listed_listing (hin : t.contains parent) :
    (t.listing parent child).listed id =
      if parent = id then t.listed id ++ [child] else t.listed id := by
  rw [listed_eq_getD, node?_listing, listed_eq_getD]
  split
  · rename_i heq
    obtain ⟨node, hnode⟩ := exists_node hin
    rw [← heq, hnode]
    rfl
  · rfl

end Listing

/-- **What adding a root does**: the arena has one more node, which names no parent. -/
lemma grown_addRoot (hsize : t.size < UInt32.size) (kind : NodeKind) :
    t.Grown (t.addRoot kind).2 none where
  size_eq := Array.size_push ..
  parentOf?_eq id := parentOf?_push hsize _ id
  listed_eq id := by
    rw [if_neg (by simp), addRoot, listed_push hsize]
    split
    · rename_i hid
      rw [hid, listed_eq_nil (not_contains_nextId hsize)]
    · rfl

/-- A child is pushed, and then listed by its parent if that is there. -/
lemma addChild_snd (t : Tree) (parent : NodeId) (kind : NodeKind) :
    (t.addChild parent kind).2 =
      let pushed : Tree := ⟨t.nodes.push { kind, parent := some parent }⟩
      if pushed.contains parent then pushed.listing parent t.nextId else pushed := by
  unfold addChild
  dsimp only
  split
  · rename_i hin
    rw [if_pos (by simpa [contains, size] using hin)]
    rfl
  · rename_i hout
    rw [if_neg (by simpa [contains, size] using hout)]

/-- **What adding a child does**, whether the parent is there or not.

**Proof sketch.** The node is put into the arena before it is listed with its parent. Putting it
there changes no list, as the place of the new node had no list before. If the parent is then in the
arena, which may be the new node itself, its list gets one more entry; if it is not, no list is
changed. -/
lemma grown_addChild (hsize : t.size < UInt32.size) (parent : NodeId) (kind : NodeKind) :
    t.Grown (t.addChild parent kind).2 (some parent) := by
  have hlisted : ∀ id, listed ⟨t.nodes.push { kind, parent := some parent }⟩ id = t.listed id := by
    intro id
    rw [listed_push hsize]
    split
    · rename_i hid
      rw [hid, listed_eq_nil (not_contains_nextId hsize)]
    · rfl
  rw [addChild_snd]
  dsimp only
  split
  · rename_i hin
    refine ⟨by simp [listing, size], fun id => ?_, fun id => ?_⟩
    · rw [parentOf?_listing, parentOf?_push hsize]
    · rw [listed_listing _ _ _ _ hin, hlisted]
      refine if_congr ⟨?_, fun h => Option.some.inj h.1⟩ rfl rfl
      rintro rfl
      exact ⟨rfl, by simpa [contains, size, listing] using hin⟩
  · rename_i hout
    refine ⟨Array.size_push .., fun id => parentOf?_push hsize _ id, fun id => ?_⟩
    rw [hlisted, if_neg]
    rintro ⟨heq, hin⟩
    exact hout (Option.some.inj heq ▸ hin)

/-! ## What a call keeps -/

/-- What is in the arena is not the next node. -/
lemma ne_nextId (hsize : t.size < UInt32.size) (hid : t.contains id) : id ≠ t.nextId := by
  rintro rfl
  exact not_contains_nextId hsize hid

namespace Grown

variable (h : t.Grown t' parent?)

include h

/-- The nodes of the arena are those from before and the new one. -/
lemma contains_iff (hsize : t.size < UInt32.size) :
    t'.contains id ↔ t.contains id ∨ id = t.nextId := by
  rw [← index_eq_size_iff hsize]
  simp only [contains, h.size_eq, decide_eq_true_eq]
  omega

/-- A node from before names the parent that it did. -/
lemma parentOf?_of_ne (hid : id ≠ t.nextId) : t'.parentOf? id = t.parentOf? id := by
  rw [h.parentOf?_eq, if_neg hid]

/-- The new node names its parent. -/
lemma parentOf?_nextId : t'.parentOf? t.nextId = parent? := by
  rw [h.parentOf?_eq, if_pos rfl]

/-- A node from before is listed as often as it was. -/
lemma count_listed_of_ne (hid : id ≠ t.nextId) :
    (t'.listed parent).count id = (t.listed parent).count id := by
  rw [h.listed_eq]
  split
  · rw [List.count_append, List.count_singleton, beq_false_of_ne hid.symm]
    rfl
  · rfl

/-- A node from before is listed where it was. -/
lemma mem_listed_iff_of_ne (hid : id ≠ t.nextId) :
    id ∈ t'.listed parent ↔ id ∈ t.listed parent := by
  rw [← List.count_pos_iff, h.count_listed_of_ne hid, List.count_pos_iff]

/-- The new node is listed by its parent, if that is there, and by nobody else. -/
lemma listed_nextId (hunlisted : t.nextId ∉ t.listed parent)
    (hparent : ∀ p ∈ parent?, t'.contains p) :
    (t'.listed parent).count t.nextId = if parent? = some parent then 1 else 0 := by
  have hzero : (t.listed parent).count t.nextId = 0 := List.count_eq_zero_of_not_mem hunlisted
  rw [h.listed_eq]
  by_cases hp : parent? = some parent
  · rw [if_pos ⟨hp, hparent parent hp⟩, if_pos hp, List.count_append, hzero,
      List.count_singleton_self]
  · rw [if_neg fun hp' => hp hp'.1, if_neg hp, hzero]

/-- What was below a root still is. -/
lemma rooted (hsize : t.size < UInt32.size) (hid : t.Rooted id) : t'.Rooted id := by
  induction hid with
  | root inside hroot =>
    refine .root ((h.contains_iff hsize).mpr (.inl inside)) ?_
    rw [h.parentOf?_of_ne (ne_nextId hsize inside), hroot]
  | child hparent _ ih =>
    refine .child ?_ ih
    rw [h.parentOf?_of_ne (ne_nextId hsize (contains_of_parentOf? hparent)), hparent]

end Grown

/-- **A forest stays a forest** when the parent of the new node is there.

**Proof sketch.** The links of the old nodes are as they were, but that the parent of the new node
lists it last. The new node is listed once by its parent and by nobody else, since before it was in
the arena no node could list it (`hcount`). So every node with a parent is listed once by it
(`honce`), and whoever is listed names the one that lists it (`hnamed`). An old node is below its
old root, and the new one is a root or below that of its parent. -/
lemma WellFormed.grown (hforest : t.WellFormed) (h : t.Grown t' parent?)
    (hsize : t.size < UInt32.size) (hparent : ∀ p ∈ parent?, t.contains p) : t'.WellFormed := by
  have hkept : ∀ {v}, t.contains v → t'.contains v := fun hv => (h.contains_iff hsize).mpr (.inl hv)
  have hcount : ∀ {v}, (t'.listed v).count t.nextId = if parent? = some v then 1 else 0 := by
    intro v
    refine h.listed_nextId (fun hlisted => ?_) fun p hp => hkept (hparent p hp)
    exact not_contains_nextId hsize (hforest.child_inside hlisted)
  have honce : ∀ {id parent}, t'.parentOf? id = some parent → (t'.listed parent).count id = 1 := by
    intro id parent hid
    by_cases hnew : id = t.nextId
    · rw [hnew, h.parentOf?_nextId] at hid
      rw [hnew, hcount, if_pos hid]
    · rw [h.parentOf?_of_ne hnew] at hid
      rw [h.count_listed_of_ne hnew, hforest.listed_once hid]
  have hnamed : ∀ {id child}, child ∈ t'.listed id → t'.parentOf? child = some id := by
    intro id child hchild
    by_cases hnew : child = t.nextId
    · rw [hnew, ← List.count_pos_iff, hcount] at hchild
      rw [hnew, h.parentOf?_nextId]
      by_contra hne
      rw [if_neg hne] at hchild
      exact absurd hchild (Nat.lt_irrefl 0)
    · rw [h.parentOf?_of_ne hnew]
      exact hforest.mem_listed_iff.mp ((h.mem_listed_iff_of_ne hnew).mp hchild)
  refine { parent_inside := ?_, child_inside := ?_, mem_listed_iff := ⟨hnamed, ?_⟩
           listed_once := honce, rooted := ?_ }
  · intro id parent hid
    by_cases hnew : id = t.nextId
    · rw [hnew, h.parentOf?_nextId] at hid
      exact hkept (hparent parent hid)
    · rw [h.parentOf?_of_ne hnew] at hid
      exact hkept (hforest.parent_inside hid)
  · exact fun hchild => contains_of_parentOf? (hnamed hchild)
  · intro hid
    rw [← List.count_pos_iff, honce hid]
    exact Nat.one_pos
  · intro id hid
    rcases (h.contains_iff hsize).mp hid with hold | rfl
    · exact h.rooted hsize (hforest.rooted hold)
    · cases hp : parent? with
      | none => exact .root hid (h.parentOf?_nextId.trans hp)
      | some parent =>
        exact .child (h.parentOf?_nextId.trans hp)
          (h.rooted hsize (hforest.rooted (hparent parent hp)))

/-- The node names itself as its parent, or a parent that does not list it. -/
structure Stunted (t : Tree) (id : NodeId) : Prop where
  inside : t.contains id
  parent : ∃ parent, t.parentOf? id = some parent ∧ (parent = id ∨ id ∉ t.listed parent)

/-- There is no such node in a forest. -/
lemma Stunted.not_wellFormed (h : t.Stunted id) : ¬ t.WellFormed := by
  intro hforest
  obtain ⟨parent, hparent, rfl | hunlisted⟩ := h.parent
  · have hclosed : ∀ v ∈ [parent], ∃ p ∈ [parent], t.parentOf? v = some p := by
      simpa using hparent
    exact (hforest.rooted h.inside).not_mem hclosed List.mem_cons_self
  · exact hunlisted (hforest.mem_listed_iff.mpr hparent)

/-- **No call mends it**, since a node keeps its parent and a call lists the new node only. -/
lemma Stunted.grown (hid : t.Stunted id) (h : t.Grown t' parent?) (hsize : t.size < UInt32.size) :
    t'.Stunted id := by
  have hne : id ≠ t.nextId := ne_nextId hsize hid.inside
  obtain ⟨parent, hparent, hwrong⟩ := hid.parent
  refine ⟨(h.contains_iff hsize).mpr (.inl hid.inside), parent, ?_, ?_⟩
  · rw [h.parentOf?_of_ne hne, hparent]
  · rwa [h.mem_listed_iff_of_ne hne]

/-- **A child of a parent that is not there** is such a node. -/
lemma Grown.stunted (h : t.Grown t' (some parent)) (hsize : t.size < UInt32.size)
    (hparent : ¬ t.contains parent) : t'.Stunted t.nextId := by
  refine ⟨(h.contains_iff hsize).mpr (.inr rfl), parent, h.parentOf?_nextId, ?_⟩
  by_cases hself : parent = t.nextId
  · exact .inl hself
  · have hout : ¬ t'.contains parent := by
      rw [h.contains_iff hsize]
      exact not_or.mpr ⟨hparent, hself⟩
    rw [listed_eq_nil hout]
    exact .inr List.not_mem_nil

end Tree

/-! ## Calls -/

/-- A call that adds a node to a tree. -/
inductive Addition where
  | root (kind : NodeKind)
  | child (parent : NodeId) (kind : NodeKind)

namespace Addition

/-- The parent that is named. -/
def parent? : Addition → Option NodeId
  | root _ => none
  | child parent _ => some parent

/-- The tree after a call, which may have been at fault. -/
def applyTo (t : Tree) : Addition → Tree
  | root kind => (t.addRoot kind).2
  | child parent kind => (t.addChild parent kind).2

/-- The parent, if one is named, is already in the arena. -/
def Fits (call : Addition) (t : Tree) : Prop := ∀ parent ∈ call.parent?, t.contains parent

/-- **What a call does**: the arena has one more node, be it a root or a child. -/
lemma grown (call : Addition) {t : Tree} (hsize : t.size < UInt32.size) :
    t.Grown (call.applyTo t) call.parent? := by
  cases call with
  | root kind => exact Tree.grown_addRoot hsize kind
  | child parent kind => exact Tree.grown_addChild hsize parent kind

end Addition

namespace Tree

variable {t : Tree} {id parent : NodeId} {kind : NodeKind} {calls : List Addition} {i : ℕ}
  {call : Addition}

/-- The tree that calls build, beginning with the empty one. -/
def built (calls : List Addition) : Tree := calls.foldl (fun t call => call.applyTo t) {}

/-- What is built by one call more is the call applied to what was built before. -/
lemma built_take_succ (h : calls[i]? = some call) :
    built (calls.take (i + 1)) = call.applyTo (built (calls.take i)) := by
  rw [built, List.take_add_one, h, List.foldl_append]
  rfl

/-- There are as many nodes as there were calls. -/
lemma size_built_take (hcalls : calls.length < UInt32.size) (hi : i ≤ calls.length) :
    (built (calls.take i)).size = i := by
  induction i with
  | zero => rfl
  | succ i ih =>
    have hsize := ih (by omega)
    rw [built_take_succ (List.getElem?_eq_getElem hi),
      (Addition.grown calls[i] (by omega)).size_eq, hsize]

/-- The empty tree is a forest. -/
lemma wellFormed_empty : ({} : Tree).WellFormed :=
  (validate_eq_none_iff.mp (by decide +kernel)).2

/-- **Calls that fit build a forest.**

**Proof sketch.** Induction on the number of calls made. The empty arena is a forest. There are
fewer calls than numbers, so the next one adds a node with a number of its own, and an arena that
has grown by a call that fits is a forest if it was one before. -/
lemma wellFormed_built (hcalls : calls.length < UInt32.size)
    (hfits : ∀ (i : ℕ) (call : Addition), calls[i]? = some call →
      call.Fits (built (calls.take i))) :
    (built calls).WellFormed := by
  have hall : ∀ i ≤ calls.length, (built (calls.take i)).WellFormed := by
    intro i hi
    induction i with
    | zero => exact wellFormed_empty
    | succ i ih =>
      have hcall : calls[i]? = some calls[i] := List.getElem?_eq_getElem hi
      have hsize := size_built_take hcalls (Nat.le_of_succ_le hi)
      rw [built_take_succ hcall]
      exact (ih (Nat.le_of_succ_le hi)).grown (calls[i].grown (by omega)) (by omega)
        (hfits i _ hcall)
  have := hall calls.length (Nat.le_refl _)
  rwa [List.take_length] at this

/-- **A call that does not fit** leaves a node behind that no later call mends.

**Proof sketch.** Right after the call the new node is stunted: its parent is not there. From then
on, by induction on the number of further calls, it stays so, as a call changes the links of its own
node and of that node's parent only. -/
lemma exists_stunted_built (hcalls : calls.length < UInt32.size) (hcall : calls[i]? = some call)
    (hunfit : ¬ call.Fits (built (calls.take i))) : ∃ id, (built calls).Stunted id := by
  obtain ⟨hi, -⟩ := List.getElem?_eq_some_iff.mp hcall
  have hsize := size_built_take hcalls (Nat.le_of_lt hi)
  have hall : ∀ j ≤ calls.length, i < j →
      (built (calls.take j)).Stunted (built (calls.take i)).nextId := by
    intro j hj hij
    induction j with
    | zero => omega
    | succ j ih =>
      have hsize' := size_built_take hcalls (Nat.le_of_succ_le hj)
      by_cases heq : i = j
      · subst heq
        rw [built_take_succ hcall]
        cases call with
        | root kind => exact absurd nofun hunfit
        | child parent kind =>
          refine ((Addition.child parent kind).grown (by omega)).stunted (by omega) fun hin => ?_
          exact hunfit fun p hp => Option.some.inj hp ▸ hin
      · rw [built_take_succ (List.getElem?_eq_getElem hj)]
        exact (ih (by omega) (by omega)).grown (calls[j].grown (by omega)) (by omega)
  have := hall calls.length (Nat.le_refl _) hi
  rw [List.take_length] at this
  exact ⟨_, this⟩

/-- **Trees that are built properly validate, and no others.** Calls that add fewer nodes than there
are numbers build a tree without defect exactly if each call names a parent that was in the arena
before it. When one call names the number of its own node or a larger one as the parent, there is a
defect in the end, whatever calls follow. A call that was at fault counts with the arena that it
left.

**Proof sketch.** A call adds one node and lists it with its parent if that is there
(`Addition.grown`). If it is, a forest stays one (`WellFormed.grown`); if not, the node is its own
parent or is not listed by it, and stays so (`Grown.stunted`, `Stunted.grown`). -/
theorem built_validates_iff {calls : List Addition} (hcalls : calls.length < UInt32.size) :
    ((built calls).validate = .ok none ↔
      ∀ (i : ℕ) (call : Addition), calls[i]? = some call → call.Fits (built (calls.take i))) ∧
    ∀ (i : ℕ) (parent : NodeId) (kind : NodeKind), calls[i]? = some (.child parent kind) →
      (built (calls.take i)).nextId.index ≤ parent.index →
        ∃ defect, (built calls).validate = .ok (some defect) := by
  have hsize : (built calls).size = calls.length := by
    have := size_built_take hcalls (Nat.le_refl _)
    rwa [List.take_length] at this
  have hforest : (built calls).validate = .ok none ↔ (built calls).WellFormed :=
    validate_eq_none_iff.trans (and_iff_right (by omega))
  have hunfit : ∀ {i : ℕ} {call : Addition}, calls[i]? = some call →
      ¬ call.Fits (built (calls.take i)) → (built calls).validate ≠ .ok none := by
    intro i call hcall hunfit hvalid
    obtain ⟨id, hid⟩ := exists_stunted_built hcalls hcall hunfit
    exact hid.not_wellFormed (hforest.mp hvalid)
  refine ⟨⟨fun hvalid i call hcall => ?_, fun hfits => ?_⟩, fun i parent kind hcall hlarge => ?_⟩
  · by_contra hno
    exact hunfit hcall hno hvalid
  · exact hforest.mpr (wellFormed_built hcalls hfits)
  · obtain ⟨hi, -⟩ := List.getElem?_eq_some_iff.mp hcall
    have hsize := size_built_take hcalls (Nat.le_of_lt hi)
    rw [index_nextId (by omega)] at hlarge
    obtain ⟨defect?, hvalidate⟩ := (built calls).validate_isOk
    cases defect? with
    | some defect => exact ⟨defect, hvalidate⟩
    | none =>
      refine absurd hvalidate (hunfit hcall fun hfits => ?_)
      have hin : (built (calls.take i)).contains parent := hfits parent rfl
      simp only [contains, decide_eq_true_eq] at hin
      omega

/-- Two blocks and statements in them are built properly. When the second block is named before it
is there, it does not help that it is added later. -/
theorem built_validates_iff_late :
    let good : List Addition := [.root .block, .child ⟨0⟩ .returnStatement, .root .block,
      .child ⟨2⟩ .breakStatement, .child ⟨0⟩ .throwStatement]
    let late : List Addition := [.root .block, .child ⟨2⟩ .returnStatement, .root .block,
      .child ⟨2⟩ .breakStatement]
    (good.length < UInt32.size ∧ (Addition.child ⟨2⟩ .breakStatement).Fits (built (good.take 3)) ∧
      (built good).validate = .ok none) ∧
    late.length < UInt32.size ∧ (built (late.take 1)).nextId.index ≤ (⟨2⟩ : NodeId).index ∧
      ∃ defect, (built late).validate = .ok (some defect) := by
  intro good late
  have hvalid : (built good).validate = .ok none := by decide +kernel
  have hgood : good.length < UInt32.size := by decide
  have hlate : late.length < UInt32.size := by decide
  have hmissing : (built (late.take 1)).nextId.index ≤ (⟨2⟩ : NodeId).index := by decide +kernel
  exact ⟨⟨hgood, (built_validates_iff hgood).1.mp hvalid 3 _ rfl, hvalid⟩, hlate, hmissing,
    (built_validates_iff hlate).2 1 ⟨2⟩ _ rfl hmissing⟩

end Tree

end EditIdioms
