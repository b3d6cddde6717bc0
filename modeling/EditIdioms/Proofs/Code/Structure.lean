import EditIdioms.Proofs.Code.Loops
import EditIdioms.Proofs.Code.Scope

set_option relaxedAutoImplicit false
set_option autoImplicit false

/-!
# Subtrees of the same structure

Two subtrees are compared from their tops down, in pairs of children. The numbers of nodes play no
part in this, so the subtrees may stand in different trees. What is compared can be read from the
walks: two subtrees have the same structure when their walks meet equal kinds with equally many
children at the same steps. The number of children makes this enough. A walk that is followed by
anything else still shows where it ends, so that equal lists fall into equal walks.

Kinds are equal when neither is a NaN and they differ in the sign of a zero at most. This is all
that keeps the comparison from being an equivalence.

## Main definitions

* `NodeKind.isNaN`, `NodeKind.plain` — kinds that differ from themselves, and kinds without the sign
  of a zero.
* `Site.Alike` — what a comparison asks of a pair of nodes.

## Main results

* `NodeKind.equal_iff` — equality of kinds.
* `Site.sameStructure_iff_children` — subtrees of the same structure by their children.
* `Site.sameStructure_iff_walk` — subtrees of the same structure by their walks.
* `Site.sameStructure_compares_walks` — a comparison ends, and compares walks.
-/

namespace EditIdioms

/-! ## Equality of kinds -/

namespace Floating

variable {fmt : BinaryFormat} {x y : Floating fmt}

/-- The number without the sign of a zero. -/
def plain (x : Floating fmt) : Floating fmt := if x.isZero then ofBits 0 else x

/-- A zero stays a zero without its sign, and no other number becomes one. -/
lemma isZero_plain (x : Floating fmt) : x.plain.isZero = x.isZero := by
  rw [plain]
  cases hx : x.isZero with
  | true => simp [isZero, ofBits]
  | false => simpa using hx

/-- What the sign of a zero keeps apart. -/
lemma plain_eq_plain_iff : x.plain = y.plain ↔ x = y ∨ x.isZero = true ∧ y.isZero = true := by
  constructor
  · intro h
    have hzero : x.isZero = y.isZero := by rw [← isZero_plain x, h, isZero_plain]
    cases hx : x.isZero with
    | true => exact .inr ⟨rfl, hzero.symm.trans hx⟩
    | false => exact .inl (by simpa [plain, hx, hzero.symm.trans hx] using h)
  · rintro (rfl | ⟨hx, hy⟩)
    · rfl
    · simp [plain, hx, hy]

/-- **Numbers are equal** if neither is a NaN and they differ in the sign of a zero at most. -/
lemma equal_iff : x.equal y = true ↔ x.isNaN = false ∧ y.isNaN = false ∧ x.plain = y.plain := by
  rw [equal, plain_eq_plain_iff, Bool.and_eq_true, Bool.and_eq_true, Bool.or_eq_true,
    Bool.and_eq_true, Bool.not_eq_true', Bool.not_eq_true', beq_iff_eq, and_assoc]

end Floating

namespace Literal

/-- Whether the literal is a NaN. -/
def isNaN : Literal → Bool
  | float x => x.isNaN
  | double x => x.isNaN
  | _ => false

/-- The literal without the sign of a zero. -/
def plain : Literal → Literal
  | float x => float x.plain
  | double x => double x.plain
  | a => a

/-- **Literals are equal** if neither is a NaN and they differ in the sign of a zero at most. -/
lemma equal_iff {a b : Literal} :
    a.equal b = true ↔ a.isNaN = false ∧ b.isNaN = false ∧ a.plain = b.plain := by
  cases a <;> cases b <;> simp [equal, isNaN, plain, Floating.equal_iff]

end Literal

namespace NodeKind

/-- Whether the node is a literal NaN. -/
def isNaN : NodeKind → Bool
  | literal value => value.isNaN
  | _ => false

/-- The kind without the sign of a zero. -/
def plain : NodeKind → NodeKind
  | literal value => literal value.plain
  | kind => kind

/-- **Kinds are equal** if neither is a NaN and they differ in the sign of a zero at most. -/
lemma equal_iff {k l : NodeKind} :
    k.equal l = true ↔ k.isNaN = false ∧ l.isNaN = false ∧ k.plain = l.plain := by
  cases k <;> cases l <;> simp [equal, isNaN, plain, Literal.equal_iff]

end NodeKind

namespace Site

open EditIdioms.Tree

variable {s x y : Site}

/-! ## Pairs of nodes -/

/-- Two nodes have equal kinds, attributes included, and equally many children. -/
def Alike (s x : Site) : Prop := s.kind.equal x.kind = true ∧ s.childCount = x.childCount

/-- This is what a comparison asks before it goes on to the children. -/
lemma sameHead_iff : s.sameHead x = true ↔ s.Alike x := by
  rw [sameHead, Bool.and_eq_true, beq_iff_eq, Alike]

/-- A node is like itself unless it is a NaN. -/
lemma alike_self_iff : s.Alike s ↔ s.kind.isNaN = false := by
  simp [Alike, NodeKind.equal_iff]

/-- Nodes are alike in both directions. -/
lemma Alike.symm (h : s.Alike x) : x.Alike s := by
  obtain ⟨hs, hx, hplain⟩ := NodeKind.equal_iff.mp h.1
  exact ⟨NodeKind.equal_iff.mpr ⟨hx, hs, hplain.symm⟩, h.2.symm⟩

/-- Nodes that are like the same node are alike. -/
lemma Alike.trans (h : s.Alike x) (h' : x.Alike y) : s.Alike y := by
  obtain ⟨hs, -, hplain⟩ := NodeKind.equal_iff.mp h.1
  obtain ⟨-, hy, hplain'⟩ := NodeKind.equal_iff.mp h'.1
  exact ⟨NodeKind.equal_iff.mpr ⟨hs, hy, hplain.trans hplain'⟩, h.2.trans h'.2⟩

/-- Where links agree, as many children are there as are counted. -/
lemma length_children (h : s.tree.Linked) : s.children.length = s.childCount := by
  rw [childCount, ← map_id_children h, List.length_map]

/-! ## Comparisons by walks -/

/-- **Subtrees have the same structure** if their tops are alike and their children have the same
structure one by one. No child is left over, since there are as many children as are counted.

**Proof sketch.** One step of the comparison looks at the tops, which agree on the number of
children, and at the children in pairs. Where links agree as many children are there as are counted,
so the pairs leave none out. -/
lemma sameStructure_iff_children (hs : s.tree.Grounded) (hx : x.tree.Grounded) :
    s.sameStructure x = true ↔
      s.Alike x ∧ List.Forall₂ (fun c d => c.sameStructure d = true) s.children x.children := by
  rw [sameStructure_step hs.acyclic, Bool.and_eq_true, sameHead_iff, List.all_eq_true,
    List.forall₂_iff_zip]
  refine and_congr_right fun halike => ?_
  have hlength : s.children.length = x.children.length := by
    rw [length_children hs.toLinked, length_children hx.toLinked, halike.2]
  constructor
  · exact fun hall => ⟨hlength, fun hcd => hall _ hcd⟩
  · exact fun hall cd hcd => hall.2 hcd

/-- Lists fall into walks in one way: what begins with the walks of two sites, step by step alike,
begins with subtrees of the same structure and goes on step by step alike.

**Proof sketch.** By induction from the leaves, and then along the two lists of children, which have
the same length since the tops of the walks are alike. -/
lemma sameStructure_of_walk_append (hs : s.tree.Grounded) (hx : x.tree.Grounded) {l m : List Site}
    (h : List.Forall₂ Alike (s.walk ++ l) (x.walk ++ m)) :
    s.sameStructure x = true ∧ List.Forall₂ Alike l m := by
  induction s, hs using induction_from_leaves generalizing x l m with
  | step s hs ih =>
    rw [walk_eq hs.acyclic, walk_eq hx.acyclic, List.cons_append, List.cons_append] at h
    obtain ⟨halike, hrest⟩ := List.forall₂_cons.mp h
    have hpeel : ∀ cs ds : List Site, (∀ c ∈ cs, c ∈ s.children) → (∀ d ∈ ds, d ∈ x.children) →
        cs.length = ds.length →
        List.Forall₂ Alike (cs.flatMap walk ++ l) (ds.flatMap walk ++ m) →
          List.Forall₂ (fun c d => c.sameStructure d = true) cs ds ∧ List.Forall₂ Alike l m := by
      intro cs
      induction cs with
      | nil =>
        intro ds _ _ hlength hrest
        obtain rfl := List.length_eq_zero_iff.mp hlength.symm
        exact ⟨.nil, hrest⟩
      | cons c cs ihc =>
        intro ds hcs hds hlength hrest
        cases ds with
        | nil => cases hlength
        | cons d ds =>
          rw [List.flatMap_cons, List.flatMap_cons, List.append_assoc, List.append_assoc] at hrest
          have hd : d.tree.Grounded := tree_of_mem_children (hds d List.mem_cons_self) ▸ hx
          obtain ⟨hcd, hrest⟩ := ih c (hcs c List.mem_cons_self) hd hrest
          obtain ⟨hall, hrest⟩ := ihc ds (fun e he => hcs e (List.mem_cons_of_mem c he))
            (fun e he => hds e (List.mem_cons_of_mem d he)) (Nat.succ.inj hlength) hrest
          exact ⟨.cons hcd hall, hrest⟩
    have hlength : s.children.length = x.children.length := by
      rw [length_children hs.toLinked, length_children hx.toLinked, halike.2]
    obtain ⟨hall, hrest⟩ := hpeel _ _ (fun _ h => h) (fun _ h => h) hlength hrest
    exact ⟨(sameStructure_iff_children hs hx).mpr ⟨halike, hall⟩, hrest⟩

/-- The walks of subtrees of the same structure are step by step alike.

**Proof sketch.** Induction from the leaves of the first tree. Sites of the same structure have the
same head, and their children have the same structure in pairs. The walk of a site is the site and
then the walks of its children. By induction on the two lists of children at once (`hwalks`) these
are alike step by step. -/
lemma forall₂_walk_of_sameStructure (hs : s.tree.Grounded) (hx : x.tree.Grounded)
    (h : s.sameStructure x = true) : List.Forall₂ Alike s.walk x.walk := by
  induction s, hs using induction_from_leaves generalizing x with
  | step s hs ih =>
    obtain ⟨halike, hall⟩ := (sameStructure_iff_children hs hx).mp h
    rw [walk_eq hs.acyclic, walk_eq hx.acyclic]
    refine .cons halike ?_
    have hwalks : ∀ cs ds : List Site, (∀ c ∈ cs, c ∈ s.children) → (∀ d ∈ ds, d ∈ x.children) →
        List.Forall₂ (fun c d => c.sameStructure d = true) cs ds →
          List.Forall₂ Alike (cs.flatMap walk) (ds.flatMap walk) := by
      intro cs ds hcs hds hall
      induction hall with
      | nil => exact .nil
      | @cons c d cs ds hcd _ ihc =>
        have hd : d.tree.Grounded := tree_of_mem_children (hds d List.mem_cons_self) ▸ hx
        rw [List.flatMap_cons, List.flatMap_cons]
        exact List.rel_append (ih c (hcs c List.mem_cons_self) hd hcd)
          (ihc (fun e he => hcs e (List.mem_cons_of_mem c he))
            fun e he => hds e (List.mem_cons_of_mem d he))
    exact hwalks _ _ (fun _ h => h) (fun _ h => h) hall

/-- **Subtrees have the same structure** if their walks are step by step alike. -/
lemma sameStructure_iff_walk (hs : s.tree.Grounded) (hx : x.tree.Grounded) :
    s.sameStructure x = true ↔ List.Forall₂ Alike s.walk x.walk := by
  refine ⟨forall₂_walk_of_sameStructure hs hx, fun h => ?_⟩
  have happend : List.Forall₂ Alike (s.walk ++ []) (x.walk ++ []) := by
    rwa [List.append_nil, List.append_nil]
  exact (sameStructure_of_walk_append hs hx happend).1

/-- A subtree has the structure of itself if it has no NaN. -/
lemma sameStructure_self_iff (hs : s.tree.Grounded) :
    s.sameStructure s = true ↔ ∀ e ∈ s.walk, e.kind.isNaN = false := by
  rw [sameStructure_iff_walk hs hs, List.forall₂_same]
  exact forall₂_congr fun e _ => alike_self_iff

/-- To have the same structure is symmetric. -/
lemma sameStructure_comm (hs : s.tree.Grounded) (hx : x.tree.Grounded) :
    s.sameStructure x = x.sameStructure s := by
  have hflip : ∀ {l m : List Site}, List.Forall₂ Alike l m → List.Forall₂ Alike m l := by
    intro l m h
    exact (h.imp fun _ _ halike => halike.symm).flip
  rw [Bool.eq_iff_iff, sameStructure_iff_walk hs hx, sameStructure_iff_walk hx hs]
  exact ⟨hflip, hflip⟩

/-- To have the same structure is transitive.

**Proof sketch.** Two trees have the same structure if the sites of their walks are alike one by one
(`sameStructure_iff_walk`). The walks are gone through together, and to be alike is transitive. -/
lemma sameStructure_trans (hs : s.tree.Grounded) (hx : x.tree.Grounded) (hy : y.tree.Grounded)
    (hsx : s.sameStructure x = true) (hxy : x.sameStructure y = true) :
    s.sameStructure y = true := by
  rw [sameStructure_iff_walk hs hx] at hsx
  rw [sameStructure_iff_walk hx hy] at hxy
  rw [sameStructure_iff_walk hs hy]
  generalize s.walk = l at hsx ⊢
  generalize x.walk = m at hsx hxy
  generalize y.walk = n at hxy ⊢
  induction hsx generalizing n with
  | nil =>
    cases hxy
    exact .nil
  | cons halike _ ih =>
    cases hxy with
    | cons halike' hrest' => exact .cons (halike.trans halike') (ih _ hrest')

/-- **A comparison ends, and compares walks.** On trees without defect the loops that compare and
that walk end, and two subtrees have the same structure exactly if their walks are equally long and
meet, step by step, equal kinds with equally many children. So a subtree has the structure of itself
exactly if it has no NaN, and to have the same structure is symmetric and transitive, whichever
trees the subtrees stand in.

**Proof sketch.** The walks of subtrees of the same structure are alike by induction from the
leaves. The other way around, a walk shows where it ends (`sameStructure_of_walk_append`). The rest
is true of the steps. -/
theorem sameStructure_compares_walks (hs : s.tree.validate = .ok none)
    (hx : x.tree.validate = .ok none) :
    (compareLoop.Ends [(s, x)] (s.sameStructure x) ∧
      walkLoop.Ends ([s], []) s.walk ∧ walkLoop.Ends ([x], []) x.walk) ∧
    (s.sameStructure x = true ↔ List.Forall₂ Alike s.walk x.walk) ∧
    (s.sameStructure s = true ↔ ∀ e ∈ s.walk, e.kind.isNaN = false) ∧
    s.sameStructure x = x.sameStructure s ∧
    ∀ y : Site, y.tree.validate = .ok none →
      s.sameStructure x = true → x.sameStructure y = true → s.sameStructure y = true := by
  have hsg := grounded_of_validate hs
  have hxg := grounded_of_validate hx
  refine ⟨⟨(hsg.acyclic.loopsEnd rfl).compare x, hsg.acyclic.walkLoop_ends rfl,
    hxg.acyclic.walkLoop_ends rfl⟩, sameStructure_iff_walk hsg hxg, sameStructure_self_iff hsg,
    sameStructure_comm hsg hxg, fun y hy => ?_⟩
  exact sameStructure_trans hsg hxg (grounded_of_validate hy)

/-- In one tree a block returns zero, in the other a statement returns the other zero, and the nodes
are numbered the other way around. The statements have the same structure. -/
theorem sameStructure_compares_walks_zeros :
    let left : Tree := { nodes := #[{ kind := .block, children := [⟨1⟩] },
      { kind := .returnStatement, parent := some ⟨0⟩, children := [⟨2⟩] },
      { kind := .literal (.double (.ofNat false 0)), parent := some ⟨1⟩ }] }
    let right : Tree := { nodes := #[
      { kind := .literal (.double (.ofNat true 0)), parent := some ⟨1⟩ },
      { kind := .returnStatement, children := [⟨0⟩] }] }
    let s : Site := ⟨left, ⟨1⟩, by decide⟩
    let x : Site := ⟨right, ⟨1⟩, by decide⟩
    (left.validate = .ok none ∧ right.validate = .ok none) ∧
      (s.walk.length = 2 ∧ List.Forall₂ Alike s.walk x.walk) ∧
      s.sameStructure x = true ∧ x.sameStructure s = true ∧ x.sameStructure x = true := by
  intro left right s x
  have hleft : left.validate = .ok none := by decide +kernel
  have hright : right.validate = .ok none := by decide +kernel
  have hsame : s.sameStructure x = true := by decide +kernel
  obtain ⟨-, hwalks, -, hcomm, -⟩ := sameStructure_compares_walks (s := s) (x := x) hleft hright
  obtain ⟨-, -, -, -, htrans⟩ := sameStructure_compares_walks (s := x) (x := s) hright hleft
  have hback : x.sameStructure s = true := hcomm ▸ hsame
  exact ⟨⟨hleft, hright⟩, ⟨by decide +kernel, hwalks.mp hsame⟩, hsame, hback,
    htrans x hright hback hsame⟩

end Site

end EditIdioms
