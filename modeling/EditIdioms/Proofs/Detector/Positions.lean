import EditIdioms.Proofs.Code.Positions
import EditIdioms.Proofs.Detector.Chain

set_option relaxedAutoImplicit false
set_option autoImplicit false

/-!
# Positions in rules and searches

Two things that are done with an edit rest on the position of a node. An operand that is moved out
of a call is reported with its position among the operands, and the code behind an inserted `if` is
searched from the next position on. In a compared file without defects the position that is
reported is that of the operand and of nothing else, and it fits into the word that holds it. The
siblings searched are those at larger positions.

## Main definitions

* `callPlaces` — a call of which an operand was moved out.

## Main results

* `Chain.standard_classify_move` — a move concerns one detector.
* `argumentPropagated_sees_move_iff` — the position of an operand that was moved out of a call.
* `positions_name_children` — positions and children are inverse.
-/

namespace EditIdioms

variable {before after : Site} {rule : Rule} {index : UInt64}

/-- **A move** concerns the detector for operands, and the standard chain gives its rule. -/
lemma Chain.standard_classify_move (h : (Edit.move before after).Grounded) :
    standard.classify (.move before after) = .ok (some rule) ↔
      argumentPropagated.Sees (.move before after) rule := by
  have hexperts : (Edit.move before after).experts.findSome? (·.rule? (.move before after)) =
      argumentPropagated.rule? (.move before after) := by
    rw [Edit.experts, List.findSome?_singleton]
  rw [standard_classify_eq h, hexperts, Except.ok.injEq, Detector.rule?_eq_some_iff]

/-- Positions in a forest with numbers for all nodes fit into a word of 64 bits. -/
lemma Site.lt_uint64_size_of_child? {p c : Site} {i : ℕ} (h : p.tree.WellFormed)
    (hsize : p.tree.size ≤ UInt32.size) (hc : p.child? i = some c) : i < UInt64.size := by
  have hi : i < UInt32.size := Nat.lt_of_lt_of_le (Site.lt_size_of_child? h hc) hsize
  exact Nat.lt_trans hi (by decide)

/-- **An operand that was moved out of a call** is seen with its position in the call. -/
lemma argumentPropagated_sees_move_iff (h : before.tree.WellFormed)
    (hsize : before.tree.size ≤ UInt32.size) :
    argumentPropagated.Sees (.move before after) (.argumentPropagated index) ↔
      (∃ call signature, call.kind = .invocation signature ∧ before.StandsAt call index.toNat) ∧
      ∀ p signature, after.parent? = some p → p.kind ≠ .invocation signature := by
  rw [argumentPropagated_sees_iff]
  constructor
  · rintro ⟨_, _, call, signature, position, ⟨⟩, hcall, hkind, hafter, hposition, hrule⟩
    have htree := Site.tree_of_parent? hcall
    have hchild := (Site.idxOf?_eq_some_iff_child? h hcall).mp hposition
    have hlt := Site.lt_uint64_size_of_child? (htree ▸ h) (htree ▸ hsize) hchild
    obtain rfl : index = .ofNat position := Rule.argumentPropagated.inj hrule
    rw [UInt64.toNat_ofNat_of_lt' hlt]
    exact ⟨⟨call, signature, hkind, hcall, hchild⟩, hafter⟩
  · rintro ⟨⟨call, signature, hkind, hcall, hchild⟩, hafter⟩
    have hposition := (Site.idxOf?_eq_some_iff_child? h hcall).mpr hchild
    exact ⟨before, after, call, signature, index.toNat, rfl, hcall, hkind, hafter, hposition,
      by rw [UInt64.ofNat_toNat]⟩

/-- **Positions and children are inverse.** In a tree without defect, asking a node for its position
is no fault. Exactly the nodes without parent have none, and the position of another is where the
node is the child of its parent. It is the only place in the tree at which the node is a child.

So in a compared file without defects, the standard chain reports a moved node as an operand with
an index exactly if the node is the child of a call at this index, and nowhere else the child of
anything, and was moved to where it is no operand. And the siblings that are searched for a
dereference behind a node are those at larger positions, in their order and each of them once.

**Proof sketch.** A parent lists a child once (`Tree.WellFormed.nodup_listed`), so the first place
of its number is the only one, and every child that is listed is there, so the places in the list
are those in the list of sites (`Site.getElem?_children`). A move concerns one detector, and a list
of different nodes is not longer than the tree, so positions fit into a word. -/
theorem positions_name_children :
    (∀ s : Site, s.tree.validate = .ok none →
      (∃ position?, s.indexInParent = .ok position?) ∧
      (s.indexInParent = .ok none ↔ s.node.parent = none) ∧
      (∀ i, s.indexInParent = .ok (some i) ↔ ∃ p, s.StandsAt p i) ∧
      (s.node.parent ≠ none → ∃! place : Site × ℕ, place.1.child? place.2 = some s)) ∧
    ∀ d : FileDiff, d.defect? = none →
      (∀ before after index, .move before after ∈ d.edits →
        (Chain.standard.classify (.move before after) = .ok (some (.argumentPropagated index)) ↔
          (∃ call signature, call.kind = .invocation signature ∧ before.parent? = some call ∧
            ∀ p i, p.child? i = some before ↔ p = call ∧ i = index.toNat) ∧
          ∀ p signature, after.parent? = some p → p.kind ≠ .invocation signature)) ∧
      ∀ s : Site, s.tree = d.before ∨ s.tree = d.after →
        (∀ x, s.dereferenceAfter x = .ok (s.following.findSome? (·.dereference? x))) ∧
        (∀ p i, s.StandsAt p i → ∀ k, s.following[k]? = p.child? (i + 1 + k)) ∧
        (∀ c, c ∈ s.following ↔ ∃ p i j, s.StandsAt p i ∧ c.StandsAt p j ∧ i < j) ∧
        s.following.Nodup := by
  refine ⟨fun s hs => ?_, fun d hd => ⟨fun before after index hedit => ?_, fun s hs => ?_⟩⟩
  · obtain ⟨-, hforest⟩ := Tree.validate_eq_none_iff.mp hs
    exact ⟨Site.indexInParent_isOk hforest.toLinked,
      Site.indexInParent_eq_none_iff hforest.toLinked,
      fun i => Site.indexInParent_eq_some_iff hforest, Site.existsUnique_place hforest⟩
  · have hbefore := (FileDiff.tree_of_mem_edits hedit).1 before rfl
    obtain ⟨hvalidate, -⟩ := FileDiff.defect?_eq_none_iff.mp hd
    obtain ⟨hsize, hforest⟩ := Tree.validate_eq_none_iff.mp hvalidate
    rw [← hbefore] at hsize hforest
    rw [Chain.standard_classify_move (FileDiff.grounded_of_mem_edits hd hedit),
      argumentPropagated_sees_move_iff hforest hsize]
    refine and_congr_left fun _ => exists_congr fun call => exists_congr fun signature =>
      and_congr_right fun _ => ?_
    exact Site.standsAt_iff_forall hforest
  · obtain ⟨hbefore, hafter, -⟩ := FileDiff.defect?_eq_none_iff.mp hd
    have hvalidate : s.tree.validate = .ok none := by
      rcases hs with hs | hs
      · rw [hs, hbefore]
      · rw [hs, hafter]
    obtain ⟨-, hforest⟩ := Tree.validate_eq_none_iff.mp hvalidate
    exact ⟨Site.dereferenceAfter_eq hforest.toLinked,
      fun p i hstands => Site.getElem?_following hforest hstands,
      fun c => Site.mem_following_iff hforest, Site.nodup_following hforest⟩

/-- A call `f(x, y, x.g)` whose first argument was moved out of it, with its nodes in no order. -/
def callPlaces : FileDiff where
  before.nodes := #[{ kind := .fieldRead "g", parent := some ⟨3⟩, children := [⟨1⟩] },
    { kind := .variableRead "x", parent := some ⟨0⟩ },
    { kind := .variableRead "y", parent := some ⟨3⟩ },
    { kind := .invocation "f", children := [⟨4⟩, ⟨2⟩, ⟨0⟩] },
    { kind := .variableRead "x", parent := some ⟨3⟩ }]
  after.nodes := #[{ kind := .variableRead "y" }]
  operations := [.move ⟨2⟩ ⟨0⟩]

/-- The argument is child number 1 of the call, which is nobody's child, and is reported with this
number. Behind `x`, child number 0, come the argument and the field read, and there `x` is
dereferenced. -/
theorem positions_name_children_call :
    let call : Site := ⟨callPlaces.before, ⟨3⟩, by decide⟩
    let receiver : Site := ⟨callPlaces.before, ⟨4⟩, by decide⟩
    let argument : Site := ⟨callPlaces.before, ⟨2⟩, by decide⟩
    let moved : Site := ⟨callPlaces.after, ⟨0⟩, by decide⟩
    (argument.tree.validate = .ok none ∧ call.indexInParent = .ok none ∧
      argument.indexInParent = .ok (some 1) ∧ argument.StandsAt call 1 ∧
      ∃! place : Site × ℕ, place.1.child? place.2 = some argument) ∧
    (callPlaces.defect? = none ∧ .move argument moved ∈ callPlaces.edits ∧
      Chain.standard.classify (.move argument moved) = .ok (some (.argumentPropagated 1)) ∧
      ∀ i, call.child? i = some argument ↔ i = 1) ∧
    receiver.following[0]? = some argument ∧ receiver.following.Nodup ∧
      receiver.dereferenceAfter receiver = .ok (some (.fieldRead "g")) := by
  intro call receiver argument moved
  obtain ⟨htrees, hdiffs⟩ := positions_name_children
  have hdefect : callPlaces.defect? = none := by decide +kernel
  have hvalidate : argument.tree.validate = .ok none := by decide +kernel
  have hedit : .move argument moved ∈ callPlaces.edits := List.mem_singleton.mpr rfl
  -- what the trees tell
  obtain ⟨-, hroot, -⟩ := htrees call hvalidate
  obtain ⟨-, -, hposition, hunique⟩ := htrees argument hvalidate
  have hargument : argument.StandsAt call 1 := ⟨rfl, rfl⟩
  have hreceiver : receiver.StandsAt call 0 := ⟨rfl, rfl⟩
  -- what the compared file tells
  obtain ⟨hmoves, hsearches⟩ := hdiffs callPlaces hdefect
  have hrule : Chain.standard.classify (.move argument moved) =
      .ok (some (.argumentPropagated 1)) := by decide +kernel
  obtain ⟨⟨call', signature, -, hcall, hplace⟩, -⟩ := (hmoves _ _ _ hedit).mp hrule
  obtain rfl : call' = call := Option.some.inj (hcall.symm.trans hargument.1)
  obtain ⟨hsearch, hfollowing, -, hnodup⟩ := hsearches receiver (.inl rfl)
  refine ⟨⟨hvalidate, hroot.mpr rfl, (hposition 1).mpr ⟨call, hargument⟩, hargument,
    hunique (by decide)⟩, ⟨hdefect, hedit, hrule, fun i => ?_⟩, ?_, hnodup, ?_⟩
  · rw [hplace, and_iff_right rfl]
    rfl
  · exact (hfollowing call 0 hreceiver 0).trans hargument.2
  · rw [hsearch]
    decide +kernel

end EditIdioms
