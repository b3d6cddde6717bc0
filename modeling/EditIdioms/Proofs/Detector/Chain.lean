import EditIdioms.Proofs.Detector.Standard
import EditIdioms.Proofs.Lists
import Mathlib.Data.List.Rotate

set_option relaxedAutoImplicit false
set_option autoImplicit false

/-!
# Which detectors an edit concerns

A chain asks its detectors one after the other, and the first one that sees a rule ends the search.
What kind of edit it is, and what kind of node it changes, leaves one of the standard detectors that
can see a rule, or none. Only an inserted `if` leaves two, the guards, and both may see a rule in
it. So a chain of the standard detectors gives the same answer in every order that leaves the guards
as they are.

## Main definitions

* `Detector.rule?` — the rule a detector sees, as a function that leaves faults out.
* `Edit.experts` — the detectors that an edit may concern.

## Main results

* `Chain.classify_eq` — a chain without faults gives the first rule.
* `mem_experts` — a standard detector that recognises an edit is one of those it may concern.
* `Chain.classify_eq_experts`, `Chain.standard_classify_eq` — a chain of the standard detectors asks
  just those.
* `Chain.order_matters_for_guards` — the order of the detectors matters for the guards only.
-/

namespace EditIdioms

variable {edit : Edit Site} {rule : Rule} {chain : Chain}

/-! ## The first rule -/

/-- The rule that the detector sees, if it is asked and there is no fault. -/
def Detector.rule? (d : Detector) (edit : Edit Site) : Option Rule :=
  if d.accepts edit.kind then (d.recognise edit).toOption.join else none

/-- This is the rule it sees. -/
lemma Detector.rule?_eq_some_iff {d : Detector} : d.rule? edit = some rule ↔ d.Sees edit rule := by
  unfold rule? Sees
  cases d.accepts edit.kind with
  | false => simp
  | true =>
    cases d.recognise edit with
    | error fault => simp [Except.toOption]
    | ok rule? => simp [Except.toOption]

/-- A chain without faults gives the first rule that one of its detectors sees. -/
lemma Chain.classify_eq (h : ∀ d ∈ chain, ∃ rule?, d.recognise edit = .ok rule?) :
    chain.classify edit = .ok (chain.findSome? (·.rule? edit)) := by
  induction chain with
  | nil => rfl
  | cons d chain ih =>
    have hrest := ih fun d' hd' => h d' (List.mem_cons_of_mem _ hd')
    obtain ⟨rule?, hrule⟩ := h d List.mem_cons_self
    rw [classify, List.findSome?_cons, Detector.rule?, hrule]
    cases d.accepts edit.kind with
    | false => exact hrest
    | true =>
      cases rule? with
      | none => exact hrest
      | some rule => rfl

/-! ## Experts -/

/-- The detectors that an edit may concern, by its kind and the kind of the node it changes. -/
def Edit.experts : Edit Site → Chain
  | insert node =>
    match node.kind with
    | .breakStatement | .returnStatement => [caseFallthrough]
    | .ifStatement => [preconditionGuard, nullDereferenceGuard]
    | .unary .not => [negatedCondition]
    | _ => []
  | delete _ => [operatorDeleted]
  | update before _ =>
    match before.kind with
    | .binary _ => [operatorReplaced]
    | .literal _ => [literalReplaced]
    | _ => []
  | move _ _ => [argumentPropagated]

/-- An edit concerns no detector, one of the standard chain, or the two guards. -/
lemma Edit.experts_cases (edit : Edit Site) : edit.experts = [] ∨
    (∃ d ∈ Chain.standard, edit.experts = [d]) ∨
      edit.experts = [preconditionGuard, nullDereferenceGuard] := by
  unfold experts
  split
  · split
    · exact .inr (.inl ⟨caseFallthrough, by simp [Chain.standard], rfl⟩)
    · exact .inr (.inl ⟨caseFallthrough, by simp [Chain.standard], rfl⟩)
    · exact .inr (.inr rfl)
    · exact .inr (.inl ⟨negatedCondition, by simp [Chain.standard], rfl⟩)
    · exact .inl rfl
  · exact .inr (.inl ⟨operatorDeleted, by simp [Chain.standard], rfl⟩)
  · split
    · exact .inr (.inl ⟨operatorReplaced, by simp [Chain.standard], rfl⟩)
    · exact .inr (.inl ⟨literalReplaced, by simp [Chain.standard], rfl⟩)
    · exact .inl rfl
  · exact .inr (.inl ⟨argumentPropagated, by simp [Chain.standard], rfl⟩)

/-- **A standard detector that recognises an edit** is one of those it may concern.

**Proof sketch.** One detector after the other. What it recognises tells which operation the edit is
and of which kind its node is, and these are what the experts of an edit are listed by. For a
literal that is updated, and for what is moved or deleted, the operation is enough. -/
lemma mem_experts (h : edit.Grounded) {d : Detector} (hd : d ∈ Chain.standard)
    (hsees : d.Sees edit rule) : d ∈ edit.experts := by
  simp only [Chain.standard, List.mem_cons, List.not_mem_nil, or_false] at hd
  rcases hd with rfl | rfl | rfl | rfl | rfl | rfl | rfl | rfl
  · obtain ⟨node, arm, rfl, -, -, ⟨hkind, -⟩ | ⟨hkind, -⟩⟩ := caseFallthrough_sees_iff.mp hsees
    · simp [Edit.experts, hkind]
    · simp [Edit.experts, hkind]
  · obtain ⟨guard, parameter, rfl, hfits, -⟩ := (preconditionGuard_sees_iff h).mp hsees
    simp [Edit.experts, hfits.kind_eq]
  · obtain ⟨guard, x, scopes, found, rfl, hfits, -⟩ := (nullDereferenceGuard_sees_iff h).mp hsees
    simp [Edit.experts, hfits.kind_eq]
  · obtain ⟨node, parent, rfl, hkind, -⟩ := negatedCondition_sees_iff.mp hsees
    simp [Edit.experts, hkind]
  · obtain ⟨before, after, src, dst, rfl, hkind, -⟩ := operatorReplaced_sees_iff.mp hsees
    simp [Edit.experts, hkind]
  · obtain ⟨node, op, rfl, -⟩ := operatorDeleted_sees_iff.mp hsees
    simp [Edit.experts]
  · obtain ⟨before, after, src, rfl, hkind, -⟩ := literalReplaced_sees_iff.mp hsees
    simp [Edit.experts, hkind]
  · obtain ⟨before, after, call, signature, position, rfl, -⟩ :=
      argumentPropagated_sees_iff.mp hsees
    simp [Edit.experts]

/-- The standard detectors are eight different ones, as their names show. -/
lemma Chain.nodup_standard : Chain.standard.Nodup := by
  have hnames : (Chain.standard.map (·.name)).Nodup := by decide
  exact hnames.of_map

/-- **A chain of the standard detectors** asks those that an edit may concern, if the guards are in
their order.

**Proof sketch.** No standard detector is a fault, so the chain gives the first rule that one of its
detectors sees (`Chain.classify_eq`). A detector that sees a rule is one of those the edit may
concern (`mem_experts`), and these stand in the chain in their order: there is none of them, one, or
the two guards. -/
lemma Chain.classify_eq_experts (h : edit.Grounded) (hperm : chain.Perm standard)
    (hguards : [preconditionGuard, nullDereferenceGuard].Sublist chain) :
    chain.classify edit = .ok (edit.experts.findSome? (·.rule? edit)) := by
  have hsub : edit.experts.Sublist chain := by
    rcases edit.experts_cases with hnone | ⟨d, hd, hone⟩ | htwo
    · rw [hnone]
      exact List.nil_sublist _
    · rw [hone]
      exact List.singleton_sublist.mpr (hperm.mem_iff.mpr hd)
    · rw [htwo]
      exact hguards
  rw [classify_eq fun d hd => standard_recognise edit d (hperm.mem_iff.mp hd),
    findSome?_eq_of_sublist hsub (hperm.nodup_iff.mpr nodup_standard) fun d hd rule hrule => ?_]
  exact mem_experts h (hperm.mem_iff.mp hd) (Detector.rule?_eq_some_iff.mp hrule)

/-- The standard chain asks the detectors that an edit may concern. -/
lemma Chain.standard_classify_eq (h : edit.Grounded) :
    standard.classify edit = .ok (edit.experts.findSome? (·.rule? edit)) :=
  classify_eq_experts h (List.Perm.refl _)
    (.cons _ (.cons_cons _ (.cons_cons _ (List.nil_sublist _))))

/-- **The order of the detectors matters for the guards only.** Of the standard detectors at most
one recognises an edit of a compared file without defects, except that the two guards may both do
so. So every chain of these detectors in which the guards are in their order gives the answer of the
standard chain.

**Proof sketch.** Detectors that recognise the edit are among those it may concern (`mem_experts`),
which are none, one, or the guards. A chain that has the guards in their order has those as a
sublist, and the detectors outside have no answer (`findSome?_eq_of_sublist`). -/
theorem Chain.order_matters_for_guards {d : FileDiff} (hd : d.defect? = none)
    (hedit : edit ∈ d.edits) :
    (standard.Pairwise fun a b => a.Recognises edit → b.Recognises edit →
      a = preconditionGuard ∧ b = nullDereferenceGuard) ∧
    ∀ chain : Chain, chain.Perm standard →
      [preconditionGuard, nullDereferenceGuard].Sublist chain →
        chain.classify edit = standard.classify edit := by
  have hgrounded := FileDiff.grounded_of_mem_edits hd hedit
  constructor
  · refine List.pairwise_iff_forall_sublist.mpr fun {a b} hsub ⟨rule, hrule⟩ ⟨rule', hrule'⟩ => ?_
    have hne : a ≠ b := by simpa using hsub.nodup nodup_standard
    have ha := mem_experts hgrounded (hsub.mem (by simp)) hrule
    have hb := mem_experts hgrounded (hsub.mem (by simp)) hrule'
    rcases edit.experts_cases with hnone | ⟨d, -, hone⟩ | htwo
    · rw [hnone] at ha
      cases ha
    · rw [hone, List.mem_singleton] at ha hb
      exact absurd (ha.trans hb.symm) hne
    · rw [htwo, List.mem_pair] at ha hb
      rcases ha with rfl | rfl <;> rcases hb with rfl | rfl
      · exact absurd rfl hne
      · exact ⟨rfl, rfl⟩
      · -- The guards do not stand in this order, as their names show.
        exact absurd (hsub.map (·.name)) (by decide)
      · exact absurd rfl hne
  · intro chain hperm hguards
    rw [classify_eq_experts hgrounded hperm hguards, standard_classify_eq hgrounded]

/-- A method in which a guard was inserted before a field is read: `if (x == null) return; x.f`. -/
def guardedField (parameters : List String) : FileDiff where
  before := {}
  after.nodes := #[{ kind := .method "m" parameters, children := [⟨1⟩] },
    { kind := .block, parent := some ⟨0⟩, children := [⟨2⟩, ⟨7⟩] },
    { kind := .ifStatement, parent := some ⟨1⟩, children := [⟨3⟩, ⟨6⟩] },
    { kind := .binary .equal, parent := some ⟨2⟩, children := [⟨4⟩, ⟨5⟩] },
    { kind := .variableRead "x", parent := some ⟨3⟩ },
    { kind := .literal .null, parent := some ⟨3⟩ },
    { kind := .returnStatement, parent := some ⟨2⟩ },
    { kind := .fieldRead "f", parent := some ⟨1⟩, children := [⟨8⟩] },
    { kind := .variableRead "x", parent := some ⟨7⟩ }]
  operations := [.insert ⟨2⟩]

/-- Both guards recognise an inserted `if`. The last detector may be asked first, but the guards may
not change places. -/
theorem Chain.order_matters_for_guards_both :
    let d := guardedField ["x"]
    let edit : Edit Site := .insert ⟨d.after, ⟨2⟩, by decide⟩
    (d.defect? = none ∧ edit ∈ d.edits) ∧
      preconditionGuard.Sees edit (.preconditionGuardInserted "x") ∧
      nullDereferenceGuard.Sees edit (.nullGuardBeforeFieldRead "f") ∧
      Chain.classify (standard.rotate 7) edit = standard.classify edit ∧
      Chain.classify [nullDereferenceGuard, preconditionGuard] edit ≠
        Chain.classify [preconditionGuard, nullDereferenceGuard] edit := by
  intro d edit
  have hd : d.defect? = none := by decide +kernel
  have hedit : edit ∈ d.edits := List.mem_singleton.mpr rfl
  refine ⟨⟨hd, hedit⟩, by decide +kernel, by decide +kernel, ?_, by decide +kernel⟩
  refine (order_matters_for_guards hd hedit).2 _ (List.rotate_perm _ _) ?_
  exact .cons _ (.cons _ (.cons_cons _ (.cons_cons _ (List.nil_sublist _))))

end EditIdioms
