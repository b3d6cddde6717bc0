import EditIdioms.Proofs.Detector.Chain

set_option relaxedAutoImplicit false
set_option autoImplicit false

/-!
# What the standard chain says of an inserted `if`

An inserted `if` may protect a parameter, and it may guard a dereference; it may also do both, and
then the chain says that it protects the parameter, since that guard is asked first. The chain gives
no other rule for it, and gives one whenever it does either. What it means to do either does not
mention the searches: a branch returns if a `return` is in sight, and a dereference is guarded if it
is in sight where execution goes on.

## Main definitions

* `InsertedIf.GuardsDereference` — a dereference is in sight where execution goes on.
* `InsertedIf.FirstGuarded` — the one that the rule names.

## Main results

* `standard_classify_eq_some_iff` — the rules that the chain gives for an `if` with known parts.
* `Chain.standard_decides_if` — the decision for an inserted `if`.
-/

namespace EditIdioms

variable {guard : InsertedIf} {rule : Rule}

/-! ## Rules of the guards -/

/-- The rules of the two guards are different. -/
lemma Dereference.guardRule_ne (found : Dereference) (parameter : String) :
    found.guardRule ≠ .preconditionGuardInserted parameter := by
  cases found <;> exact nofun

/-- The rule tells which dereference was guarded, be it a field or an invocation, and by which
name. -/
lemma Dereference.guardRule_injective : Function.Injective guardRule := by
  intro found found' h
  cases found <;> cases found' <;> cases h <;> rfl

namespace InsertedIf

/-- The `if` guards a dereference: one is in sight where execution goes on. -/
def GuardsDereference (guard : InsertedIf) : Prop :=
  ∃ x scopes, guard.Guards x scopes ∧
    ∃ scope ∈ scopes, ∃ e ∈ scope.inSight, ∃ found, e.Dereferences x found

/-- Where execution goes on, `found` is the first dereference of the tested expression. -/
def FirstGuarded (guard : InsertedIf) (found : Dereference) : Prop :=
  ∃ x scopes, guard.Guards x scopes ∧ Site.FirstDereference scopes x found

/-- There is a first dereference if there is one. -/
lemma exists_firstGuarded_iff (hfits : guard.Fits) (hnode : guard.node.tree.Grounded) :
    (∃ found, guard.FirstGuarded found) ↔ guard.GuardsDereference := by
  constructor
  · rintro ⟨found, x, scopes, hguards, hfirst⟩
    exact ⟨x, scopes, hguards,
      (Site.exists_firstDereference_iff (hguards.grounded hfits hnode)).mp ⟨found, hfirst⟩⟩
  · rintro ⟨x, scopes, hguards, hscope⟩
    obtain ⟨found, hfirst⟩ :=
      (Site.exists_firstDereference_iff (hguards.grounded hfits hnode)).mpr hscope
    exact ⟨found, x, scopes, hguards, hfirst⟩

/-- What the guard for a parameter says of an `if` with known parts. -/
lemma preconditionGuard_rule?_eq_some_iff (hfits : guard.Fits)
    (hgrounded : (Edit.insert guard.node).Grounded) :
    preconditionGuard.rule? (.insert guard.node) = some rule ↔
      ∃ parameter, guard.ProtectsParameter parameter ∧
        rule = .preconditionGuardInserted parameter := by
  rw [Detector.rule?_eq_some_iff, preconditionGuard_sees_iff hgrounded]
  constructor
  · rintro ⟨guard', parameter, hedit, hfits', hprotects, rfl⟩
    obtain rfl := hfits.unique hfits' (Edit.insert.inj hedit)
    exact ⟨parameter, hprotects, rfl⟩
  · rintro ⟨parameter, hprotects, rfl⟩
    exact ⟨guard, parameter, rfl, hfits, hprotects, rfl⟩

/-- What the guard for a dereference says of an `if` with known parts. -/
lemma nullDereferenceGuard_rule?_eq_some_iff (hfits : guard.Fits)
    (hgrounded : (Edit.insert guard.node).Grounded) :
    nullDereferenceGuard.rule? (.insert guard.node) = some rule ↔
      ∃ found, guard.FirstGuarded found ∧ rule = found.guardRule := by
  rw [Detector.rule?_eq_some_iff, nullDereferenceGuard_sees_iff hgrounded]
  constructor
  · rintro ⟨guard', x, scopes, found, hedit, hfits', hguards, hfirst, rfl⟩
    obtain rfl := hfits.unique hfits' (Edit.insert.inj hedit)
    exact ⟨found, ⟨x, scopes, hguards, hfirst⟩, rfl⟩
  · rintro ⟨found, ⟨x, scopes, hguards, hfirst⟩, rfl⟩
    exact ⟨guard, x, scopes, found, rfl, hfits, hguards, hfirst, rfl⟩

/-- The rule of the standard chain: that of the guard for a parameter, else that of the guard for a
dereference.

**Proof sketch.** Of the standard chain only the two guards may concern an inserted `if`, and the
one for parameters comes first. So the rule is its answer if it has one, and the answer of the other
one if it has none, which is when no parameter is protected (`hnone`). -/
lemma standard_classify_eq_some_iff (hfits : guard.Fits)
    (hgrounded : (Edit.insert guard.node).Grounded) :
    ∃ rule?, Chain.standard.classify (.insert guard.node) = .ok rule? ∧
      ∀ rule, rule? = some rule ↔
        (∃ parameter, guard.ProtectsParameter parameter ∧
          rule = .preconditionGuardInserted parameter) ∨
        (∀ parameter, ¬ guard.ProtectsParameter parameter) ∧
          ∃ found, guard.FirstGuarded found ∧ rule = found.guardRule := by
  refine ⟨_, Chain.standard_classify_eq hgrounded, fun rule => ?_⟩
  have hexperts : (Edit.insert guard.node).experts = [preconditionGuard, nullDereferenceGuard] := by
    simp [Edit.experts, hfits.kind_eq]
  have hnone : preconditionGuard.rule? (.insert guard.node) = none ↔
      ∀ parameter, ¬ guard.ProtectsParameter parameter := by
    rw [Option.eq_none_iff_forall_ne_some]
    constructor
    · intro h parameter hprotects
      exact h (.preconditionGuardInserted parameter)
        ((preconditionGuard_rule?_eq_some_iff hfits hgrounded).mpr ⟨parameter, hprotects, rfl⟩)
    · intro h rule hrule
      obtain ⟨parameter, hprotects, -⟩ :=
        (preconditionGuard_rule?_eq_some_iff hfits hgrounded).mp hrule
      exact h parameter hprotects
  rw [hexperts, List.findSome?_cons, List.findSome?_singleton]
  rw [← preconditionGuard_rule?_eq_some_iff hfits hgrounded,
    ← nullDereferenceGuard_rule?_eq_some_iff hfits hgrounded, ← hnone]
  cases preconditionGuard.rule? (.insert guard.node) <;> simp

end InsertedIf

/-- **The decision for an inserted `if`.** The standard chain comes to an answer. It says that a
parameter is protected exactly if the `if` does that. Otherwise it says that a dereference is
guarded exactly if one is in sight where execution goes on, and then it names the first one:
siblings that follow come before the branch that does not return, and in each of them the order is
that of the walk. There is no other answer.

**Proof sketch.** An inserted `if` concerns the two guards only (`Chain.standard_classify_eq`), and
what they see is known (`preconditionGuard_sees_iff`, `nullDereferenceGuard_sees_iff`). -/
theorem Chain.standard_decides_if {d : FileDiff} (hd : d.defect? = none)
    (hedit : .insert guard.node ∈ d.edits) (hfits : guard.Fits) :
    ∃ rule?, standard.classify (.insert guard.node) = .ok rule? ∧
      (∀ parameter, rule? = some (.preconditionGuardInserted parameter) ↔
        guard.ProtectsParameter parameter) ∧
      ((∃ found : Dereference, rule? = some found.guardRule) ↔
        (∀ parameter, ¬ guard.ProtectsParameter parameter) ∧ guard.GuardsDereference) ∧
      (∀ found : Dereference, rule? = some found.guardRule ↔
        (∀ parameter, ¬ guard.ProtectsParameter parameter) ∧ guard.FirstGuarded found) ∧
      (rule? = none ↔
        (∀ parameter, ¬ guard.ProtectsParameter parameter) ∧ ¬ guard.GuardsDereference) := by
  have hgrounded := FileDiff.grounded_of_mem_edits hd hedit
  have hexists := InsertedIf.exists_firstGuarded_iff hfits (hgrounded.after rfl)
  obtain ⟨rule?, hclassify, hrule⟩ := InsertedIf.standard_classify_eq_some_iff hfits hgrounded
  have hfound : ∀ found : Dereference, rule? = some found.guardRule ↔
      (∀ parameter, ¬ guard.ProtectsParameter parameter) ∧ guard.FirstGuarded found := by
    intro found
    rw [hrule]
    constructor
    · rintro (⟨parameter, -, hsame⟩ | ⟨hnone, found', hfirst, hsame⟩)
      · exact absurd hsame (found.guardRule_ne parameter)
      · rw [Dereference.guardRule_injective hsame]
        exact ⟨hnone, hfirst⟩
    · rintro ⟨hnone, hfirst⟩
      exact .inr ⟨hnone, found, hfirst, rfl⟩
  refine ⟨rule?, hclassify, fun parameter => ?_, ?_, hfound, ?_⟩
  · rw [hrule]
    constructor
    · rintro (⟨parameter', hprotects, hsame⟩ | ⟨-, found, -, hsame⟩)
      · cases hsame
        exact hprotects
      · exact absurd hsame.symm (found.guardRule_ne parameter)
    · intro hprotects
      exact .inl ⟨parameter, hprotects, rfl⟩
  · rw [← hexists, ← exists_and_left]
    exact exists_congr hfound
  · rw [Option.eq_none_iff_forall_ne_some]
    constructor
    · intro hnone
      have hprotects : ∀ parameter, ¬ guard.ProtectsParameter parameter := fun parameter h =>
        hnone _ ((hrule _).mpr (.inl ⟨parameter, h, rfl⟩))
      refine ⟨hprotects, fun hguards => ?_⟩
      obtain ⟨found, hfirst⟩ := hexists.mpr hguards
      exact hnone _ ((hfound found).mpr ⟨hprotects, hfirst⟩)
    · rintro ⟨hprotects, hguards⟩ rule hsome
      rcases (hrule rule).mp hsome with ⟨parameter, h, -⟩ | ⟨-, found, hfirst, -⟩
      · exact hprotects parameter h
      · exact hguards (hexists.mp ⟨found, hfirst⟩)

/-- The guard in front of the field, taken apart. -/
def fieldGuard (parameters : List String) : InsertedIf where
  node := ⟨(guardedField parameters).after, ⟨2⟩, show 2 < 9 by decide⟩
  condition := ⟨(guardedField parameters).after, ⟨3⟩, show 3 < 9 by decide⟩
  thenBranch := ⟨(guardedField parameters).after, ⟨6⟩, show 6 < 9 by decide⟩
  elseBranch? := none

/-- The parts of the guard are the nodes that the tree has in their places. -/
lemma fieldGuard_fits (parameters : List String) : (fieldGuard parameters).Fits :=
  ⟨rfl, rfl, rfl, rfl⟩

/-- The guard is what was inserted. -/
lemma insert_fieldGuard_mem (parameters : List String) :
    .insert (fieldGuard parameters).node ∈ (guardedField parameters).edits :=
  List.mem_singleton.mpr rfl

/-- The guard protects a parameter; in a method without parameters it guards the field that is read
behind it. -/
theorem Chain.standard_decides_if_field :
    (fieldGuard ["x"]).ProtectsParameter "x" ∧
      (fieldGuard []).FirstGuarded (.fieldRead "f") := by
  constructor
  · have hd : (guardedField ["x"]).defect? = none := by decide +kernel
    obtain ⟨rule?, hclassify, hparameter, -⟩ :=
      standard_decides_if hd (insert_fieldGuard_mem _) (fieldGuard_fits _)
    have hrule : standard.classify (.insert (fieldGuard ["x"]).node) =
        .ok (some (.preconditionGuardInserted "x")) := by
      decide +kernel
    exact (hparameter "x").mp (Except.ok.inj (hclassify.symm.trans hrule))
  · have hd : (guardedField []).defect? = none := by decide +kernel
    obtain ⟨rule?, hclassify, -, -, hfound, -⟩ :=
      standard_decides_if hd (insert_fieldGuard_mem _) (fieldGuard_fits _)
    have hrule : standard.classify (.insert (fieldGuard []).node) =
        .ok (some (.nullGuardBeforeFieldRead "f")) := by
      decide +kernel
    exact ((hfound (.fieldRead "f")).mp (Except.ok.inj (hclassify.symm.trans hrule))).2

end EditIdioms
