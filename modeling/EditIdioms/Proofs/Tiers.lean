import EditIdioms.Detector.Standard
import EditIdioms.Proofs.Execution
import EditIdioms.Refinement
import Mathlib.Tactic.SplitIfs

set_option relaxedAutoImplicit false
set_option autoImplicit false

/-!
# Where rules of the two tiers come from

Detectors find base rules, and only refining gives specialized ones. Every refiner has one rule to
give, so it is enough to look at eight rules.

## Main definitions

* `Detector.FindsBase` — a detector that finds base rules only.

## Main results

* `Chain.tier_of_standard_classify` — what the standard chain finds is a base rule.
* `Rule.tier_of_refine?` — what a rule is refined to is a specialized rule.
-/

namespace EditIdioms

/-! ## Detectors -/

namespace Detector

/-- Every rule that the detector finds is a base rule. -/
def FindsBase (d : Detector) : Prop :=
  ∀ {edit : Edit Site} {rule : Rule}, d.recognise edit = .ok (some rule) → rule.tier = .base

/-- A detector for inserted nodes finds base rules if looking at a node does. -/
lemma onInsert_findsBase {name : String} {r : Site → Except ArenaFault (Option Rule)}
    (h : ∀ {node : Site} {rule : Rule}, r node = .ok (some rule) → rule.tier = .base) :
    (onInsert name r).FindsBase := by
  intro edit rule hrule
  cases edit with
  | insert node => exact h hrule
  | delete node => cases hrule
  | update before after => cases hrule
  | move before after => cases hrule

/-- A detector for deleted nodes finds base rules if looking at a node does. -/
lemma onDelete_findsBase {name : String} {r : Site → Except ArenaFault (Option Rule)}
    (h : ∀ {node : Site} {rule : Rule}, r node = .ok (some rule) → rule.tier = .base) :
    (onDelete name r).FindsBase := by
  intro edit rule hrule
  cases edit with
  | insert node => cases hrule
  | delete node => exact h hrule
  | update before after => cases hrule
  | move before after => cases hrule

/-- A detector for pairs of nodes finds base rules if looking at two nodes does. -/
lemma onPair_findsBase {name : String} {kind : EditKind}
    {r : Site → Site → Except ArenaFault (Option Rule)}
    (h : ∀ {before after : Site} {rule : Rule}, r before after = .ok (some rule) →
      rule.tier = .base) :
    (onPair name kind r).FindsBase := by
  intro edit rule hrule
  cases edit with
  | insert node => cases hrule
  | delete node => cases hrule
  | update before after => exact h hrule
  | move before after => exact h hrule

end Detector

/-- The rule for a guard is a base rule. -/
lemma Dereference.tier_guardRule (d : Dereference) : d.guardRule.tier = .base := by
  cases d <;> rfl

/-- The standard detectors find base rules.

**Proof sketch.** Each of the eight detectors is taken on its own. A detector looks at an inserted
or deleted node or at a pair of nodes, and is done with if the node does not have the form it looks
for; otherwise the rule it gives is written in its definition, or is the rule of the guard it has
found, and is a base rule either way. -/
lemma Chain.standard_findsBase : ∀ d ∈ Chain.standard, d.FindsBase := by
  intro d hd
  simp only [Chain.standard, List.mem_cons, List.not_mem_nil, or_false] at hd
  rcases hd with rfl | rfl | rfl | rfl | rfl | rfl | rfl | rfl
  · refine Detector.onInsert_findsBase fun {node rule} hrule => ?_
    dsimp only at hrule
    split_ifs at hrule
    · split at hrule <;> cases hrule <;> rfl
    · cases hrule
  · refine Detector.onInsert_findsBase fun {node rule} hrule => ?_
    obtain ⟨parameter, -, rfl⟩ := Option.map_eq_some_iff.mp (Except.ok.inj hrule)
    rfl
  · refine Detector.onInsert_findsBase fun {node rule} hrule => ?_
    split at hrule
    · cases hrule
    · rename_i guard _
      obtain ⟨found?, -, hfound⟩ := exists_of_bind_eq_ok hrule
      obtain ⟨found, -, rfl⟩ := Option.map_eq_some_iff.mp (Except.ok.inj hfound)
      exact found.tier_guardRule
  · refine Detector.onInsert_findsBase fun {node rule} hrule => ?_
    split_ifs at hrule
    · obtain ⟨index?, -, hindex⟩ := exists_of_bind_eq_ok hrule
      split_ifs at hindex <;> cases hindex
      rfl
    · cases hrule
  · refine Detector.onPair_findsBase fun {before after rule} hrule => ?_
    split at hrule
    · split_ifs at hrule <;> cases hrule
      rfl
    · cases hrule
  · refine Detector.onDelete_findsBase fun {node rule} hrule => ?_
    split at hrule <;> cases hrule
    rfl
  · refine Detector.onPair_findsBase fun {before after rule} hrule => ?_
    split at hrule
    · split_ifs at hrule <;> cases hrule
      rfl
    · cases hrule
      rfl
    · cases hrule
  · refine Detector.onPair_findsBase fun {before after rule} hrule => ?_
    dsimp only at hrule
    split_ifs at hrule
    · obtain ⟨index?, -, hindex⟩ := exists_of_bind_eq_ok hrule
      obtain ⟨index, -, rfl⟩ := Option.map_eq_some_iff.mp (Except.ok.inj hindex)
      rfl
    · cases hrule

/-- A chain of detectors that find base rules finds base rules. -/
lemma Chain.tier_of_classify {chain : Chain} (hchain : ∀ d ∈ chain, d.FindsBase)
    {edit : Edit Site} {rule : Rule} (h : chain.classify edit = .ok (some rule)) :
    rule.tier = .base := by
  induction chain with
  | nil => cases h
  | cons d chain ih =>
    have hrest := ih fun d' hd' => hchain d' (List.mem_cons_of_mem _ hd')
    unfold classify at h
    split_ifs at h with haccepts
    · split at h
      · exact hrest h
      · rename_i hrule
        cases h
        exact hchain d List.mem_cons_self hrule
      · cases h
    · exact hrest h

/-- **What the standard chain finds** is a base rule. -/
lemma Chain.tier_of_standard_classify {edit : Edit Site} {rule : Rule}
    (h : standard.classify edit = .ok (some rule)) : rule.tier = .base :=
  tier_of_classify standard_findsBase h

/-! ## Refiners -/

/-- A refiner with one rule to give gives this rule. -/
lemma Refiner.eq_of_when {name : String} {result rule special : Rule} {applies : Rule → Bool}
    (h : (Refiner.when name result applies).narrow? rule = some special) : special = result := by
  unfold when at h
  dsimp only at h
  split_ifs at h
  exact (Option.some.inj h).symm

/-- **What a rule is refined to** is a specialized rule. -/
lemma Rule.tier_of_refine? {rule special : Rule} (h : rule.refine? = some special) :
    special.tier = .specialized := by
  unfold refine? at h
  cases htier : rule.tier with
  | specialized =>
    rw [htier] at h
    cases h
  | base =>
    rw [htier] at h
    obtain ⟨refiner, hmem, hnarrow⟩ := List.exists_of_findSome?_eq_some h
    simp only [Refiner.standard, List.mem_cons, List.not_mem_nil, or_false] at hmem
    rcases hmem with rfl | rfl | rfl | rfl | rfl | rfl | rfl | rfl <;>
      exact Refiner.eq_of_when hnarrow ▸ rfl

end EditIdioms
