import EditIdioms.Proofs.Lists
import EditIdioms.Proofs.Tiers
import Mathlib.Data.List.Rotate

set_option relaxedAutoImplicit false
set_option autoImplicit false

/-!
# Which refiners a rule concerns

The refiners are tried one after the other, and the first one that applies decides. What a rule
carries leaves one of them that can apply, or none. Only where a comparison gains or loses its
boundary two do, the refiner for boundaries and the one for comparisons at large. So the refiners
narrow all rules alike in every order in which the first of these stands before the second, and in
no other.

## Main definitions

* `Refiner.Applies` — the refiner has a specialized rule to give.
* `boundaryShifts` — the four rules to which two refiners apply.
* `Rule.refineBy?` — refining with other refiners, or in another order.
* `Rule.refiners` — the refiners that a rule may concern.

## Main results

* `Rule.mem_refiners` — a refiner that applies is one of those a rule may concern.
* `Rule.refineBy?_eq` — refiners that do not apply do not matter.
* `Rule.refining_is_unambiguous` — two refiners apply to the shifts of a boundary only, and just
  their order matters.
-/

namespace EditIdioms

open EditIdioms.Refiner

variable {f : Refiner} {registry : List Refiner} {r : Rule} {src dst : BinaryOperator}

/-! ## Operators -/

/-- A comparison is no arithmetic operator. -/
lemma BinaryOperator.not_isArithmetic {op : BinaryOperator} (h : op.isComparison = true) :
    ¬ op.isArithmetic = true := by
  cases op <;> first | exact Bool.false_ne_true | cases h

/-- An operator with a negation is a comparison. -/
lemma BinaryOperator.isComparison_of_negation? {op neg : BinaryOperator}
    (h : op.negation? = some neg) : op.isComparison = true := by
  rw [← op.isSome_negation?, h, Option.isSome_some]

/-- The rules for comparisons that differ in the boundary alone. -/
def boundaryShifts : List Rule :=
  [.binaryOperatorReplaced .lessEqual .lessThan, .binaryOperatorReplaced .lessThan .lessEqual,
    .binaryOperatorReplaced .greaterEqual .greaterThan,
    .binaryOperatorReplaced .greaterThan .greaterEqual]

/-- A boundary shift is one of these rules. -/
lemma mem_boundaryShifts (h : isBoundaryShift src dst = true) :
    .binaryOperatorReplaced src dst ∈ boundaryShifts := by
  unfold isBoundaryShift at h
  split at h
  · simp [boundaryShifts]
  · simp [boundaryShifts]
  · simp [boundaryShifts]
  · simp [boundaryShifts]
  · cases h

/-! ## Refiners that apply -/

namespace Refiner

/-- The refiner has a specialized rule to give. -/
def Applies (f : Refiner) (r : Rule) : Prop := (f.narrow? r).isSome = true

instance (f : Refiner) (r : Rule) : Decidable (f.Applies r) :=
  inferInstanceAs (Decidable (_ = true))

/-- A refiner with a condition applies if the condition holds. -/
lemma applies_when_iff {name : String} {result : Rule} {applies : Rule → Bool} :
    (Refiner.when name result applies).Applies r ↔ applies r = true := by
  unfold Applies when
  cases h : applies r <;> simp [h]

/-- To the shifts of a boundary two refiners apply. -/
lemma applies_of_mem_boundaryShifts : ∀ r ∈ boundaryShifts,
    conditionalBoundary.Applies r ∧ relationalOperatorReplaced.Applies r := by
  decide

/-- The refiners are eight different ones, as their names show. -/
lemma nodup_standard : Refiner.standard.Nodup := by
  have hnames : (Refiner.standard.map (·.name)).Nodup := by decide
  exact hnames.of_map

end Refiner

/-! ## The refiners that a rule may concern -/

namespace Rule

/-- The refiners that a rule may concern, by its payload. -/
def refiners : Rule → List Refiner
  | conditionalNegated => [Refiner.negatedConditional]
  | binaryOperatorReplaced src dst =>
    if src.isArithmetic then [Refiner.arithmeticOperatorReplaced]
    else if src.negation? = some dst then [Refiner.negatedConditional]
    else if isBoundaryShift src dst then
      [Refiner.conditionalBoundary, Refiner.relationalOperatorReplaced]
    else [Refiner.relationalOperatorReplaced]
  | binaryOperatorDeleted _ => [Refiner.arithmeticOperatorDeleted]
  | literalReplaced _ (some _) => [Refiner.inlineConstant]
  | literalReplaced _ none => [Refiner.invertNegatives]
  | argumentPropagated _ => [Refiner.nakedReceiver]
  | _ => []

/-- A rule concerns no refiner, one of them, or the two for the shifts of a boundary. -/
lemma refiners_cases (r : Rule) : r.refiners = [] ∨
    (∃ f ∈ Refiner.standard, r.refiners = [f]) ∨
      r ∈ boundaryShifts ∧
        r.refiners = [Refiner.conditionalBoundary, Refiner.relationalOperatorReplaced] := by
  unfold refiners
  split
  · exact .inr (.inl ⟨_, by simp [Refiner.standard], rfl⟩)
  · split_ifs with harithmetic hnegation hshift
    · exact .inr (.inl ⟨_, by simp [Refiner.standard], rfl⟩)
    · exact .inr (.inl ⟨_, by simp [Refiner.standard], rfl⟩)
    · exact .inr (.inr ⟨mem_boundaryShifts hshift, rfl⟩)
    · exact .inr (.inl ⟨_, by simp [Refiner.standard], rfl⟩)
  · exact .inr (.inl ⟨_, by simp [Refiner.standard], rfl⟩)
  · exact .inr (.inl ⟨_, by simp [Refiner.standard], rfl⟩)
  · exact .inr (.inl ⟨_, by simp [Refiner.standard], rfl⟩)
  · exact .inr (.inl ⟨_, by simp [Refiner.standard], rfl⟩)
  · exact .inl rfl

/-- They stand in a registry if the two for the shifts of a boundary stand in their order there. -/
lemma refiners_sublist (hperm : registry.Perm Refiner.standard)
    (horder : [Refiner.conditionalBoundary, Refiner.relationalOperatorReplaced].Sublist registry)
    (r : Rule) : r.refiners.Sublist registry := by
  rcases r.refiners_cases with hnone | ⟨f, hf, hone⟩ | ⟨-, htwo⟩
  · rw [hnone]
    exact List.nil_sublist _
  · rw [hone]
    exact List.singleton_sublist.mpr (hperm.mem_iff.mpr hf)
  · rw [htwo]
    exact horder

/-- In the registry that is used they do. -/
lemma refiners_sublist_standard (r : Rule) : r.refiners.Sublist Refiner.standard :=
  refiners_sublist (List.Perm.refl _)
    (.cons _ (.cons _ (.cons_cons _ (.cons _ (.cons_cons _ (List.nil_sublist _)))))) r

/-- To the shifts of a boundary these are two. -/
lemma refiners_of_mem_boundaryShifts (h : r ∈ boundaryShifts) :
    r.refiners = [Refiner.conditionalBoundary, Refiner.relationalOperatorReplaced] := by
  simp only [boundaryShifts, List.mem_cons, List.not_mem_nil, or_false] at h
  rcases h with rfl | rfl | rfl | rfl <;> rfl

/-- **A refiner that applies** is one of those a rule may concern.

**Proof sketch.** Each of the eight standard refiners is taken on its own. When it applies, its
condition says what the rule is, and the list of that rule is looked up: it has one refiner for all
rules but a replaced operator. There the shifts of a boundary come before the other comparisons, and
the arithmetic operators and the negations are told apart from both, because they are not
comparisons or are excluded by the condition. -/
lemma mem_refiners (hf : f ∈ Refiner.standard) (happlies : f.Applies r) : f ∈ r.refiners := by
  simp only [Refiner.standard, List.mem_cons, List.not_mem_nil, or_false] at hf
  rcases hf with rfl | rfl | rfl | rfl | rfl | rfl | rfl | rfl <;>
    have h := Refiner.applies_when_iff.mp happlies <;> split at h
  -- Only for an operator that gave way to another one more than one refiner is in question.
  all_goals first | cases h; done | exact List.mem_singleton_self _ | skip
  · rw [refiners, if_pos (Bool.and_eq_true_iff.mp h).1]
    exact List.mem_singleton_self _
  · rw [refiners_of_mem_boundaryShifts (mem_boundaryShifts h)]
    exact List.mem_cons_self
  · have hnegation := eq_of_beq h
    have hcomparison := BinaryOperator.isComparison_of_negation? hnegation
    rw [refiners, if_neg (BinaryOperator.not_isArithmetic hcomparison), if_pos hnegation]
    exact List.mem_singleton_self _
  · obtain ⟨hcomparisons, hnegation⟩ := Bool.and_eq_true_iff.mp h
    have hcomparison := (Bool.and_eq_true_iff.mp hcomparisons).1
    rw [refiners, if_neg (BinaryOperator.not_isArithmetic hcomparison),
      if_neg (bne_iff_ne.mp hnegation)]
    split_ifs
    · exact List.mem_cons_of_mem _ List.mem_cons_self
    · exact List.mem_singleton_self _

/-- **Two refiners that apply** are the two for the shifts of a boundary.

**Proof sketch.** Two refiners that apply to a rule are both among those it may concern
(`mem_refiners`), in the same order. There are two of these only for the shifts of a boundary
(`refiners_cases`), and to those shifts both apply. -/
lemma pairwise_applies (r : Rule) : Refiner.standard.Pairwise fun f g =>
    f.Applies r ∧ g.Applies r ↔
      f = Refiner.conditionalBoundary ∧ g = Refiner.relationalOperatorReplaced ∧
        r ∈ boundaryShifts := by
  refine (pairwise_of_sublist r.refiners_sublist_standard Refiner.nodup_standard).imp_of_mem
    fun {f g} hf hg hpair => ?_
  constructor
  · rintro ⟨hfirst, hsecond⟩
    have hsub := hpair (mem_refiners hf hfirst) (mem_refiners hg hsecond)
    rcases r.refiners_cases with hnone | ⟨one, -, hone⟩ | ⟨hshift, htwo⟩
    · rw [hnone] at hsub
      exact absurd hsub.length_le (by simp)
    · rw [hone] at hsub
      exact absurd hsub.length_le (by simp)
    · rw [htwo] at hsub
      cases hsub.eq_of_length rfl
      exact ⟨rfl, rfl, hshift⟩
  · rintro ⟨rfl, rfl, hshift⟩
    exact Refiner.applies_of_mem_boundaryShifts r hshift

/-! ## Other orders -/

/-- Refining with the refiners of a registry. -/
def refineBy? (registry : List Refiner) (base : Rule) : Option Rule :=
  match base.tier with
  | .specialized => none
  | .base => registry.findSome? (·.narrow? base)

/-- The registry that is used has the refiners in their order. -/
lemma refineBy?_standard (r : Rule) : r.refineBy? Refiner.standard = r.refine? := rfl

/-- A specialized rule is not refined. -/
lemma refine?_of_specialized (h : r.tier = .specialized) : r.refine? = none := by
  rw [refine?, h]

/-- **Refiners that do not apply do not matter.** Of the refiners in a registry only some have to be
asked, if all that apply to the rule are among them. -/
lemma refineBy?_eq {few : List Refiner} (hperm : registry.Perm Refiner.standard)
    (hsub : few.Sublist registry) (hfew : ∀ f ∈ r.refiners, f ∈ few) :
    r.refineBy? registry = r.refineBy? few := by
  unfold refineBy?
  rw [findSome?_eq_of_sublist hsub (hperm.nodup_iff.mpr Refiner.nodup_standard) fun f hf s hs => ?_]
  have happlies : f.Applies r := by rw [Refiner.Applies, hs, Option.isSome_some]
  exact hfew f (mem_refiners (hperm.mem_iff.mp hf) happlies)

/-- **The order of the two refiners for the shifts of a boundary** is all that matters.

**Proof sketch.** The list with both refiners has one of them first. If that is the one for
comparisons at large, the shift from `<` to `<=` goes to it and not to the one for boundaries, so
such a list refines otherwise. If it is the one for boundaries, the refiners a rule may concern
stand in the same order in the list as in the standard one (`refiners_sublist`), and the first that
applies is the same (`refineBy?_eq`). -/
lemma refineBy?_eq_refine?_iff (hperm : registry.Perm Refiner.standard) :
    (∀ r : Rule, r.refineBy? registry = r.refine?) ↔
      [Refiner.conditionalBoundary, Refiner.relationalOperatorReplaced].Sublist registry := by
  constructor
  · intro h
    have hboundary : Refiner.conditionalBoundary ∈ registry :=
      hperm.mem_iff.mpr (by simp [Refiner.standard])
    have hrelational : Refiner.relationalOperatorReplaced ∈ registry :=
      hperm.mem_iff.mpr (by simp [Refiner.standard])
    have hne : Refiner.conditionalBoundary ≠ Refiner.relationalOperatorReplaced := fun heq =>
      absurd (congrArg Refiner.name heq) (by decide)
    refine (pair_sublist_or hboundary hrelational hne).resolve_right fun hsub => ?_
    -- In the other order the refiner for comparisons at large takes the shift from `<` to `<=`.
    let shift : Rule := .binaryOperatorReplaced .lessThan .lessEqual
    have hfew : ∀ f ∈ shift.refiners,
        f ∈ [Refiner.relationalOperatorReplaced, Refiner.conditionalBoundary] :=
      List.forall_mem_cons.mpr ⟨List.mem_cons_of_mem _ List.mem_cons_self,
        List.forall_mem_singleton.mpr List.mem_cons_self⟩
    have hother := refineBy?_eq hperm hsub hfew
    rw [h] at hother
    cases hother
  · intro horder r
    rw [refineBy?_eq hperm (refiners_sublist hperm horder r) fun f hf => hf, ← refineBy?_standard,
      refineBy?_eq (List.Perm.refl _) r.refiners_sublist_standard fun f hf => hf]

/-- **Refining is unambiguous**, up to the shifts of a boundary. A specialized rule is not refined,
and what a rule is refined to is a specialized rule, so refining twice gives nothing. Of two
refiners at most one applies to a rule, except that the refiner for boundaries and the one for
comparisons at large do so for the four shifts of a boundary, and for these both do. So a registry
with the same refiners in another order narrows all rules alike if the first of these two stands
before the second, and only then.

**Proof sketch.** Refiners that apply are among those the rule may concern (`mem_refiners`), which
are none, one, or the two. If the two stand in their order in a registry, those the rule may concern
stand in theirs, and the refiners outside have nothing to give (`findSome?_eq_of_sublist`). -/
theorem refining_is_unambiguous :
    (∀ r : Rule, (r.tier = .specialized → r.refine? = none) ∧
      (∀ special : Rule, r.refine? = some special → special.tier = .specialized) ∧
        r.refine?.bind refine? = none) ∧
    (∀ r : Rule, Refiner.standard.Pairwise fun f g =>
      f.Applies r ∧ g.Applies r ↔
        f = Refiner.conditionalBoundary ∧ g = Refiner.relationalOperatorReplaced ∧
          r ∈ boundaryShifts) ∧
    ∀ registry : List Refiner, registry.Perm Refiner.standard →
      ((∀ r : Rule, r.refineBy? registry = r.refine?) ↔
        [Refiner.conditionalBoundary, Refiner.relationalOperatorReplaced].Sublist registry) := by
  refine ⟨fun r => ⟨refine?_of_specialized, fun _ => tier_of_refine?, ?_⟩, pairwise_applies,
    fun registry => refineBy?_eq_refine?_iff⟩
  cases h : r.refine? with
  | none => rfl
  | some special => exact refine?_of_specialized (tier_of_refine? h)

/-- The last three refiners may be tried first. In the reversed registry the shift from `<` to `<=`
is a comparison that gave way to another one. -/
theorem refining_is_unambiguous_turned :
    (Refiner.standard.rotate 5).Perm Refiner.standard ∧
      (∀ r : Rule, r.refineBy? (Refiner.standard.rotate 5) = r.refine?) ∧
      Refiner.standard.reverse.Perm Refiner.standard ∧
      ¬ ∀ r : Rule, r.refineBy? Refiner.standard.reverse = r.refine? := by
  obtain ⟨-, -, horder⟩ := refining_is_unambiguous
  have hrotate := List.rotate_perm Refiner.standard 5
  have hreverse := List.reverse_perm Refiner.standard
  refine ⟨hrotate, (horder _ hrotate).mpr ?_, hreverse, fun h => ?_⟩
  · exact .cons _ (.cons _ (.cons _ (.cons _ (.cons _ (.cons_cons _ (.cons _ (.cons_cons _
      (List.nil_sublist _))))))))
  · exact absurd (((horder _ hreverse).mp h).map (·.name)) (by decide)

end Rule

end EditIdioms
