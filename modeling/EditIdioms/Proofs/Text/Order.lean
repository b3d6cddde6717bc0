import EditIdioms.Files.Path
import Mathlib.Tactic.Lemma

set_option relaxedAutoImplicit false
set_option autoImplicit false

/-!
# Orders in which lists and texts are sorted

The order by the first place where lists differ is total, and it is transitive and antisymmetric if
what comes strictly before is told by an order that is total, transitive and antisymmetric itself.
So are therefore the order of texts by their characters, and that of lists of names. Paths are
ordered as the lists of their components; different paths may have the same components.

## Main definitions

* `Path.namesAtMost` — the order of lists of names.

## Main results

* `lexAtMost_total`, `lexAtMost_trans`, `lexAtMost_antisymm` — lists by the first place where they
  differ.
* `lexAtMost_append_left` — what lists have in common in front does not count.
* `Text.atMost_total`, `Text.atMost_trans`, `Text.atMost_antisymm` — texts.
* `Path.namesAtMost_total`, `Path.namesAtMost_trans`, `Path.namesAtMost_antisymm` — lists of names.
* `Path.atMost_total`, `Path.atMost_trans` — paths.
-/

namespace EditIdioms

section Lists

variable {α : Type} {before : α → α → Bool}

/-- **The order of lists is total.** -/
lemma lexAtMost_total (l l' : List α) :
    (lexAtMost before l l' || lexAtMost before l' l) = true := by
  induction l generalizing l' with
  | nil => rw [lexAtMost, Bool.true_or]
  | cons a l ih =>
    cases l' with
    | nil => rw [lexAtMost, lexAtMost, Bool.false_or]
    | cons b l' =>
      have hrest := ih l'
      rw [lexAtMost, lexAtMost]
      cases before a b <;> cases before b a <;> simp_all

/-- **The order of lists is transitive** if nothing comes before what comes before it, and whatever
comes before another element comes before or behind a third one.

**Proof sketch.** Induction on the first list. The lists are compared at their first elements `a`,
`b` and `c`. If `a` comes before `b`, then it comes before `c`, or `c` comes before `b`, which the
second comparison excludes. If `a` and `b` are level and `b` comes before `c`, then `a` comes before
`c` likewise. If both are level, so are `a` and `c`, and the rests are compared by the hypothesis of
the induction. -/
lemma lexAtMost_trans (hasymm : ∀ a b, before a b = true → before b a = false)
    (hcotrans : ∀ a b c, before a b = true → before a c = true ∨ before c b = true)
    {l l' l'' : List α} (h : lexAtMost before l l' = true) (h' : lexAtMost before l' l'' = true) :
    lexAtMost before l l'' = true := by
  induction l generalizing l' l'' with
  | nil => rw [lexAtMost]
  | cons a l ih =>
    cases l' with
    | nil => cases h
    | cons b l' =>
      cases l'' with
      | nil => cases h'
      | cons c l'' =>
        rw [lexAtMost, Bool.or_eq_true, Bool.and_eq_true, Bool.not_eq_true'] at h h' ⊢
        rcases h with hab | ⟨hba, hrest⟩
        · rcases hcotrans a b c hab with hac | hcb
          · exact .inl hac
          · rcases h' with hbc | ⟨hcb', -⟩
            · rw [hasymm b c hbc] at hcb
              cases hcb
            · rw [hcb'] at hcb
              cases hcb
        · rcases h' with hbc | ⟨hcb, hrest'⟩
          · rcases hcotrans b c a hbc with hba' | hac
            · rw [hba] at hba'
              cases hba'
            · exact .inl hac
          · refine .inr ⟨?_, ih hrest hrest'⟩
            cases hca : before c a with
            | false => rfl
            | true =>
              rcases hcotrans c a b hca with hcb' | hba'
              · rw [hcb] at hcb'
                cases hcb'
              · rw [hba] at hba'
                cases hba'

/-- **The order of lists is antisymmetric** if nothing comes before what comes before it, and of two
different elements one comes before the other.

**Proof sketch.** Induction on the first list. If the first element of one list came before that of
the other, the two comparisons would contradict each other. So neither comes before the other, they
are equal, and the rests are compared in both directions. -/
lemma lexAtMost_antisymm (hasymm : ∀ a b, before a b = true → before b a = false)
    (htri : ∀ a b, before a b = false → before b a = false → a = b) {l l' : List α}
    (h : lexAtMost before l l' = true) (h' : lexAtMost before l' l = true) : l = l' := by
  induction l generalizing l' with
  | nil =>
    cases l' with
    | nil => rfl
    | cons b l' => cases h'
  | cons a l ih =>
    cases l' with
    | nil => cases h
    | cons b l' =>
      rw [lexAtMost, Bool.or_eq_true, Bool.and_eq_true, Bool.not_eq_true'] at h h'
      rcases h with hab | ⟨hba, hrest⟩
      · rcases h' with hba | ⟨hab', -⟩
        · rw [hasymm a b hab] at hba
          cases hba
        · rw [hab] at hab'
          cases hab'
      · rcases h' with hba' | ⟨hab, hrest'⟩
        · rw [hba] at hba'
          cases hba'
        · rw [htri a b hab hba, ih hrest hrest']

/-- **What two lists have in common in front** does not count, if nothing comes before itself. -/
lemma lexAtMost_append_left (hirrefl : ∀ a, before a a = false) (front l l' : List α) :
    lexAtMost before (front ++ l) (front ++ l') = lexAtMost before l l' := by
  induction front with
  | nil => rfl
  | cons a front ih =>
    rw [List.cons_append, List.cons_append, lexAtMost, hirrefl, Bool.false_or, Bool.not_false,
      Bool.true_and, ih]

end Lists

namespace Text

/-- The order of texts is total. -/
lemma atMost_total (s t : String) : (atMost s t || atMost t s) = true := lexAtMost_total _ _

/-- The order of texts is transitive. -/
lemma atMost_trans (s t u : String) (h : atMost s t = true) (h' : atMost t u = true) :
    atMost s u = true := by
  refine lexAtMost_trans (fun c d hcd => ?_) (fun c d e hcd => ?_) h h'
  · rw [decide_eq_true_eq] at hcd
    rw [decide_eq_false_iff_not]
    omega
  · rw [decide_eq_true_eq] at hcd
    rw [decide_eq_true_eq, decide_eq_true_eq]
    omega

/-- The order of texts is antisymmetric. -/
lemma atMost_antisymm (s t : String) (h : atMost s t = true) (h' : atMost t s = true) : s = t := by
  refine String.toList_injective
    (lexAtMost_antisymm (fun c d hcd => ?_) (fun c d hcd hdc => ?_) h h')
  · rw [decide_eq_true_eq] at hcd
    rw [decide_eq_false_iff_not]
    omega
  · rw [decide_eq_false_iff_not] at hcd hdc
    exact Char.toNat_inj.mp (by omega)

/-- Of two texts that do not come in this order the second one does not come after the first. -/
lemma atMost_of_not {s t : String} (h : (!atMost s t) = true) : atMost t s = true := by
  have htotal := atMost_total s t
  rw [Bool.not_eq_true'] at h
  rwa [h, Bool.false_or] at htotal

end Text

namespace Path

/-- Whether a list of names does not come after another one: the first names that differ decide, and
a list comes after its beginnings. -/
def namesAtMost (l l' : List String) : Bool := lexAtMost (fun s t => !Text.atMost t s) l l'

/-- The order of lists of names is total. -/
lemma namesAtMost_total (l l' : List String) : (namesAtMost l l' || namesAtMost l' l) = true :=
  lexAtMost_total _ _

/-- The order of lists of names is transitive. -/
lemma namesAtMost_trans (l l' l'' : List String) (h : namesAtMost l l' = true)
    (h' : namesAtMost l' l'' = true) : namesAtMost l l'' = true := by
  refine lexAtMost_trans (fun s t hst => ?_) (fun s t u hst => ?_) h h'
  · rw [Text.atMost_of_not hst, Bool.not_true]
  · cases hus : Text.atMost u s with
    | false => exact .inl rfl
    | true =>
      cases htu : Text.atMost t u with
      | false => exact .inr rfl
      | true =>
        rw [Text.atMost_trans t u s htu hus] at hst
        cases hst

/-- The order of lists of names is antisymmetric. -/
lemma namesAtMost_antisymm (l l' : List String) (h : namesAtMost l l' = true)
    (h' : namesAtMost l' l = true) : l = l' := by
  refine lexAtMost_antisymm (fun s t hst => ?_) (fun s t hst hts => ?_) h h'
  · rw [Text.atMost_of_not hst, Bool.not_true]
  · rw [Bool.not_eq_false'] at hst hts
    exact Text.atMost_antisymm s t hts hst

/-- Names that two lists have in common in front do not count. -/
lemma namesAtMost_append_left (front l l' : List String) :
    namesAtMost (front ++ l) (front ++ l') = namesAtMost l l' := by
  refine lexAtMost_append_left (fun s => ?_) front l l'
  have htotal := Text.atMost_total s s
  rw [Bool.or_self] at htotal
  rw [htotal, Bool.not_true]

/-- The order of paths is total. -/
lemma atMost_total (p q : String) : (atMost p q || atMost q p) = true := namesAtMost_total _ _

/-- The order of paths is transitive. -/
lemma atMost_trans (p q r : String) (h : atMost p q = true) (h' : atMost q r = true) :
    atMost p r = true := namesAtMost_trans _ _ _ h h'

end Path

end EditIdioms
