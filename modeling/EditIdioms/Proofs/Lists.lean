import Mathlib.Data.List.Nodup
import Mathlib.Data.Nat.Notation
import Mathlib.Tactic.Lemma

set_option relaxedAutoImplicit false
set_option autoImplicit false

/-!
# First places and sorted lists

What is found first in a list is told by its place, and elements without an answer do not matter.
Sorting moves elements only past those that come strictly before or behind them.

## Main results

* `findSome?_zipIdx_eq_some_iff` — the first value on a list with places.
* `idxOf?_eq_some_iff_getElem?` — without repeats an element has one place.
* `findSome?_eq_of_sublist` — the first value that a few elements have.
* `pairwise_of_sublist` — two of a few elements stand in their order.
* `filter_mergeSort` — sorting a part of a list gives that part of the sorted list.
* `pairwise_mergeSort_ties` — sorting keeps the order of elements that are equally far in front.
* `ascending_mergeSort`, `eq_of_ascending` — without such elements the sorted list ascends, and it
  is told by its members.
-/

namespace EditIdioms

/-! ## First places -/

/-- The first value that a function has on a list with positions, counted from `start`.

**Proof sketch.** Induction on the list. If the function has a value on the first element, that is
the answer, at place zero, and no later place can be meant, since the value at place zero would come
before it. Otherwise the answer is that of the rest, whose places are counted one further. -/
lemma findSome?_zipIdx_eq_some_iff {α β : Type} {f : α → ℕ → Option β} {l : List α} {start : ℕ}
    {b : β} :
    (l.zipIdx start).findSome? (fun p => f p.1 p.2) = some b ↔
      ∃ i, (l[i]?.bind fun a => f a (start + i)) = some b ∧
        ∀ k < i, (l[k]?.bind fun a => f a (start + k)) = none := by
  induction l generalizing start with
  | nil => simp
  | cons a l ih =>
    -- the place of a later element, counted from here and from the next place
    have hplace : ∀ i, start + 1 + i = start + (i + 1) := fun i => by omega
    rw [List.zipIdx_cons, List.findSome?_cons]
    cases ha : f a start with
    | some b' =>
      constructor
      · intro h
        exact ⟨0, by simpa [ha] using h, fun k hk => absurd hk (Nat.not_lt_zero k)⟩
      · rintro ⟨i, hi, hbefore⟩
        cases i with
        | zero => simpa [ha] using hi
        | succ i => simpa [ha] using hbefore 0 (Nat.succ_pos i)
    | none =>
      dsimp only
      rw [ih]
      constructor
      · rintro ⟨i, hi, hbefore⟩
        refine ⟨i + 1, by simpa [hplace] using hi, fun k hk => ?_⟩
        cases k with
        | zero => simpa using ha
        | succ k => simpa [hplace] using hbefore k (Nat.lt_of_succ_lt_succ hk)
      · rintro ⟨i, hi, hbefore⟩
        cases i with
        | zero => simp [ha] at hi
        | succ i =>
          refine ⟨i, by simpa [hplace] using hi, fun k hk => ?_⟩
          simpa [hplace] using hbefore (k + 1) (Nat.succ_lt_succ hk)

/-- Without repeats, the first place of an element is the only one. -/
lemma idxOf?_eq_some_iff_getElem? {α : Type} [BEq α] [LawfulBEq α] {l : List α} {a : α} {i : ℕ}
    (h : l.Nodup) : l.idxOf? a = some i ↔ l[i]? = some a := by
  rw [List.idxOf?_eq_some_iff, List.getElem?_eq_some_iff]
  constructor
  · rintro ⟨hi, ha, -⟩
    exact ⟨hi, ha⟩
  · rintro ⟨hi, rfl⟩
    exact ⟨hi, rfl, fun j hj heq => Nat.ne_of_lt hj (h.getElem_inj_iff.mp heq)⟩

/-- Leaving out elements without an answer does not change the first answer.

**Proof sketch.** Induction on how the shorter list lies in the longer one. An element that is left
out has no answer: otherwise it would be in the shorter list, and so twice in the longer one. An
element of both lists gives the same answer in both, and the members of the rest are others. -/
lemma findSome?_eq_of_sublist {α β : Type} {l l' : List α} {f : α → Option β} (hsub : l.Sublist l')
    (hnodup : l'.Nodup) (hmem : ∀ a ∈ l', ∀ b, f a = some b → a ∈ l) :
    l.findSome? f = l'.findSome? f := by
  induction hsub with
  | slnil => rfl
  | @cons l l' a hsub ih =>
    obtain ⟨hout, hnodup⟩ := List.nodup_cons.mp hnodup
    have hnone : f a = none := by
      cases hfa : f a with
      | none => rfl
      | some b => exact absurd (hsub.mem (hmem a List.mem_cons_self b hfa)) hout
    rw [List.findSome?_cons, hnone]
    exact ih hnodup fun c hc => hmem c (List.mem_cons_of_mem _ hc)
  | @cons_cons l l' a hsub ih =>
    obtain ⟨hout, hnodup⟩ := List.nodup_cons.mp hnodup
    rw [List.findSome?_cons, List.findSome?_cons, ih hnodup fun c hc b hfc => ?_]
    rcases List.mem_cons.mp (hmem c (List.mem_cons_of_mem _ hc) b hfc) with rfl | hin
    · exact absurd hc hout
    · exact hin

/-- In a list without repeats, two members of a part of it stand as they do in that part. -/
lemma pairwise_of_sublist {α : Type} {few l : List α} (hsub : few.Sublist l) (hnodup : l.Nodup) :
    l.Pairwise fun a b => a ∈ few → b ∈ few → [a, b].Sublist few := by
  induction hsub with
  | slnil => exact .nil
  | @cons few l a hsub ih =>
    obtain ⟨hout, hnodup⟩ := List.nodup_cons.mp hnodup
    exact List.pairwise_cons.mpr ⟨fun b _ ha => absurd (hsub.mem ha) hout, ih hnodup⟩
  | @cons_cons few l a hsub ih =>
    obtain ⟨hout, hnodup⟩ := List.nodup_cons.mp hnodup
    refine List.pairwise_cons.mpr ⟨fun b hb _ hmem => ?_, ?_⟩
    · have hin : b ∈ few := (List.mem_cons.mp hmem).resolve_left fun heq => hout (heq ▸ hb)
      exact (List.singleton_sublist.mpr hin).cons_cons a
    · refine (ih hnodup).imp_of_mem fun {b c} hb hc hpair hmem hmem' => ?_
      have hin : b ∈ few := (List.mem_cons.mp hmem).resolve_left fun heq => hout (heq ▸ hb)
      have hin' : c ∈ few := (List.mem_cons.mp hmem').resolve_left fun heq => hout (heq ▸ hc)
      exact (hpair hin hin').cons a

/-- Of two different members of a list one stands before the other. -/
lemma pair_sublist_or {α : Type} {a b : α} {l : List α} (ha : a ∈ l) (hb : b ∈ l) (hne : a ≠ b) :
    [a, b].Sublist l ∨ [b, a].Sublist l := by
  obtain ⟨before, behind, rfl⟩ := List.append_of_mem ha
  rcases List.mem_append.mp hb with hb | hb
  · refine .inr (List.Sublist.append (List.singleton_sublist.mpr hb) ?_)
    exact List.singleton_sublist.mpr List.mem_cons_self
  · have hb : b ∈ behind := (List.mem_cons.mp hb).resolve_left hne.symm
    exact .inl (((List.singleton_sublist.mpr hb).cons_cons a).trans (List.sublist_append_right _ _))

/-! ## Sorting -/

section Sorting

variable {α : Type} {le : α → α → Bool}

/-- A list has one part in front that has a property, when what is behind it does not have it. -/
lemma append_inj_of_pred {p : α → Bool} {first second first' second' : List α}
    (h : first ++ second = first' ++ second') (hfirst : ∀ a ∈ first, p a = true)
    (hsecond : ∀ a ∈ second, p a = false) (hfirst' : ∀ a ∈ first', p a = true)
    (hsecond' : ∀ a ∈ second', p a = false) : first = first' ∧ second = second' := by
  have hfront : ∀ {first second : List α}, (∀ a ∈ first, p a = true) →
      (∀ a ∈ second, p a = false) → (first ++ second).filter p = first := by
    intro first second hfirst hsecond
    have hnone : second.filter p = [] :=
      List.filter_eq_nil_iff.mpr fun a ha => by simp [hsecond a ha]
    rw [List.filter_append, List.filter_eq_self.mpr hfirst, hnone, List.append_nil]
  have hsame : first = first' := by
    rw [← hfront hfirst hsecond, h, hfront hfirst' hsecond']
  subst hsame
  exact ⟨rfl, List.append_cancel_left h⟩

/-- **Sorting a part of a list** gives that part of the sorted list.

**Proof sketch.** Induction on the list. Sorting puts its head `a` behind the elements that come
strictly before it, and before all others, in the sorted list as in its part, and in both these
elements stand in front. -/
lemma filter_mergeSort (trans : ∀ a b c, le a b → le b c → le a c)
    (total : ∀ a b, le a b || le b a) (q : α → Bool) (l : List α) :
    (l.mergeSort le).filter q = (l.filter q).mergeSort le := by
  induction l with
  | nil => rw [List.mergeSort_nil, List.filter_nil, List.mergeSort_nil]
  | cons a l ih =>
    obtain ⟨before, behind, hsorted, hrest, hbefore⟩ := List.mergeSort_cons trans total a l
    rw [hrest, List.filter_append] at ih
    rw [hsorted, List.filter_append]
    cases hq : q a with
    | false =>
      rw [List.filter_cons_of_neg (by simp [hq]), List.filter_cons_of_neg (by simp [hq]), ih]
    | true =>
      rw [List.filter_cons_of_pos hq, List.filter_cons_of_pos hq]
      obtain ⟨before', behind', hsorted', hrest', hbefore'⟩ :=
        List.mergeSort_cons trans total a (l.filter q)
      have hbehind : ∀ {l before behind : List α}, List.mergeSort l le = before ++ a :: behind →
          ∀ b ∈ behind, (!le a b) = false := by
        intro l before behind hl b hb
        have hpairwise := List.pairwise_mergeSort trans total l
        rw [hl] at hpairwise
        have hle := (List.pairwise_cons.mp (List.pairwise_append.mp hpairwise).2.1).1 b hb
        rw [hle, Bool.not_true]
      obtain ⟨hfront, hback⟩ := append_inj_of_pred (p := fun b => !le a b)
        (ih.trans hrest') (fun b hb => hbefore b (List.mem_filter.mp hb).1)
        (fun b hb => hbehind hsorted b (List.mem_filter.mp hb).1) hbefore' (hbehind hsorted')
      rw [hsorted', hfront, hback]

/-- **Sorting keeps the order of elements that are equally far in front.**

**Proof sketch.** Induction on the list. Its head is put in front of all elements that do not come
strictly before it, and those of them that are equally far in front stood behind it. -/
lemma pairwise_mergeSort_ties {R : α → α → Prop} (trans : ∀ a b c, le a b → le b c → le a c)
    (total : ∀ a b, le a b || le b a) {l : List α}
    (h : l.Pairwise R) : (l.mergeSort le).Pairwise fun a b => le a b ∧ (le b a → R a b) := by
  induction l with
  | nil =>
    rw [List.mergeSort_nil]
    exact .nil
  | cons a l ih =>
    obtain ⟨hhead, htail⟩ := List.pairwise_cons.mp h
    obtain ⟨before, behind, hsorted, hrest, hbefore⟩ := List.mergeSort_cons trans total a l
    have hpairs := ih htail
    rw [hrest, List.pairwise_append] at hpairs
    obtain ⟨hfront, hback, hacross⟩ := hpairs
    have hle := List.pairwise_mergeSort trans total (a :: l)
    rw [hsorted, List.pairwise_append, List.pairwise_cons] at hle
    obtain ⟨-, ⟨hbehind, -⟩, hinto⟩ := hle
    rw [hsorted, List.pairwise_append, List.pairwise_cons]
    refine ⟨hfront, ⟨fun b hb => ⟨hbehind b hb, fun _ => hhead b ?_⟩, hback⟩, fun b hb c hc => ?_⟩
    · have hmem : b ∈ l.mergeSort le := hrest ▸ List.mem_append_right before hb
      exact List.mem_mergeSort.mp hmem
    · rcases List.mem_cons.mp hc with rfl | hc
      · refine ⟨hinto b hb _ List.mem_cons_self, fun hcb => ?_⟩
        have hstrict := hbefore b hb
        rw [hcb] at hstrict
        cases hstrict
      · exact hacross b hb c hc

/-- **A sorted list ascends** if elements are equally far in front only when they have the same key,
and the keys are different.

**Proof sketch.** No key comes twice after sorting either. Of two elements the first is at most the
second; if the second were at most the first too, they would have the same key. -/
lemma ascending_mergeSort {β : Type} (key : α → β) (trans : ∀ a b c, le a b → le b c → le a c)
    (total : ∀ a b, le a b || le b a) (antisymm : ∀ a b, le a b → le b a → key a = key b)
    {l : List α} (h : (l.map key).Nodup) :
    (l.mergeSort le).Pairwise fun a b => le b a = false := by
  have hkeys : ((l.mergeSort le).map key).Nodup :=
    (((List.mergeSort_perm l le).map key).nodup_iff).mpr h
  have hne : (l.mergeSort le).Pairwise fun a b => key a ≠ key b := List.pairwise_map.mp hkeys
  have hle := List.pairwise_mergeSort trans total l
  refine (hle.and hne).imp fun {a b} hab => ?_
  cases hba : le b a with
  | false => rfl
  | true => exact absurd (antisymm a b hab.1 hba) hab.2

/-- **A list that ascends** is told by its members.

**Proof sketch.** No member of such a list comes twice, as it would stand strictly before itself. So
the two lists are permutations of each other, and of two members that are in the wrong order in one
of them neither would be at most the other. -/
lemma eq_of_ascending (total : ∀ a b, le a b || le b a) {l l' : List α}
    (h : l.Pairwise fun a b => le b a = false) (h' : l'.Pairwise fun a b => le b a = false)
    (hmem : ∀ a, a ∈ l ↔ a ∈ l') : l = l' := by
  have hne : ∀ a b, le b a = false → a ≠ b := by
    rintro a b hba rfl
    have htotal := total a a
    rw [hba] at htotal
    cases htotal
  have hperm : l.Perm l' := by
    rw [List.perm_ext_iff_of_nodup (h.imp fun {a b} => hne a b) (h'.imp fun {a b} => hne a b)]
    exact hmem
  refine hperm.eq_of_pairwise (fun a b _ _ hba hab => ?_) h h'
  have htotal := total a b
  rw [hab, hba] at htotal
  cases htotal

end Sorting

end EditIdioms
