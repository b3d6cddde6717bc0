import EditIdioms.Detector.Basic
import Mathlib.Data.Nat.Notation
import Mathlib.Tactic.Lemma

set_option relaxedAutoImplicit false
set_option autoImplicit false

/-!
# Which detector decides

A chain asks a detector about an edit only if the detector accepts edits of that kind and all that
stand in front of it have passed the edit on. The first one that does not pass it on decides, with a
rule or with a fault. So nothing depends on what the others would have said, and a chain may be cut
in two.

The detectors are any here: what they recognise is any function, and it may be a fault.

## Main definitions

* `Detector.Passes`, `Detector.Answers` — what a detector does with an edit that it comes to.
* `Chain.FirstAnswer` — what the first detector says that does not pass the edit on.
* `Chain.Replaces` — other detectors where none is asked.

## Main results

* `Chain.classify_eq_iff`, `Chain.classify_eq_none_iff` — the first answer decides.
* `Chain.Replaces.classify_eq` — detectors that are not asked do not matter.
* `Chain.classify_append` — a chain in two parts.
-/

namespace EditIdioms

variable {edit : Edit Site}

/-! ## One detector -/

namespace Detector

variable {d d' : Detector} {answer : Except ArenaFault Rule}

/-- The detector does not accept the edit, or it sees no rule in it. -/
def Passes (d : Detector) (edit : Edit Site) : Prop :=
  d.accepts edit.kind = true → d.recognise edit = .ok none

/-- The detector accepts the edit and sees a rule in it, or is a fault. -/
def Answers (d : Detector) (edit : Edit Site) (answer : Except ArenaFault Rule) : Prop :=
  d.accepts edit.kind = true ∧ d.recognise edit = answer.map some

/-- An answer tells which rule it is, and which fault. -/
lemma map_some_inj {answer answer' : Except ArenaFault Rule}
    (h : answer.map some = answer'.map some) : answer = answer' := by
  cases answer <;> cases answer' <;> cases h <;> rfl

/-- An answer is not silence. -/
lemma map_some_ne_none : answer.map some ≠ .ok none := by
  cases answer <;> simp [Except.map]

/-- A detector passes an edit on or answers. -/
lemma passes_or_answers (d : Detector) (edit : Edit Site) :
    d.Passes edit ∨ ∃ answer, d.Answers edit answer := by
  cases haccepts : d.accepts edit.kind with
  | false => exact .inl fun h => absurd (haccepts.symm.trans h) Bool.false_ne_true
  | true =>
    cases hrecognise : d.recognise edit with
    | error fault => exact .inr ⟨.error fault, haccepts, hrecognise⟩
    | ok rule? =>
      cases rule? with
      | none => exact .inl fun _ => hrecognise
      | some rule => exact .inr ⟨.ok rule, haccepts, hrecognise⟩

/-- A detector that answers does not pass. -/
lemma Answers.not_passes (h : d.Answers edit answer) : ¬ d.Passes edit := fun hpasses =>
  map_some_ne_none (h.2.symm.trans (hpasses h.1))

/-- A detector has one answer to an edit. -/
lemma Answers.unique {answer' : Except ArenaFault Rule} (h : d.Answers edit answer)
    (h' : d.Answers edit answer') : answer' = answer :=
  map_some_inj (h'.2.symm.trans h.2)

/-- Another detector for the same kinds accepts the same edits. -/
lemma accepts_congr (h : d'.kinds = d.kinds) (kind : EditKind) :
    d'.accepts kind = d.accepts kind := by
  rw [accepts, accepts, h]

end Detector

/-! ## The first answer -/

namespace Chain

open EditIdioms.Detector

variable {chain chain' : Chain} {d d' : Detector} {answer : Except ArenaFault Rule}

/-- **An edit that is passed on** is left to the detectors behind. -/
lemma classify_cons_of_passes (h : d.Passes edit) :
    classify (d :: chain) edit = classify chain edit := by
  rw [classify]
  split
  · rename_i haccepts
    rw [h haccepts]
  · rfl

/-- **An answer** is that of the chain. -/
lemma classify_cons_of_answers (h : d.Answers edit answer) :
    classify (d :: chain) edit = answer.map some := by
  rw [classify, if_pos h.1, h.2]
  cases answer <;> rfl

/-- What the first detector says that does not pass the edit on. -/
def FirstAnswer (chain : Chain) (edit : Edit Site) (answer : Except ArenaFault Rule) : Prop :=
  ∃ before d behind, chain = before ++ d :: behind ∧ (∀ e ∈ before, e.Passes edit) ∧
    d.Answers edit answer

/-- A detector that passes the edit on is not the first that answers. -/
lemma firstAnswer_cons_of_passes (h : d.Passes edit) :
    FirstAnswer (d :: chain) edit answer ↔ FirstAnswer chain edit answer := by
  constructor
  · rintro ⟨before, e, behind, hchain, hbefore, hanswers⟩
    cases before with
    | nil =>
      obtain ⟨rfl, -⟩ := List.cons.inj hchain
      exact absurd h hanswers.not_passes
    | cons c before =>
      obtain ⟨-, hrest⟩ := List.cons.inj hchain
      exact ⟨before, e, behind, hrest, fun a ha => hbefore a (List.mem_cons_of_mem c ha), hanswers⟩
  · rintro ⟨before, e, behind, rfl, hbefore, hanswers⟩
    exact ⟨d :: before, e, behind, rfl, List.forall_mem_cons.mpr ⟨h, hbefore⟩, hanswers⟩

/-- A detector in front that answers is the first one. -/
lemma firstAnswer_cons_of_answers {answer' : Except ArenaFault Rule} (h : d.Answers edit answer) :
    FirstAnswer (d :: chain) edit answer' ↔ answer' = answer := by
  constructor
  · rintro ⟨before, e, behind, hchain, hbefore, hanswers⟩
    cases before with
    | nil =>
      obtain ⟨rfl, -⟩ := List.cons.inj hchain
      exact h.unique hanswers
    | cons c before =>
      obtain ⟨rfl, -⟩ := List.cons.inj hchain
      exact absurd (hbefore d List.mem_cons_self) h.not_passes
  · rintro rfl
    exact ⟨[], d, chain, rfl, nofun, h⟩

/-- **The first answer decides**, whether it is a rule or a fault.

**Proof sketch.** Induction on the chain. A detector either passes, and then the chain gives what
the others give and the first answer is one of theirs, or it answers, and then it is the first and
the chain gives that answer. An empty chain has no answer to give. -/
lemma classify_eq_iff : chain.classify edit = answer.map some ↔ chain.FirstAnswer edit answer := by
  induction chain with
  | nil =>
    constructor
    · intro h
      exact absurd h.symm map_some_ne_none
    · rintro ⟨before, d, behind, hchain, -⟩
      simp at hchain
  | cons d chain ih =>
    rcases d.passes_or_answers edit with hpasses | ⟨answer', hanswers⟩
    · rw [classify_cons_of_passes hpasses, firstAnswer_cons_of_passes hpasses, ih]
    · rw [classify_cons_of_answers hanswers, firstAnswer_cons_of_answers hanswers]
      exact ⟨fun h => (map_some_inj h).symm, fun h => by rw [h]⟩

/-- **No rule is given** if all detectors pass the edit on. -/
lemma classify_eq_none_iff : chain.classify edit = .ok none ↔ ∀ d ∈ chain, d.Passes edit := by
  induction chain with
  | nil => simp [classify]
  | cons d chain ih =>
    rw [List.forall_mem_cons]
    rcases d.passes_or_answers edit with hpasses | ⟨answer, hanswers⟩
    · rw [classify_cons_of_passes hpasses, ih, and_iff_right hpasses]
    · rw [classify_cons_of_answers hanswers]
      exact ⟨fun h => absurd h map_some_ne_none, fun h => absurd h.1 hanswers.not_passes⟩

/-! ## Detectors that are not asked -/

/-- A chain of detectors for the same kinds, one in the place of each. Where they recognise the edit
differently, it is one that does not accept the edit, or stands behind one that does not pass it
on. -/
structure Replaces (chain' chain : Chain) (edit : Edit Site) : Prop where
  kinds : chain'.map (·.kinds) = chain.map (·.kinds)
  recognise {i : ℕ} {d d' : Detector} : chain[i]? = some d → chain'[i]? = some d' →
    d'.recognise edit = d.recognise edit ∨ d.accepts edit.kind = false ∨
      ∃ j < i, ∃ e, chain[j]? = some e ∧ ¬ e.Passes edit

/-- A detector in front is the same if it is asked. -/
lemma Replaces.head (h : Replaces (d' :: chain') (d :: chain) edit) :
    d'.accepts edit.kind = d.accepts edit.kind ∧
      (d.accepts edit.kind = true → d'.recognise edit = d.recognise edit) := by
  refine ⟨accepts_congr (List.cons.inj h.kinds).1 _, fun haccepts => ?_⟩
  rcases h.recognise (i := 0) rfl rfl with hsame | hrefuses | ⟨j, hj, -⟩
  · exact hsame
  · rw [haccepts] at hrefuses
    cases hrefuses
  · exact absurd hj (Nat.not_lt_zero j)

/-- If the first detector passes the edit on, the rest of the chain is replaced as a chain. -/
lemma Replaces.tail (h : Replaces (d' :: chain') (d :: chain) edit) (hd : d.Passes edit) :
    Replaces chain' chain edit := by
  refine ⟨(List.cons.inj h.kinds).2, fun {i e e'} he he' => ?_⟩
  refine (h.recognise (i := i + 1) he he').imp_right (Or.imp_right ?_)
  rintro ⟨j, hj, a, ha, hanswers⟩
  cases j with
  | zero =>
    obtain rfl : d = a := Option.some.inj ha
    exact absurd hd hanswers
  | succ j => exact ⟨j, Nat.lt_of_succ_lt_succ hj, a, ha, hanswers⟩

/-- **Detectors that are not asked do not matter.**

**Proof sketch.** Induction on both chains. The detectors at their heads accept the same kinds of
edits, and if they are asked they give the same. If the first one passes, so does the other, and the
rest of the one chain replaces the rest of the other. If it answers, so does the other, with the
same answer. -/
lemma Replaces.classify_eq (h : Replaces chain' chain edit) :
    chain'.classify edit = chain.classify edit := by
  induction chain generalizing chain' with
  | nil => rw [List.map_eq_nil_iff.mp h.kinds]
  | cons d chain ih =>
    cases chain' with
    | nil => cases h.kinds
    | cons d' chain' =>
      obtain ⟨haccepts, hrecognise⟩ := h.head
      rcases d.passes_or_answers edit with hpasses | ⟨answer, hanswers⟩
      · have hpasses' : d'.Passes edit := fun hkind =>
          (hrecognise (haccepts ▸ hkind)).trans (hpasses (haccepts ▸ hkind))
        rw [classify_cons_of_passes hpasses, classify_cons_of_passes hpasses', ih (h.tail hpasses)]
      · have hanswers' : d'.Answers edit answer :=
          ⟨haccepts.trans hanswers.1, (hrecognise hanswers.1).trans hanswers.2⟩
        rw [classify_cons_of_answers hanswers, classify_cons_of_answers hanswers']

/-! ## Two chains -/

/-- **A chain in two parts** asks the second one where the first gives no rule. -/
lemma classify_append (first second : Chain) (edit : Edit Site) :
    classify (first ++ second) edit =
      match first.classify edit with
      | .ok none => second.classify edit
      | answered => answered := by
  induction first with
  | nil => rfl
  | cons d first ih =>
    rw [List.cons_append]
    rcases d.passes_or_answers edit with hpasses | ⟨answer, hanswers⟩
    · rw [classify_cons_of_passes hpasses, classify_cons_of_passes hpasses, ih]
    · rw [classify_cons_of_answers hanswers, classify_cons_of_answers hanswers]
      cases answer <;> rfl

/-- **The kind of the edit and the first answer decide.** A chain of any detectors gives the rule or
the fault of the first one that accepts the edit and does not pass it on, and no rule if there is
none. What is recognised by detectors that do not accept the edit, or stand behind that one, does
not matter, not even if it is a fault. So of two chains in a row the second is asked if the first
gives no rule, and only then.

**Proof sketch.** Induction on the chain. The detector in front passes the edit on, and what is said
is said of the rest, or it answers, and the rest has no part in it. -/
theorem first_answer_decides (chain : Chain) (edit : Edit Site) :
    (∀ answer : Except ArenaFault Rule,
      chain.classify edit = answer.map some ↔ chain.FirstAnswer edit answer) ∧
    (chain.classify edit = .ok none ↔ ∀ d ∈ chain, d.Passes edit) ∧
    (∀ chain' : Chain, chain'.Replaces chain edit →
      chain'.classify edit = chain.classify edit) ∧
    ∀ second : Chain, classify (chain ++ second) edit =
      match chain.classify edit with
      | .ok none => second.classify edit
      | answered => answered :=
  ⟨fun _ => classify_eq_iff, classify_eq_none_iff, fun _ h => h.classify_eq,
    fun second => classify_append chain second edit⟩

/-- Two detectors would be faults, one for deletions and one behind the first answer. Others that
see a rule may stand in their place. -/
theorem first_answer_decides_tripwires :
    let rule : Rule := .nullGuardBeforeFieldRead "f"
    let fault : Detector → Detector := fun d =>
      { d with recognise := fun _ => .error (.outside ⟨9⟩) }
    let sure (kind : EditKind) : Detector := ⟨"sure", [kind], fun _ => .ok (some rule)⟩
    let edit : Edit Site := .insert ⟨{ nodes := #[{ kind := .breakStatement }] }, ⟨0⟩, by decide⟩
    let chain : Chain := [fault (sure .delete), sure .insert, fault (sure .insert)]
    let chain' : Chain := [sure .delete, sure .insert, sure .insert]
    chain'.Replaces chain edit ∧ chain'.classify edit = chain.classify edit ∧
      chain.classify edit = .ok (some rule) := by
  intro rule fault sure edit chain chain'
  have hreplaces : chain'.Replaces chain edit := by
    refine ⟨rfl, fun {i d d'} hd hd' => ?_⟩
    match i with
    | 0 =>
      obtain rfl : fault (sure .delete) = d := Option.some.inj hd
      exact .inr (.inl rfl)
    | 1 =>
      obtain rfl : sure .insert = d := Option.some.inj hd
      obtain rfl : sure .insert = d' := Option.some.inj hd'
      exact .inl rfl
    | 2 => exact .inr (.inr ⟨1, by omega, sure .insert, rfl, fun hpasses => by cases hpasses rfl⟩)
    | i + 3 => cases hd
  obtain ⟨hanswer, -, hsame, -⟩ := first_answer_decides chain edit
  refine ⟨hreplaces, hsame chain' hreplaces, (hanswer (.ok rule)).mpr ?_⟩
  refine ⟨[fault (sure .delete)], sure .insert, [fault (sure .insert)], rfl, ?_, rfl, rfl⟩
  exact List.forall_mem_singleton.mpr fun haccepts => by cases haccepts

end Chain

end EditIdioms
