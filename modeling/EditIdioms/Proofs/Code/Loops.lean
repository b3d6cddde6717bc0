import EditIdioms.Proofs.Code.Acyclic

set_option relaxedAutoImplicit false
set_option autoImplicit false

/-!
# Loops that come to an end

To walk or search code is to run a loop over a stack of nodes: the node on top is looked at, and the
children to look at are put in its place. A comparison has a stack of pairs, and to look for the
executable around a node is to go from parent to parent. Nothing in these loops counts steps. On a
tree without cycles all of them come to an end, and with the values of the functions that recurse
under a bound.

## Main definitions

* `Loop`, `Loop.Ends` — loops by their steps, and the value with which one ends.
* `walkLoop`, `collectLoop`, `searchLoop`, `compareLoop`, `enclosingLoop` — the loops over trees.
* `Site.LoopsEnd` — the loops from a site end with the values of the functions.

## Main results

* `Loop.Ends.unique` — a loop ends with one value.
* `Tree.Acyclic.loopsEnd`, `Tree.Acyclic.walkLoop_ends` — on a tree without cycles the loops end.
-/

namespace EditIdioms

/-- A step leads from a state to the next one, or ends the loop with a value. -/
def Loop (σ β : Type) : Type := σ → σ ⊕ β

namespace Loop

variable {σ β : Type} {loop : Loop σ β} {s : σ} {b b' : β}

/-- From a state on, the loop comes to an end with a value. -/
inductive Ends (loop : Loop σ β) : σ → β → Prop
  /-- The step ends the loop. -/
  | stop {s : σ} {b : β} (h : loop s = .inr b) : Ends loop s b
  /-- The step leads to a state from which the loop ends. -/
  | step {s s' : σ} {b : β} (h : loop s = .inl s') (rest : Ends loop s' b) : Ends loop s b

/-- **A loop ends with one value.** -/
lemma Ends.unique (h : loop.Ends s b) (h' : loop.Ends s b') : b = b' := by
  induction h with
  | stop hstop =>
    cases h' with
    | stop hstop' => exact Sum.inr.inj (hstop.symm.trans hstop')
    | step hstep' _ => exact nomatch hstop.symm.trans hstep'
  | step hstep _ ih =>
    cases h' with
    | stop hstop' => exact nomatch hstep.symm.trans hstop'
    | step hstep' hrest' =>
      obtain rfl := Sum.inl.inj (hstep.symm.trans hstep')
      exact ih hrest'

end Loop

/-! ## The loops -/

/-- The loop of a walk, with the sites met so far. -/
def walkLoop : Loop (List Site × List Site) (List Site)
  | ([], met) => .inr met
  | (s :: stack, met) => .inl (s.children ++ stack, met ++ [s])

/-- The loop of a search for all, with the sites found so far. -/
def collectLoop (q : Pattern) : Loop (List Site × List Site) (List Site)
  | ([], found) => .inr found
  | (s :: stack, found) => .inl (s.inner ++ stack, if q.holds s then found ++ [s] else found)

/-- The loop of a search for the first one. -/
def searchLoop (q : Pattern) : Loop (List Site) (Option Site)
  | [] => .inr none
  | s :: stack => if q.holds s then .inr (some s) else .inl (s.inner ++ stack)

/-- The loop of a comparison, with the pairs that are still to be compared. -/
def compareLoop : Loop (List (Site × Site)) Bool
  | [] => .inr true
  | (s, x) :: pairs =>
    if s.sameHead x then .inl (s.children.zip x.children ++ pairs) else .inr false

/-- The loop that looks for the executable around a node. -/
def enclosingLoop : Loop Site (Option Site) := fun s =>
  match s.parent? with
  | none => .inr none
  | some p => if p.kind.isExecutable then .inr (some p) else .inl p

/-- The loops from the site end with the values of the functions. A comparison does so whatever the
other tree is. -/
structure Site.LoopsEnd (s : Site) : Prop where
  collect (q : Pattern) : (collectLoop q).Ends ([s], []) (s.findAll q)
  search (q : Pattern) : (searchLoop q).Ends [s] (s.findFirst? q)
  compare (x : Site) : compareLoop.Ends [(s, x)] (s.sameStructure x)
  enclosing : enclosingLoop.Ends s s.enclosingExecutable?

/-! ## Their ends -/

namespace Tree.Acyclic

open EditIdioms.Site

variable {t : Tree} {s : Site} {q : Pattern}

/-- A site on the stack is done with when all that is to be met from it has been.

**Proof sketch.** Induction along the way down to the site's children, which ends as the tree has no
cycle. The site is taken from the stack and its children are put there in its place. They are done
with one after the other, by induction on any list of them (`hall`), and what is met from them in
this order is the walk from the site without the site itself. -/
lemma walk_ends (h : t.Acyclic) (hs : s.tree = t) {stack met result : List Site}
    (hrest : walkLoop.Ends (stack, met ++ s.walk) result) :
    walkLoop.Ends (s :: stack, met) result := by
  induction s, hs using induction_along tree_of_mem_children h.down generalizing stack met with
  | step s hs ih =>
    have hall : ∀ (l : List Site) (met : List Site), (∀ c ∈ l, c ∈ s.children) →
        walkLoop.Ends (stack, met ++ l.flatMap walk) result →
          walkLoop.Ends (l ++ stack, met) result := by
      intro l
      induction l with
      | nil =>
        intro met _ hdone
        rwa [List.flatMap_nil, List.append_nil] at hdone
      | cons c l ihl =>
        intro met hl hdone
        rw [List.flatMap_cons, ← List.append_assoc] at hdone
        exact ih c (hl c List.mem_cons_self)
          (ihl _ (fun d hd => hl d (List.mem_cons_of_mem c hd)) hdone)
    refine .step rfl (hall _ _ (fun c hc => hc) ?_)
    rwa [walk_eq (hs ▸ h), List.append_cons] at hrest

/-- **On a tree without cycles a walk ends.** -/
lemma walkLoop_ends (h : t.Acyclic) (hs : s.tree = t) : walkLoop.Ends ([s], []) s.walk :=
  h.walk_ends hs (.stop rfl)

/-- A site on the stack is done with when what a search for all finds from it has been found.

**Proof sketch.** Induction along the way down, as for the walk. The site is taken from the stack
and the children that a search goes on to are put there. These are done with one after the other, by
induction on any list of them (`hall`). The site itself has been added before them if the pattern
holds of it, which is where a search for all starts (`findAll_step`). -/
lemma collect_ends (h : t.Acyclic) (hs : s.tree = t) {stack found result : List Site}
    (hrest : (collectLoop q).Ends (stack, found ++ s.findAll q) result) :
    (collectLoop q).Ends (s :: stack, found) result := by
  induction s, hs using induction_along tree_of_mem_children h.down generalizing stack found with
  | step s hs ih =>
    have hall : ∀ (l : List Site) (found : List Site), (∀ c ∈ l, c ∈ s.children) →
        (collectLoop q).Ends (stack, found ++ l.flatMap (·.findAll q)) result →
          (collectLoop q).Ends (l ++ stack, found) result := by
      intro l
      induction l with
      | nil =>
        intro found _ hdone
        rwa [List.flatMap_nil, List.append_nil] at hdone
      | cons c l ihl =>
        intro found hl hdone
        rw [List.flatMap_cons, ← List.append_assoc] at hdone
        exact ih c (hl c List.mem_cons_self)
          (ihl _ (fun d hd => hl d (List.mem_cons_of_mem c hd)) hdone)
    refine .step rfl (hall _ _ (fun c hc => (mem_inner.mp hc).1) ?_)
    rw [findAll_step (hs ▸ h)] at hrest
    cases hq : q.holds s with
    | true => simpa [hq] using hrest
    | false => simpa [hq] using hrest

/-- A site on the stack comes before those below it on the stack.

**Proof sketch.** Induction along the way down. If the pattern holds of the site, the loop stops
with it. Otherwise the children that a search goes on to are put on the stack, and by induction on
any list of them (`hall`) the loop ends with what is found from the first of them from which
anything is, or else with what is found from the rest of the stack. -/
lemma search_ends (h : t.Acyclic) (hs : s.tree = t) {stack : List Site} {result : Option Site}
    (hrest : (searchLoop q).Ends stack result) :
    (searchLoop q).Ends (s :: stack) ((s.findFirst? q).or result) := by
  induction s, hs using induction_along tree_of_mem_children h.down generalizing stack result with
  | step s hs ih =>
    have hall : ∀ l : List Site, (∀ c ∈ l, c ∈ s.children) →
        (searchLoop q).Ends (l ++ stack) ((l.findSome? (·.findFirst? q)).or result) := by
      intro l hl
      induction l with
      | nil => exact hrest
      | cons c l ihl =>
        have hc := ih c (hl c List.mem_cons_self)
          (ihl fun d hd => hl d (List.mem_cons_of_mem c hd))
        rw [List.findSome?_cons]
        cases hfound : c.findFirst? q with
        | none => rwa [hfound] at hc
        | some r => rwa [hfound] at hc
    rw [findFirst?_step (hs ▸ h)]
    cases hq : q.holds s with
    | true => exact .stop (by simp [searchLoop, hq])
    | false =>
      have hstep : searchLoop q (s :: stack) = .inl (s.inner ++ stack) := by simp [searchLoop, hq]
      exact .step hstep (hall _ fun c hc => (mem_inner.mp hc).1)

/-- A pair on the stack is compared before those below it on the stack.

**Proof sketch.** Induction along the way down in the first tree. If the two sites do not have the
same head, the loop stops. Otherwise their children are put on the stack in pairs. By induction on
any list of pairs (`hall`) the loop ends with whether all of them have the same structure, and
whatever comes after. -/
lemma compare_ends (h : t.Acyclic) (hs : s.tree = t) {x : Site} {pairs : List (Site × Site)}
    {result : Bool} (hrest : compareLoop.Ends pairs result) :
    compareLoop.Ends ((s, x) :: pairs) (s.sameStructure x && result) := by
  induction s, hs using induction_along tree_of_mem_children h.down generalizing x pairs result with
  | step s hs ih =>
    have hall : ∀ l : List (Site × Site), (∀ c ∈ l, c.1 ∈ s.children) →
        compareLoop.Ends (l ++ pairs) ((l.all fun c => c.1.sameStructure c.2) && result) := by
      intro l hl
      induction l with
      | nil => exact hrest
      | cons c l ihl =>
        have hrest := ihl fun d hd => hl d (List.mem_cons_of_mem c hd)
        rw [List.all_cons, Bool.and_assoc]
        exact ih c.1 (hl c List.mem_cons_self) hrest
    rw [sameStructure_step (hs ▸ h)]
    cases hhead : s.sameHead x with
    | true =>
      have hstep : compareLoop ((s, x) :: pairs) = .inl (s.children.zip x.children ++ pairs) := by
        simp [compareLoop, hhead]
      exact .step hstep (hall _ fun c hc => (List.of_mem_zip hc).1)
    | false => exact .stop (by simp [compareLoop, hhead])

/-- The way up ends at the executable around a site, or at a root.

**Proof sketch.** Induction along the way up. Without a parent there is nothing above, and the loop
stops. With one, it stops at the parent if that is executable and goes on from there if it is not;
the first executable above the site is found in the same way (`ancestors_of_child`). -/
lemma enclosing_ends (h : t.Acyclic) (hs : s.tree = t) :
    enclosingLoop.Ends s s.enclosingExecutable? := by
  induction s, hs using induction_along tree_of_parent? h.up with
  | step s hs ih =>
    cases hp : s.parent? with
    | none =>
      have hnone : s.enclosingExecutable? = none := by
        rw [enclosingExecutable?, ancestors_of_root hp, List.find?_nil]
      exact .stop (by rw [enclosingLoop, hp, hnone])
    | some p =>
      have habove : s.enclosingExecutable? =
          if p.kind.isExecutable then some p else p.enclosingExecutable? := by
        rw [enclosingExecutable?, ancestors_of_child (hs ▸ h) hp, List.find?_cons]
        cases p.kind.isExecutable <;> rfl
      rw [habove]
      cases hexecutable : p.kind.isExecutable with
      | true => exact .stop (by simp [enclosingLoop, hp, hexecutable])
      | false =>
        have hstep : enclosingLoop s = .inl p := by simp [enclosingLoop, hp, hexecutable]
        exact .step hstep (ih p hp)

/-- **On a tree without cycles the loops end.** -/
lemma loopsEnd (h : t.Acyclic) (hs : s.tree = t) : s.LoopsEnd where
  collect _ := h.collect_ends hs (.stop rfl)
  search q := by
    have hdone : (searchLoop q).Ends [] none := .stop rfl
    have hends := h.search_ends hs hdone
    rwa [Option.or_none] at hends
  compare x := by
    have hdone : compareLoop.Ends [] true := .stop rfl
    have hends := h.compare_ends (x := x) hs hdone
    rwa [Bool.and_true] at hends
  enclosing := h.enclosing_ends hs

end Tree.Acyclic

end EditIdioms
