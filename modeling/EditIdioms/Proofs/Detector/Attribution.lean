import EditIdioms.Proofs.Detector.Standard

set_option relaxedAutoImplicit false
set_option autoImplicit false

/-!
# Whose code a guard is judged by

A `return` in a lambda does not end the method around it. So a guard should be judged only by code
of the executable in which it stands. A search does not enter the executables and classes on its
way down, which keeps it in the executable around its start; but it does not ask what the start is,
and the guards start searches at branches and siblings. Evidence belongs to the executable around
the guard exactly if it was not found from an executable. From a branch or sibling that is itself a
lambda, the evidence belongs to that lambda.

## Main definitions

* `InsertedIf.Attributed` — to which executable code belongs that was found from a branch or
  sibling.

## Main results

* `Scope.attributed` — code in sight of a branch or sibling is attributed so.
* `guards_attribute` — the `return` and the dereference by which a guard is judged.
* `guards_attribute_lambda` — guards that are judged by the code of two lambdas only.
-/

namespace EditIdioms

namespace InsertedIf

variable {guard : InsertedIf} {scope e : Site}

/-- Code found from `scope` belongs to the executable around the guard, unless `scope` is an
executable itself: then it belongs to that one, which is another. -/
structure Attributed (guard : InsertedIf) (scope e : Site) : Prop where
  around : scope.kind.isExecutable = false →
    e.enclosingExecutable? = guard.node.enclosingExecutable?
  inside : scope.kind.isExecutable = true →
    e.enclosingExecutable? = some scope ∧ guard.node.enclosingExecutable? ≠ some scope

/-- Around a scope is what is around the `if`, and a scope is not above the `if`. -/
lemma Scope.enclosingExecutable?_eq (h : guard.Scope scope) (hfits : guard.Fits)
    (hnode : guard.node.tree.Grounded) :
    scope.enclosingExecutable? = guard.node.enclosingExecutable? ∧
      guard.node.depth ≤ scope.depth := by
  have hscope : scope.tree.Grounded := (h.tree_eq hnode.toLinked).symm ▸ hnode
  rcases h with hchild | hsibling
  · have hparent := (Site.parent?_eq_some_iff_mem_children hnode.toLinked).mpr hchild
    rw [Site.enclosingExecutable?_of_child hscope hparent, hfits.kind_eq,
      Site.depth_of_child hscope hparent]
    exact ⟨rfl, Nat.le_succ _⟩
  · obtain ⟨p, hp, hp'⟩ := Site.parent?_of_mem_following hnode.toLinked hsibling
    rw [Site.enclosingExecutable?_of_child hscope hp', Site.enclosingExecutable?_of_child hnode hp,
      Site.depth_of_child hscope hp', Site.depth_of_child hnode hp]
    exact ⟨rfl, Nat.le_refl _⟩

/-- **Code in sight of a scope** is attributed so, if it is no executable itself.

**Proof sketch.** Going up from code in sight of the scope, the first executable above it is the
scope itself, if that is executable, or what is above the scope otherwise
(`enclosingExecutable?_of_inSight`). An open scope has the executable of the guard above it, or is
that executable. If the scope is executable it is deeper than the guard, so it is not above the
guard, and the code belongs to an executable that is. -/
lemma Scope.attributed (h : guard.Scope scope) (hfits : guard.Fits)
    (hnode : guard.node.tree.Grounded) (he : e ∈ scope.inSight)
    (hkind : e.kind.isExecutable = false) : guard.Attributed scope e := by
  have hscope : scope.tree.Grounded := (h.tree_eq hnode.toLinked).symm ▸ hnode
  obtain ⟨haround, hdepth⟩ := h.enclosingExecutable?_eq hfits hnode
  have hbelow := Site.enclosingExecutable?_of_inSight hscope he
  constructor
  · intro hopen
    rw [hopen, if_neg Bool.false_ne_true, haround] at hbelow
    rcases hbelow with rfl | hbelow
    · exact haround
    · exact hbelow
  · intro hexecutable
    rw [hexecutable, if_pos rfl] at hbelow
    rcases hbelow with rfl | hbelow
    · rw [hkind] at hexecutable
      cases hexecutable
    · refine ⟨hbelow, fun habove => ?_⟩
      have hlt := Site.depth_lt_of_mem_ancestors hnode (List.mem_of_find?_eq_some habove)
      omega

/-- A branch that returns has a `return` which is attributed so. -/
lemma Scope.exists_return (h : guard.Scope scope) (hfits : guard.Fits)
    (hnode : guard.node.tree.Grounded) (hreturns : scope.Returns) :
    ∃ r ∈ scope.inSight, r.kind = .returnStatement ∧ guard.Attributed scope r := by
  obtain ⟨r, hr, hkind⟩ := hreturns
  exact ⟨r, hr, hkind, h.attributed hfits hnode hr (by rw [hkind]; rfl)⟩

end InsertedIf

/-- What dereferences is a field access or an invocation, and so is no executable. -/
lemma Site.Dereferences.isExecutable_eq {e x : Site} {found : Dereference}
    (h : e.Dereferences x found) : e.kind.isExecutable = false := by
  obtain ⟨hkind, -⟩ := h
  cases he : e.kind <;> rw [he] at hkind <;> first | rfl | cases hkind

/-- **Whose code a guard is judged by.** When the guard for a parameter recognises an inserted `if`
of a tree without defects, there is a `return` in sight of the first branch. When the guard for a
dereference does, there is one in sight of the branch that is taken to return, and a dereference of
the tested expression, the one in the rule, in sight of a sibling that follows or of the other
branch. Each belongs to the executable around the `if`, unless the branch or sibling is itself an
executable, and then it belongs to that.

**Proof sketch.** On the way down from where a search starts there is no executable, so the nearest
one above the evidence is the start or the one around the start
(`Site.enclosingExecutable?_of_inSight`). Around the start is what is around the `if`, since the
`if` is the parent or has the same parent. -/
theorem guards_attribute {node : Site} {rule : Rule} (hforest : node.tree.defect? = none) :
    (preconditionGuard.Sees (.insert node) rule →
      ∃ guard : InsertedIf, guard.node = node ∧ guard.Fits ∧
        ∃ r ∈ guard.thenBranch.inSight, r.kind = .returnStatement ∧
          guard.Attributed guard.thenBranch r) ∧
    (nullDereferenceGuard.Sees (.insert node) rule →
      ∃ (guard : InsertedIf) (branch : Site) (other? : Option Site),
        guard.node = node ∧ guard.Fits ∧ guard.OneReturns branch other? ∧
        (∃ r ∈ branch.inSight, r.kind = .returnStatement ∧ guard.Attributed branch r) ∧
        ∃ (x : Site) (found : Dereference),
          (guard.condition.ComparesNull x .equal ∨ guard.condition.ComparesNull x .notEqual) ∧
          rule = found.guardRule ∧
          ∃ scope ∈ node.following ++ other?.toList, ∃ e ∈ scope.inSight,
            e.Dereferences x found ∧ guard.Attributed scope e) := by
  have hnode : node.tree.Grounded :=
    Tree.grounded_of_validate (Tree.defect?_eq_none_iff.mp hforest)
  have hgrounded : (Edit.insert node).Grounded := ⟨nofun, by rintro s ⟨⟩; exact hnode⟩
  constructor
  · intro hsees
    obtain ⟨guard, parameter, hedit, hfits, ⟨-, hreturns, -⟩, -⟩ :=
      (preconditionGuard_sees_iff hgrounded).mp hsees
    obtain rfl := Edit.insert.inj hedit
    have hscope : guard.Scope guard.thenBranch := .inl hfits.mem_children.1
    exact ⟨guard, rfl, hfits, hscope.exists_return hfits hnode hreturns⟩
  · intro hsees
    obtain ⟨guard, x, scopes, found, hedit, hfits, hguards, hfirst, rfl⟩ :=
      (nullDereferenceGuard_sees_iff hgrounded).mp hsees
    obtain rfl := Edit.insert.inj hedit
    have hscopes := hguards.scope hfits
    obtain ⟨hcompares, branch, other?, hreturns, rfl⟩ := hguards
    obtain ⟨scope, hscope, e, he, hdereferences⟩ := hfirst.exists_mem
    have hbranch := (hreturns.scope hfits).1
    have hattributed := (hscopes scope hscope).attributed hfits hnode he
      hdereferences.isExecutable_eq
    exact ⟨guard, branch, other?, rfl, hfits, hreturns,
      hbranch.exists_return hfits hnode hreturns.2.1,
      x, found, hcompares, rfl, scope, hscope, e, he, hdereferences, hattributed⟩

/-- A guard whose branch is a lambda that returns, and behind it a lambda that reads a field:
`if (x == null) () -> return; () -> x.f`. -/
def guardedByLambdas : FileDiff where
  before := {}
  after.nodes := #[{ kind := .method "m" ["x"], children := [⟨1⟩] },
    { kind := .block, parent := some ⟨0⟩, children := [⟨2⟩, ⟨8⟩] },
    { kind := .ifStatement, parent := some ⟨1⟩, children := [⟨3⟩, ⟨6⟩] },
    { kind := .binary .equal, parent := some ⟨2⟩, children := [⟨4⟩, ⟨5⟩] },
    { kind := .variableRead "x", parent := some ⟨3⟩ },
    { kind := .literal .null, parent := some ⟨3⟩ },
    { kind := .lambda [], parent := some ⟨2⟩, children := [⟨7⟩] },
    { kind := .returnStatement, parent := some ⟨6⟩ },
    { kind := .lambda [], parent := some ⟨1⟩, children := [⟨9⟩] },
    { kind := .fieldRead "f", parent := some ⟨8⟩, children := [⟨10⟩] },
    { kind := .variableRead "x", parent := some ⟨9⟩ }]
  operations := [.insert ⟨2⟩]

/-- The guard for a parameter judges this `if` by a `return` of the lambda that is its branch. -/
theorem guards_attribute_branch :
    let node : Site := ⟨guardedByLambdas.after, ⟨2⟩, by decide⟩
    let branch : Site := ⟨guardedByLambdas.after, ⟨6⟩, by decide⟩
    ∃ r ∈ branch.inSight, r.kind = .returnStatement ∧ r.enclosingExecutable? = some branch ∧
      node.enclosingExecutable? ≠ some branch := by
  intro node branch
  have hforest : node.tree.defect? = none := by decide +kernel
  have hsees : preconditionGuard.Sees (.insert node) (.preconditionGuardInserted "x") := by
    decide +kernel
  obtain ⟨guard, hguard, hfits, r, hr, hkind, hattributed⟩ := (guards_attribute hforest).1 hsees
  have hbranch : guard.thenBranch = branch := by
    have hthen := hfits.then_eq
    rw [hguard] at hthen
    exact (Option.some.inj hthen).symm
  rw [hbranch] at hr hattributed
  obtain ⟨hinside, hother⟩ := hattributed.inside rfl
  rw [hguard] at hother
  exact ⟨r, hr, hkind, hinside, hother⟩

/-- Both guards recognise this `if`, and no `return`, field read or call at all belongs to the
method around it. -/
theorem guards_attribute_lambda :
    let node : Site := ⟨guardedByLambdas.after, ⟨2⟩, by decide⟩
    (guardedByLambdas.defect? = none ∧ guardedByLambdas.operations = [.insert node.id]) ∧
      preconditionGuard.Sees (.insert node) (.preconditionGuardInserted "x") ∧
      nullDereferenceGuard.Sees (.insert node) (.nullGuardBeforeFieldRead "f") ∧
      ∀ e ∈ node.tree.sites, e.kind = .returnStatement ∨ e.kind.dereference?.isSome = true →
        e.enclosingExecutable?.map (·.id) ≠ node.enclosingExecutable?.map (·.id) := by
  decide +kernel

end EditIdioms
