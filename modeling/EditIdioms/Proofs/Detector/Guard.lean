import EditIdioms.Detector.Insertions
import EditIdioms.Proofs.Code.Scope

set_option relaxedAutoImplicit false
set_option autoImplicit false

/-!
# What a guard is

An inserted `if` is taken for a guard when its condition compares an expression with `null` and one
of its branches returns. It protects a parameter of the executable around it, or it keeps execution
away from dereferences of the tested expression where execution goes on: behind the `if`, and in the
branch that does not return.

The definitions here say so in terms of what is in sight of a branch or a sibling. The detectors
compute this, by searches with bounds, in trees whose links agree and lead to a root.

## Main definitions

* `Site.ComparesNull` — a comparison of an expression with `null`.
* `InsertedIf.Fits` — the parts of an `if` are those of its node.
* `InsertedIf.ProtectsParameter` — the `if` returns when a parameter is `null`.
* `InsertedIf.OneReturns` — one branch returns and the other one, as far as there is one, does not.
* `InsertedIf.Guards` — the `if` keeps execution from some code when an expression is `null`.
* `InsertedIf.Scope` — where searches start.

## Main results

* `Site.nullTest?_eq_some_iff`, `insertedIf?_eq_some_iff` — taking conditions and an `if` apart.
* `guardedParameter?_eq_some_iff` — the parameter that is protected.
* `Guards.scope` — dereferences are looked for in scopes.
* `guardedDereference_eq`, `guardedDereference_spec` — the dereference that is guarded.
-/

namespace EditIdioms

/-! ## Null tests -/

/-- Only one literal is the literal `null`. -/
lemma NodeKind.isNullLiteral_iff {kind : NodeKind} :
    kind.isNullLiteral = true ↔ kind = .literal .null := by
  cases kind with
  | literal value => cases value <;> simp [isNullLiteral, Literal.isNull]
  | _ => simp [isNullLiteral]

/-- The site compares the expression `x` with `null`: one operand is the literal `null`, and the
other one, which is not, is `x`. -/
def Site.ComparesNull (c x : Site) (op : BinaryOperator) : Prop :=
  c.kind = .binary op ∧ ∃ left right, c.child? 0 = some left ∧ c.child? 1 = some right ∧
    (x = left ∧ left.kind ≠ .literal .null ∧ right.kind = .literal .null ∨
      x = right ∧ left.kind = .literal .null ∧ right.kind ≠ .literal .null)

/-- The operands of a comparison with `null`, when both are there. -/
lemma Site.comparesNull_iff {c x left right : Site} {op op' : BinaryOperator}
    (hkind : c.kind = .binary op') (hleft : c.child? 0 = some left)
    (hright : c.child? 1 = some right) :
    c.ComparesNull x op ↔ op' = op ∧
      (x = left ∧ left.kind.isNullLiteral = false ∧ right.kind.isNullLiteral = true ∨
        x = right ∧ left.kind.isNullLiteral = true ∧ right.kind.isNullLiteral = false) := by
  simp only [ComparesNull, hkind, hleft, hright, NodeKind.binary.injEq, Option.some.injEq,
    exists_and_left, exists_eq_left', ← Bool.not_eq_true, NodeKind.isNullLiteral_iff, ne_eq]

/-- **A null test** is a comparison with `null` for equality or its opposite.

**Proof sketch.** A test that is found comes from a binary operator for equality or its opposite
with two children of which exactly one is the null literal, and that is to compare with null. The
other way round, the comparison has two children that are told apart in the same two ways
(`comparesNull_iff`), and each of them is found. -/
lemma Site.nullTest?_eq_some_iff {c x : Site} {op : BinaryOperator} :
    c.nullTest? = some (x, op) ↔ (op = .equal ∨ op = .notEqual) ∧ c.ComparesNull x op := by
  constructor
  · intro h
    unfold nullTest? at h
    split at h
    · rename_i op' hkind
      split_ifs at h with hop
      split at h
      · rename_i left right hleft hright
        rw [comparesNull_iff hkind hleft hright]
        split at h <;> cases h
        · rename_i hr hl
          exact ⟨hop, rfl, .inl ⟨rfl, hl, hr⟩⟩
        · rename_i hl hr
          exact ⟨hop, rfl, .inr ⟨rfl, hl, hr⟩⟩
      · cases h
    · cases h
  · rintro ⟨hop, h⟩
    have hparts := h
    obtain ⟨hkind, left, right, hleft, hright, -⟩ := hparts
    obtain ⟨-, ⟨rfl, hl, hr⟩ | ⟨rfl, hl, hr⟩⟩ := (comparesNull_iff hkind hleft hright).mp h
    · simp only [nullTest?, hkind, if_pos hop, hleft, hright, hl, hr]
    · simp only [nullTest?, hkind, if_pos hop, hleft, hright, hl, hr]

/-- What is tested is what is compared by one of the two operators. -/
lemma Site.exists_nullTest?_iff {c x : Site} : (∃ op, c.nullTest? = some (x, op)) ↔
    c.ComparesNull x .equal ∨ c.ComparesNull x .notEqual := by
  simp only [nullTest?_eq_some_iff, or_and_right, exists_or, exists_eq_left]

/-! ## The parts of an inserted `if` -/

namespace InsertedIf

variable {guard : InsertedIf} {x : Site} {p : String}

/-- The parts are those of the node, which is an `if`. -/
structure Fits (guard : InsertedIf) : Prop where
  kind_eq : guard.node.kind = .ifStatement
  condition_eq : guard.node.child? 0 = some guard.condition
  then_eq : guard.node.child? 1 = some guard.thenBranch
  else_eq : guard.node.child? 2 = guard.elseBranch?

/-- The `if` returns when the parameter `p` of the executable around it is `null`. -/
def ProtectsParameter (guard : InsertedIf) (p : String) : Prop :=
  (∃ x, guard.condition.ComparesNull x .equal ∧ x.kind = .variableRead p) ∧
    guard.thenBranch.Returns ∧
    ∃ executable, guard.node.enclosingExecutable? = some executable ∧
      p ∈ executable.kind.parameters

/-- The branch returns, and `other?`, which is the other branch as far as there is one, does not. -/
def OneReturns (guard : InsertedIf) (branch : Site) (other? : Option Site) : Prop :=
  (branch = guard.thenBranch ∧ other? = guard.elseBranch? ∨
      guard.elseBranch? = some branch ∧ other? = some guard.thenBranch) ∧
    branch.Returns ∧ ∀ other ∈ other?, ¬ other.Returns

/-- A branch returns when the expression `x` is `null` or when it is not, and execution goes on in
`scopes` only if it does not return: in the siblings that follow, and then the other branch. -/
def Guards (guard : InsertedIf) (x : Site) (scopes : List Site) : Prop :=
  (guard.condition.ComparesNull x .equal ∨ guard.condition.ComparesNull x .notEqual) ∧
    ∃ branch other?, guard.OneReturns branch other? ∧
      scopes = guard.node.following ++ other?.toList

/-- The parts of a node are told by the node. -/
lemma Fits.unique {guard' : InsertedIf} (h : guard.Fits) (h' : guard'.Fits)
    (hnode : guard.node = guard'.node) : guard = guard' := by
  cases guard
  cases guard'
  obtain rfl := hnode
  obtain rfl := Option.some.inj (h.condition_eq.symm.trans h'.condition_eq)
  obtain rfl := Option.some.inj (h.then_eq.symm.trans h'.then_eq)
  obtain rfl := h.else_eq.symm.trans h'.else_eq
  rfl

/-- **Taking an `if` apart** gives its parts. -/
lemma insertedIf?_eq_some_iff {node : Site} :
    node.insertedIf? = some guard ↔ guard.node = node ∧ guard.Fits := by
  unfold Site.insertedIf?
  simp only [Pattern.ifStatement_holds]
  constructor
  · intro h
    split_ifs at h with hkind
    obtain ⟨condition, hcondition, hrest⟩ := Option.bind_eq_some_iff.mp h
    obtain ⟨thenBranch, hthen, hguard⟩ := Option.bind_eq_some_iff.mp hrest
    cases hguard
    exact ⟨rfl, hkind, hcondition, hthen, rfl⟩
  · rintro ⟨rfl, hkind, hcondition, hthen, helse⟩
    rw [if_pos hkind, hcondition, hthen, helse]
    rfl

/-- The branches are children of the `if`. -/
lemma Fits.mem_children (h : guard.Fits) : guard.thenBranch ∈ guard.node.children ∧
    ∀ e, guard.elseBranch? = some e → e ∈ guard.node.children :=
  ⟨Site.mem_children_of_child? h.then_eq,
    fun _ he => Site.mem_children_of_child? (h.else_eq.trans he)⟩

/-- The branches of an `if` of a grounded tree stand in grounded trees. -/
lemma Fits.grounded (h : guard.Fits) (hnode : guard.node.tree.Grounded) :
    guard.thenBranch.tree.Grounded ∧ ∀ e, guard.elseBranch? = some e → e.tree.Grounded := by
  obtain ⟨hthen, helse⟩ := h.mem_children
  exact ⟨(Site.tree_of_mem_children hthen).symm ▸ hnode,
    fun e he => (Site.tree_of_mem_children (helse e he)).symm ▸ hnode⟩

/-! ## Where searches start -/

/-- A search starts at a branch of the `if`, or at a sibling that follows. -/
def Scope (guard : InsertedIf) (scope : Site) : Prop :=
  scope ∈ guard.node.children ∨ scope ∈ guard.node.following

/-- A scope stands in the tree of the `if`. -/
lemma Scope.tree_eq {scope : Site} (h : guard.Scope scope) (hnode : guard.node.tree.Linked) :
    scope.tree = guard.node.tree := by
  rcases h with hchild | hsibling
  · exact Site.tree_of_mem_children hchild
  · obtain ⟨p, hp, hp'⟩ := Site.parent?_of_mem_following hnode hsibling
    exact (Site.tree_of_parent? hp').symm.trans (Site.tree_of_parent? hp)

/-- The branch that returns and the other one are scopes. -/
lemma OneReturns.scope {branch : Site} {other? : Option Site} (h : guard.OneReturns branch other?)
    (hfits : guard.Fits) :
    guard.Scope branch ∧ ∀ other, other? = some other → guard.Scope other := by
  obtain ⟨hthen, helse⟩ := hfits.mem_children
  obtain ⟨⟨rfl, rfl⟩ | ⟨hbranch, rfl⟩, -⟩ := h
  · exact ⟨.inl hthen, fun other hother => .inl (helse other hother)⟩
  · exact ⟨.inl (helse branch hbranch), by rintro other ⟨⟩; exact .inl hthen⟩

/-- Dereferences are looked for in scopes. -/
lemma Guards.scope {scopes : List Site} (h : guard.Guards x scopes) (hfits : guard.Fits) :
    ∀ scope ∈ scopes, guard.Scope scope := by
  obtain ⟨-, branch, other?, hreturns, rfl⟩ := h
  intro scope hscope
  rcases List.mem_append.mp hscope with hsibling | hother
  · exact .inr hsibling
  · exact (hreturns.scope hfits).2 scope (Option.mem_toList.mp hother)

/-- The scopes stand in grounded trees. -/
lemma Guards.grounded {scopes : List Site} (h : guard.Guards x scopes) (hfits : guard.Fits)
    (hnode : guard.node.tree.Grounded) : ∀ scope ∈ scopes, scope.tree.Grounded :=
  fun scope hscope => ((h.scope hfits scope hscope).tree_eq hnode.toLinked).symm ▸ hnode

/-! ## What the detectors compute -/

/-- **The parameter that is protected** is found exactly if the guard protects it.

**Proof sketch.** The search goes step by step: a null test for equality, a branch that returns, the
name of the variable that is tested, the executable around the guard, and its parameters. Each step
succeeds exactly if the part of `ProtectsParameter` that it looks for is there, so what is found by
all of them is such a parameter, and the other way round all steps succeed. -/
lemma guardedParameter?_eq_some_iff (h : guard.Fits) (hnode : guard.node.tree.Grounded) :
    guard.guardedParameter? = some p ↔ guard.ProtectsParameter p := by
  have hreturns := Site.reachesReturn_iff (h.grounded hnode).1
  unfold guardedParameter? ProtectsParameter
  constructor
  · intro hp
    obtain ⟨⟨x, op⟩, htest, hrest⟩ := Option.bind_eq_some_iff.mp hp
    obtain ⟨-, hcompares⟩ := Site.nullTest?_eq_some_iff.mp htest
    dsimp only at hrest
    split_ifs at hrest with hguard
    obtain ⟨rfl, hreturn⟩ := hguard
    split at hrest
    · rename_i name hname
      obtain ⟨executable, hexecutable, hparameter⟩ := Option.bind_eq_some_iff.mp hrest
      split_ifs at hparameter with hmem
      cases hparameter
      exact ⟨⟨x, hcompares, hname⟩, hreturns.mp hreturn, executable, hexecutable, hmem⟩
    · cases hrest
  · rintro ⟨⟨x, hcompares, hname⟩, hreturn, executable, hexecutable, hmem⟩
    rw [Site.nullTest?_eq_some_iff.mpr ⟨.inl rfl, hcompares⟩]
    simp only [Option.bind_eq_bind, Option.bind_some, hreturns.mpr hreturn, and_self, if_true,
      hname, hexecutable, hmem]

/-- The branch that does not return, when one does.

**Proof sketch.** The search asks of both branches whether they return, and gives the one that does
not if the other does. Whether a branch returns is what the search for a `return` in it says
(`reachesReturn_iff`), and an else-branch that is missing does not. So there are two ways to have
one branch that returns, and both are found. -/
lemma openBranch?_eq_some_iff (h : guard.Fits) (hnode : guard.node.tree.Grounded)
    {other? : Option Site} :
    guard.openBranch? = some other? ↔ ∃ branch, guard.OneReturns branch other? := by
  obtain ⟨hthenGrounded, helseGrounded⟩ := h.grounded hnode
  have hthen := Site.reachesReturn_iff hthenGrounded
  have helse : guard.elseReturns = true ↔ ∃ e, guard.elseBranch? = some e ∧ e.Returns := by
    rw [elseReturns, Option.any_eq_true]
    refine exists_congr fun e => and_congr_right fun he => ?_
    exact Site.reachesReturn_iff (helseGrounded e he)
  unfold openBranch?
  constructor
  · intro hopen
    split at hopen <;> cases hopen
    · rename_i hthenReturns helseReturns
      refine ⟨guard.thenBranch, .inl ⟨rfl, rfl⟩, hthen.mp hthenReturns, fun e he hreturns => ?_⟩
      rw [helse.mpr ⟨e, he, hreturns⟩] at helseReturns
      cases helseReturns
    · rename_i hthenReturns helseReturns
      obtain ⟨e, he, hreturns⟩ := helse.mp helseReturns
      refine ⟨e, .inr ⟨he, rfl⟩, hreturns, fun t ht hthenReturn => ?_⟩
      cases ht
      rw [hthen.mpr hthenReturn] at hthenReturns
      cases hthenReturns
  · rintro ⟨branch, ⟨rfl, rfl⟩ | ⟨hbranch, rfl⟩, hreturns, hother⟩
    · have helseReturns : guard.elseReturns = false := by
        rw [← Bool.not_eq_true, helse]
        rintro ⟨e, he, hreturn⟩
        exact hother e he hreturn
      rw [hthen.mpr hreturns, helseReturns]
    · have hthenReturns : guard.thenBranch.reachesReturn = false := by
        rw [← Bool.not_eq_true, hthen]
        exact hother _ rfl
      rw [hthenReturns, helse.mpr ⟨branch, hbranch, hreturns⟩]

/-- Looking for a dereference is no fault, whatever the tree is. -/
lemma guardedDereference_isOk (guard : InsertedIf) :
    ∃ found?, guard.guardedDereference = .ok found? := by
  unfold guardedDereference
  split
  · rename_i x op other? htest hopen
    obtain ⟨found?, hfound⟩ := guard.node.dereferenceAfter_isOk x
    rw [hfound]
    cases found? with
    | some found => exact ⟨_, rfl⟩
    | none => exact ⟨_, rfl⟩
  · exact ⟨none, rfl⟩

/-- The code that is searched for a dereference, in the order in which it is searched.

**Proof sketch.** If the condition tests nothing for `null`, or no branch is open, both sides are
empty. Otherwise the siblings behind the `if` are searched first, and the open branch, if there is
one, after them, which is a search through the two lists in a row. -/
lemma guardedDereference_eq (hnode : guard.node.tree.Linked) :
    guard.guardedDereference =
      .ok (guard.condition.nullTest?.bind fun test => guard.openBranch?.bind fun other? =>
        (guard.node.following ++ other?.toList).findSome? (·.dereference? test.1)) := by
  unfold guardedDereference
  cases guard.condition.nullTest? with
  | none => rfl
  | some test =>
    cases guard.openBranch? with
    | none => rfl
    | some other? =>
      have hother : other?.toList.findSome? (·.dereference? test.1) =
          other?.bind (·.dereference? test.1) := by
        cases other? <;> simp
      dsimp only [Option.bind_some]
      rw [Site.dereferenceAfter_eq hnode, List.findSome?_append, hother]
      cases guard.node.following.findSome? (·.dereference? test.1) <;> rfl

/-- **The dereference that is guarded** is the first one where execution goes on.

**Proof sketch.** The search succeeds for every guard, since a place among siblings is found. What
it finds comes from a null test and from a branch that is open; these make up the scopes in which it
looks, first behind the guard and then in the open branch. In scopes without cycles the first answer
is the first dereference (`findSome?_dereference?_eq_some_iff`). -/
lemma guardedDereference_spec (h : guard.Fits) (hnode : guard.node.tree.Grounded) :
    ∃ found?, guard.guardedDereference = .ok found? ∧ ∀ found, found? = some found ↔
      ∃ x scopes, guard.Guards x scopes ∧ Site.FirstDereference scopes x found := by
  refine ⟨_, guardedDereference_eq hnode.toLinked, fun found => ?_⟩
  constructor
  · intro hfound
    obtain ⟨⟨x, op⟩, htest, hrest⟩ := Option.bind_eq_some_iff.mp hfound
    obtain ⟨other?, hopen, hfirst⟩ := Option.bind_eq_some_iff.mp hrest
    obtain ⟨branch, hreturns⟩ := (openBranch?_eq_some_iff h hnode).mp hopen
    have hguards : guard.Guards x (guard.node.following ++ other?.toList) :=
      ⟨Site.exists_nullTest?_iff.mp ⟨op, htest⟩, branch, other?, hreturns, rfl⟩
    exact ⟨x, _, hguards,
      (Site.findSome?_dereference?_eq_some_iff (hguards.grounded h hnode)).mp hfirst⟩
  · rintro ⟨x, scopes, hguards, hfirst⟩
    rw [← Site.findSome?_dereference?_eq_some_iff (hguards.grounded h hnode)] at hfirst
    obtain ⟨hcompares, branch, other?, hreturns, rfl⟩ := hguards
    obtain ⟨op, htest⟩ := Site.exists_nullTest?_iff.mpr hcompares
    rw [htest, (openBranch?_eq_some_iff h hnode).mpr ⟨branch, hreturns⟩]
    exact hfirst

end InsertedIf

end EditIdioms
