import EditIdioms.Detector.Standard
import EditIdioms.Proofs.Detector.Guard
import EditIdioms.Proofs.Diff.Resolution

set_option relaxedAutoImplicit false
set_option autoImplicit false

/-!
# What the standard detectors see

For each of the eight detectors, the edits in which it sees a rule and the rule it sees. Six of them
look at a node, its parent and its place among the siblings, and what they see is told in these
terms whatever the tree is. The guards search, so for them the nodes have to stand in grounded
trees.

None of the detectors reaches for a node that is not there. Two of them ask for a place among
siblings, and one looks into siblings, but only for a node whose parent was found before.

## Main definitions

* `Detector.Sees`, `Detector.Recognises` — what a detector says that is asked about an edit.
* `Edit.Grounded` — the nodes of an edit stand in grounded trees.

## Main results

* `caseFallthrough_sees_iff` and so on — the rules a detector sees.
* `Chain.standard_recognise` — no detector is a fault.
* `FileDiff.grounded_of_mem_edits` — the edits of a compared file without defects.
-/

namespace EditIdioms

variable {edit : Edit Site} {rule : Rule}

/-! ## What a detector sees -/

namespace Detector

/-- The detector is asked about the edit and sees the rule. -/
def Sees (d : Detector) (edit : Edit Site) (rule : Rule) : Prop :=
  d.accepts edit.kind = true ∧ d.recognise edit = .ok (some rule)

instance (d : Detector) : Decidable (d.Sees edit rule) :=
  inferInstanceAs (Decidable (_ ∧ _))

/-- The detector is asked about the edit and sees some rule. -/
def Recognises (d : Detector) (edit : Edit Site) : Prop := ∃ rule, d.Sees edit rule

/-- What a detector for inserted nodes sees. -/
lemma onInsert_sees_iff {name : String} {f : Site → Except ArenaFault (Option Rule)} :
    (onInsert name f).Sees edit rule ↔ ∃ node, edit = .insert node ∧ f node = .ok (some rule) := by
  cases edit <;> simp [Sees, accepts, onInsert, Edit.kind, Edit.inserted?]

/-- What a detector for deleted nodes sees. -/
lemma onDelete_sees_iff {name : String} {f : Site → Except ArenaFault (Option Rule)} :
    (onDelete name f).Sees edit rule ↔ ∃ node, edit = .delete node ∧ f node = .ok (some rule) := by
  cases edit <;> simp [Sees, accepts, onDelete, Edit.kind, Edit.deleted?]

/-- What a detector for updates sees. -/
lemma onPair_update_sees_iff {name : String} {f : Site → Site → Except ArenaFault (Option Rule)} :
    (onPair name .update f).Sees edit rule ↔
      ∃ before after, edit = .update before after ∧ f before after = .ok (some rule) := by
  cases edit <;> simp [Sees, accepts, onPair, Edit.kind, Edit.pair?]

/-- What a detector for moves sees. -/
lemma onPair_move_sees_iff {name : String} {f : Site → Site → Except ArenaFault (Option Rule)} :
    (onPair name .move f).Sees edit rule ↔
      ∃ before after, edit = .move before after ∧ f before after = .ok (some rule) := by
  cases edit <;> simp [Sees, accepts, onPair, Edit.kind, Edit.pair?]

/-- A detector for inserted nodes is no fault if looking at a node is none. -/
lemma onInsert_recognise {name : String} {f : Site → Except ArenaFault (Option Rule)}
    (h : ∀ node, ∃ rule?, f node = .ok rule?) (edit : Edit Site) :
    ∃ rule?, (onInsert name f).recognise edit = .ok rule? := by
  cases edit with
  | insert node => exact h node
  | delete node => exact ⟨none, rfl⟩
  | update before after => exact ⟨none, rfl⟩
  | move before after => exact ⟨none, rfl⟩

/-- A detector for deleted nodes is no fault if looking at a node is none. -/
lemma onDelete_recognise {name : String} {f : Site → Except ArenaFault (Option Rule)}
    (h : ∀ node, ∃ rule?, f node = .ok rule?) (edit : Edit Site) :
    ∃ rule?, (onDelete name f).recognise edit = .ok rule? := by
  cases edit with
  | insert node => exact ⟨none, rfl⟩
  | delete node => exact h node
  | update before after => exact ⟨none, rfl⟩
  | move before after => exact ⟨none, rfl⟩

/-- A detector for pairs of nodes is no fault if looking at two nodes is none. -/
lemma onPair_recognise {name : String} {kind : EditKind}
    {f : Site → Site → Except ArenaFault (Option Rule)}
    (h : ∀ before after, ∃ rule?, f before after = .ok rule?) (edit : Edit Site) :
    ∃ rule?, (onPair name kind f).recognise edit = .ok rule? := by
  cases edit with
  | insert node => exact ⟨none, rfl⟩
  | delete node => exact ⟨none, rfl⟩
  | update before after => exact h before after
  | move before after => exact h before after

end Detector

/-! ## Edits of compared files -/

/-- The nodes of the edit stand in grounded trees. -/
structure Edit.Grounded (edit : Edit Site) : Prop where
  before {s : Site} : edit.before? = some s → s.tree.Grounded
  after {s : Site} : edit.after? = some s → s.tree.Grounded

namespace FileDiff

variable {d : FileDiff}

/-- Without a defect both trees are grounded. -/
lemma trees_grounded (h : d.defect? = none) : d.before.Grounded ∧ d.after.Grounded := by
  obtain ⟨hbefore, hafter, -⟩ := defect?_eq_none_iff.mp h
  exact ⟨Tree.grounded_of_validate hbefore, Tree.grounded_of_validate hafter⟩

/-- The nodes of an edit stand in the two trees. -/
lemma tree_of_mem_edits (h : edit ∈ d.edits) :
    (∀ s, edit.before? = some s → s.tree = d.before) ∧
      ∀ s, edit.after? = some s → s.tree = d.after := by
  obtain ⟨operation, -, hresolve⟩ := List.mem_filterMap.mp h
  have hsite : ∀ {t : Tree} {id : NodeId} {s : Site}, t.site? id = some s → s.tree = t :=
    fun h => (Tree.site?_eq_some_iff.mp h).1
  cases operation with
  | insert node =>
    obtain ⟨a, ha, rfl⟩ := Option.map_eq_some_iff.mp hresolve
    exact ⟨nofun, fun s hs => Option.some.inj hs ▸ hsite ha⟩
  | delete node =>
    obtain ⟨b, hb, rfl⟩ := Option.map_eq_some_iff.mp hresolve
    exact ⟨fun s hs => Option.some.inj hs ▸ hsite hb, nofun⟩
  | update before after | move before after =>
    obtain ⟨b, hb, hrest⟩ := Option.bind_eq_some_iff.mp hresolve
    obtain ⟨a, ha, hedit⟩ := Option.bind_eq_some_iff.mp hrest
    cases hedit
    exact ⟨fun s hs => Option.some.inj hs ▸ hsite hb, fun s hs => Option.some.inj hs ▸ hsite ha⟩

/-- **The edits of a compared file without defects** change nodes of grounded trees. -/
lemma grounded_of_mem_edits (h : d.defect? = none) (hedit : edit ∈ d.edits) : edit.Grounded := by
  obtain ⟨hbefore, hafter⟩ := trees_grounded h
  obtain ⟨hinBefore, hinAfter⟩ := tree_of_mem_edits hedit
  exact ⟨fun hs => (hinBefore _ hs).symm ▸ hbefore, fun hs => (hinAfter _ hs).symm ▸ hafter⟩

end FileDiff

/-! ## Insertions -/

/-- A `break` or `return` is seen directly in an arm.

**Proof sketch.** The pattern holds of a node exactly if it is a `break` or a `return` whose parent
is an arm. The rule is told by the kind of the node, so each of the two kinds gives its own. -/
lemma caseFallthrough_sees_iff : caseFallthrough.Sees edit rule ↔
    ∃ node arm, edit = .insert node ∧ node.parent? = some arm ∧ arm.kind = .caseArm ∧
      (node.kind = .breakStatement ∧ rule = .missingBreakInCase ∨
        node.kind = .returnStatement ∧ rule = .missingReturnInCase) := by
  rw [caseFallthrough, Detector.onInsert_sees_iff]
  constructor
  · rintro ⟨node, rfl, hnode⟩
    dsimp only at hnode
    split_ifs at hnode with hholds
    · simp only [Pattern.all_holds, Pattern.any_holds, Pattern.breakStatement_holds,
        Pattern.returnStatement_holds, Pattern.childOf_holds, Pattern.caseArm_holds] at hholds
      obtain ⟨hkind, arm, hparent, harm⟩ := hholds
      refine ⟨node, arm, rfl, hparent, harm, ?_⟩
      rcases hkind with hkind | hkind
      · rw [hkind] at hnode
        cases hnode
        exact .inl ⟨hkind, rfl⟩
      · rw [hkind] at hnode
        cases hnode
        exact .inr ⟨hkind, rfl⟩
    · cases hnode
  · rintro ⟨node, arm, rfl, hparent, harm, ⟨hkind, rfl⟩ | ⟨hkind, rfl⟩⟩ <;>
      exact ⟨node, rfl, by simp [hkind, hparent, harm]⟩

/-- A negation is seen as the first child of an `if` or a `while`.

**Proof sketch.** The detector looks at the kind of the node and of its parent by a pattern, and
then at its position. The position is asked for after the parent was found, so it can be had
(`indexInParent_eq`), and it is zero exactly if the node is the first one that the parent lists
(`hfirst`). -/
lemma negatedCondition_sees_iff : negatedCondition.Sees edit rule ↔
    ∃ node parent, edit = .insert node ∧ node.kind = .unary .not ∧ node.parent? = some parent ∧
      (parent.kind = .ifStatement ∨ parent.kind = .whileLoop) ∧
        parent.node.children.head? = some node.id ∧ rule = .conditionalNegated := by
  rw [negatedCondition, Detector.onInsert_sees_iff]
  have hfirst : ∀ {ids : List NodeId} {id : NodeId},
      ids.idxOf? id = some 0 ↔ ids.head? = some id := by
    intro ids id
    cases ids with
    | nil => simp
    | cons first rest => by_cases hid : first = id <;> simp [List.idxOf?_cons, hid]
  constructor
  · rintro ⟨node, rfl, hnode⟩
    split_ifs at hnode with hnot
    · obtain ⟨hkind, hparent⟩ := hnot
      simp only [Pattern.childOf_holds, Pattern.any_holds, Pattern.ifStatement_holds,
        Pattern.whileLoop_holds] at hparent
      obtain ⟨parent, hparent, hcondition⟩ := hparent
      rw [Site.indexInParent_eq hparent] at hnode
      change Except.ok (if _ then _ else _) = _ at hnode
      split_ifs at hnode with hposition
      · cases hnode
        exact ⟨node, parent, rfl, hkind, hparent, hcondition, hfirst.mp hposition, rfl⟩
      · cases hnode
    · cases hnode
  · rintro ⟨node, parent, rfl, hkind, hparent, hcondition, hposition, rfl⟩
    refine ⟨node, rfl, ?_⟩
    rw [if_pos, Site.indexInParent_eq hparent, hfirst.mpr hposition]
    · rfl
    · simp [hkind, hparent, hcondition]

/-- The guard for a parameter is seen when it protects one. -/
lemma preconditionGuard_sees_iff (h : edit.Grounded) : preconditionGuard.Sees edit rule ↔
    ∃ (guard : InsertedIf) (parameter : String), edit = .insert guard.node ∧ guard.Fits ∧
      guard.ProtectsParameter parameter ∧ rule = .preconditionGuardInserted parameter := by
  rw [preconditionGuard, Detector.onInsert_sees_iff]
  constructor
  · rintro ⟨node, rfl, hnode⟩
    obtain ⟨parameter, hparameter, rfl⟩ := Option.map_eq_some_iff.mp (Except.ok.inj hnode)
    obtain ⟨guard, hguard, hprotected⟩ := Option.bind_eq_some_iff.mp hparameter
    obtain ⟨rfl, hfits⟩ := InsertedIf.insertedIf?_eq_some_iff.mp hguard
    exact ⟨guard, parameter, rfl, hfits,
      (InsertedIf.guardedParameter?_eq_some_iff hfits (h.after rfl)).mp hprotected, rfl⟩
  · rintro ⟨guard, parameter, rfl, hfits, hprotected, rfl⟩
    refine ⟨guard.node, rfl, ?_⟩
    rw [InsertedIf.insertedIf?_eq_some_iff.mpr ⟨rfl, hfits⟩, Option.bind_some,
      (InsertedIf.guardedParameter?_eq_some_iff hfits (h.after rfl)).mpr hprotected]
    rfl

/-- The guard for a dereference is seen when it guards one.

**Proof sketch.** An inserted node that is an `if` with its parts is one that fits
(`insertedIf?_eq_some_iff`), and what it guards is told by `guardedDereference_spec`. The rule is
that of the dereference that is found. -/
lemma nullDereferenceGuard_sees_iff (h : edit.Grounded) : nullDereferenceGuard.Sees edit rule ↔
    ∃ (guard : InsertedIf) (x : Site) (scopes : List Site) (found : Dereference),
      edit = .insert guard.node ∧ guard.Fits ∧ guard.Guards x scopes ∧
        Site.FirstDereference scopes x found ∧ rule = found.guardRule := by
  rw [nullDereferenceGuard, Detector.onInsert_sees_iff]
  constructor
  · rintro ⟨node, rfl, hnode⟩
    split at hnode
    · cases hnode
    · rename_i guard hguard
      obtain ⟨rfl, hfits⟩ := InsertedIf.insertedIf?_eq_some_iff.mp hguard
      obtain ⟨found?, hfound, hspec⟩ := InsertedIf.guardedDereference_spec hfits (h.after rfl)
      rw [hfound] at hnode
      obtain ⟨found, rfl, rfl⟩ := Option.map_eq_some_iff.mp (Except.ok.inj hnode)
      obtain ⟨x, scopes, hguards, hfirst⟩ := (hspec found).mp rfl
      exact ⟨guard, x, scopes, found, rfl, hfits, hguards, hfirst, rfl⟩
  · rintro ⟨guard, x, scopes, found, rfl, hfits, hguards, hfirst, rfl⟩
    refine ⟨guard.node, rfl, ?_⟩
    obtain ⟨found?, hfound, hspec⟩ := InsertedIf.guardedDereference_spec hfits (h.after rfl)
    rw [InsertedIf.insertedIf?_eq_some_iff.mpr ⟨rfl, hfits⟩]
    change (guard.guardedDereference >>= _) = _
    rw [hfound, (hspec found).mpr ⟨x, scopes, hguards, hfirst⟩]
    rfl

/-! ## Deletions, updates and moves -/

/-- A deleted operator is seen whatever it is. -/
lemma operatorDeleted_sees_iff : operatorDeleted.Sees edit rule ↔
    ∃ node op, edit = .delete node ∧ node.kind = .binary op ∧
      rule = .binaryOperatorDeleted op := by
  rw [operatorDeleted, Detector.onDelete_sees_iff]
  constructor
  · rintro ⟨node, rfl, hnode⟩
    split at hnode
    · rename_i op hkind
      cases hnode
      exact ⟨node, op, rfl, hkind, rfl⟩
    · cases hnode
  · rintro ⟨node, op, rfl, hkind, rfl⟩
    exact ⟨node, rfl, by rw [hkind]⟩

/-- An operator is seen to be replaced by another one. -/
lemma operatorReplaced_sees_iff : operatorReplaced.Sees edit rule ↔
    ∃ before after src dst, edit = .update before after ∧ before.kind = .binary src ∧
      after.kind = .binary dst ∧ src ≠ dst ∧ rule = .binaryOperatorReplaced src dst := by
  rw [operatorReplaced, Detector.onPair_update_sees_iff]
  constructor
  · rintro ⟨before, after, rfl, hnodes⟩
    split at hnodes
    · rename_i src dst hsrc hdst
      split_ifs at hnodes with hsame
      · cases hnodes
      · obtain rfl := Option.some.inj (Except.ok.inj hnodes)
        exact ⟨before, after, src, dst, rfl, hsrc, hdst, hsame, rfl⟩
    · cases hnodes
  · rintro ⟨before, after, src, dst, rfl, hsrc, hdst, hne, rfl⟩
    exact ⟨before, after, rfl, by rw [hsrc, hdst]; simp [hne]⟩

/-- A literal is seen to be replaced by a literal of another value, or by something else.

**Proof sketch.** The detector distinguishes whether the node after the change is a literal too. If
it is, the two are compared, and only different ones count. If it is not, whatever it is, the rule
has no second literal. -/
lemma literalReplaced_sees_iff : literalReplaced.Sees edit rule ↔
    ∃ before after src, edit = .update before after ∧ before.kind = .literal src ∧
      ((∃ dst, after.kind = .literal dst ∧ dst.equal src = false ∧
          rule = .literalReplaced src (some dst)) ∨
        (∀ dst, after.kind ≠ .literal dst) ∧ rule = .literalReplaced src none) := by
  rw [literalReplaced, Detector.onPair_update_sees_iff]
  constructor
  · rintro ⟨before, after, rfl, hnodes⟩
    split at hnodes
    · rename_i src dst hsrc hdst
      split_ifs at hnodes with hsame
      · cases hnodes
      · obtain rfl := Option.some.inj (Except.ok.inj hnodes)
        exact ⟨before, after, src, rfl, hsrc, .inl ⟨dst, hdst, by simpa using hsame, rfl⟩⟩
    · rename_i src hsrc hother
      cases hnodes
      exact ⟨before, after, src, rfl, hsrc, .inr ⟨hother, rfl⟩⟩
    · cases hnodes
  · rintro ⟨before, after, src, rfl, hsrc, ⟨dst, hdst, hne, rfl⟩ | ⟨hother, rfl⟩⟩
    · exact ⟨before, after, rfl, by rw [hsrc, hdst]; simp [hne]⟩
    · refine ⟨before, after, rfl, ?_⟩
      rw [hsrc]
      cases hdst : after.kind with
      | literal dst => exact absurd hdst (hother dst)
      | _ => rfl

/-- A receiver or argument is seen to be moved out of a call, not into another one.

**Proof sketch.** The pattern holds exactly if the parent of the node before the change is a call
and that of the node after it, if there is one, is none. The position is asked for after the call
was found, so it can be had (`indexInParent_eq`), and it is the one that the rule tells. -/
lemma argumentPropagated_sees_iff : argumentPropagated.Sees edit rule ↔
    ∃ before after call signature position, edit = .move before after ∧
      before.parent? = some call ∧ call.kind = .invocation signature ∧
        (∀ p signature', after.parent? = some p → p.kind ≠ .invocation signature') ∧
          call.node.children.idxOf? before.id = some position ∧
            rule = .argumentPropagated (.ofNat position) := by
  rw [argumentPropagated, Detector.onPair_move_sees_iff]
  constructor
  · rintro ⟨before, after, rfl, hnodes⟩
    dsimp only at hnodes
    split_ifs at hnodes with hholds
    · simp only [Bool.and_eq_true, Pattern.childOf_holds, Pattern.not_holds,
        Pattern.invocation_holds] at hholds
      obtain ⟨⟨call, hcall, signature, hsignature⟩, hafter⟩ := hholds
      rw [Site.indexInParent_eq hcall] at hnodes
      obtain ⟨position, hposition, rfl⟩ := Option.map_eq_some_iff.mp (Except.ok.inj hnodes)
      exact ⟨before, after, call, signature, position, rfl, hcall, hsignature,
        fun p signature' hp hk => hafter ⟨p, hp, signature', hk⟩, hposition, rfl⟩
    · cases hnodes
  · rintro ⟨before, after, call, signature, position, rfl, hcall, hsignature, hafter, hposition,
      rfl⟩
    refine ⟨before, after, rfl, ?_⟩
    dsimp only
    rw [if_pos, Site.indexInParent_eq hcall, hposition]
    · rfl
    · simp only [Bool.and_eq_true, Pattern.childOf_holds, Pattern.not_holds,
        Pattern.invocation_holds]
      refine ⟨⟨call, hcall, signature, hsignature⟩, ?_⟩
      rintro ⟨p, hp, signature', hk⟩
      exact hafter p signature' hp hk

/-! ## No faults -/

/-- **No detector is a fault**, whatever the trees are. A place among siblings is asked for only
after the parent was found.

**Proof sketch.** One detector after the other, each as a function of the nodes of its operation.
Most of them only look at kinds. A place among siblings is asked for by three of them: two have
found the parent by a pattern before, and the guard for dereferences asks for the place of an `if`
whose siblings it looks at (`guardedDereference_isOk`). -/
lemma Chain.standard_recognise (edit : Edit Site) :
    ∀ d ∈ Chain.standard, ∃ rule?, d.recognise edit = .ok rule? := by
  simp only [standard, List.forall_mem_cons, List.not_mem_nil, false_implies, implies_true,
    and_true]
  refine ⟨Detector.onInsert_recognise (fun node => ?_) edit,
    Detector.onInsert_recognise (fun node => ⟨_, rfl⟩) edit,
    Detector.onInsert_recognise (fun node => ?_) edit,
    Detector.onInsert_recognise (fun node => ?_) edit,
    Detector.onPair_recognise (fun before after => ?_) edit,
    Detector.onDelete_recognise (fun node => ?_) edit,
    Detector.onPair_recognise (fun before after => ?_) edit,
    Detector.onPair_recognise (fun before after => ?_) edit⟩
  -- The goals left are the detectors in their order, less the guard for parameters.
  · dsimp only
    split
    · split <;> exact ⟨_, rfl⟩
    · exact ⟨_, rfl⟩
  · split
    · exact ⟨_, rfl⟩
    · rename_i guard _
      obtain ⟨found?, hfound⟩ := guard.guardedDereference_isOk
      rw [hfound]
      exact ⟨_, rfl⟩
  · split
    · rename_i hnegation
      obtain ⟨parent, hparent, -⟩ := Pattern.childOf_holds.mp hnegation.2
      rw [Site.indexInParent_eq hparent]
      exact ⟨_, rfl⟩
    · exact ⟨_, rfl⟩
  · split <;> exact ⟨_, rfl⟩
  · split <;> exact ⟨_, rfl⟩
  · split <;> exact ⟨_, rfl⟩
  · dsimp only
    split
    · rename_i hmoved
      obtain ⟨call, hcall, -⟩ := Pattern.childOf_holds.mp (Bool.and_eq_true_iff.mp hmoved).1
      rw [Site.indexInParent_eq hcall]
      exact ⟨_, rfl⟩
    · exact ⟨_, rfl⟩

end EditIdioms
