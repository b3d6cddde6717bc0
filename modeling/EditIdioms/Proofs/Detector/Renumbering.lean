import EditIdioms.Proofs.Code.Renumbering
import EditIdioms.Proofs.Detector.Slots

set_option relaxedAutoImplicit false
set_option autoImplicit false

/-!
# Detectors and the numbers of nodes

When the nodes of both revisions of a compared file are given other numbers and the edit script
follows them, the file stays free of defects and the standard chain sees the rules it saw. Each
detector looks at a site through questions that have the same answer on the moved site, so the proof
goes through the detectors one by one and never looks at the order in which they are asked.

## Main definitions

* `Edit.renumber`, `Edit.Renumbered` — an edit that follows the nodes, by number and by site.
* `FileDiff.Renumbers`, `FileDiff.renumber` — a compared file that has become another one.
* `Detector.IgnoresNumbers` — a detector that sees in the moved edit what it saw before.

## Main results

* `Chain.standard_ignoresNumbers` — the standard detectors ignore numbers.
* `FileDiff.renumbers_renumber` — every permutation of the places is a renumbering.
* `FileDiff.Renumbers.defect?_eq_none`, `FileDiff.Renumbers.rel_edits` — the file stays free of
  defects, and its edits correspond in script order.
* `Chain.numbers_do_not_matter` — the slots are the same.
-/

namespace EditIdioms

open Site

variable {f g : NodeId → NodeId}

/-! ## Edits -/

/-- The operation with its nodes led to other numbers. -/
def Edit.renumber (f g : NodeId → NodeId) : Edit NodeId → Edit NodeId
  | insert node => insert (g node)
  | delete node => delete (f node)
  | update before after => update (f before) (g after)
  | move before after => move (f before) (g after)

/-- The sites of an edit have become others. -/
inductive Edit.Renumbered (f g : NodeId → NodeId) : Edit Site → Edit Site → Prop
  | insert {node node' : Site} (h : node.Renumbered g node') :
    Renumbered f g (.insert node) (.insert node')
  | delete {node node' : Site} (h : node.Renumbered f node') :
    Renumbered f g (.delete node) (.delete node')
  | update {before before' after after' : Site} (hb : before.Renumbered f before')
    (ha : after.Renumbered g after') :
    Renumbered f g (.update before after) (.update before' after')
  | move {before before' after after' : Site} (hb : before.Renumbered f before')
    (ha : after.Renumbered g after') :
    Renumbered f g (.move before after) (.move before' after')

/-- The kind of edit is the same. -/
lemma Edit.Renumbered.kind_eq {edit edit' : Edit Site} (h : edit.Renumbered f g edit') :
    edit'.kind = edit.kind := by
  cases h <;> rfl

/-! ## Detectors -/

namespace Detector

/-- Numbers are nothing to the detector: in a moved edit it sees what it saw before. -/
def IgnoresNumbers (d : Detector) : Prop :=
  ∀ {f g : NodeId → NodeId} {edit edit' : Edit Site}, edit.Renumbered f g edit' →
    d.recognise edit' = d.recognise edit

/-- A detector for inserted nodes ignores numbers if looking at a node does. -/
lemma onInsert_ignoresNumbers {name : String} {r : Site → Except ArenaFault (Option Rule)}
    (h : ∀ {f : NodeId → NodeId} {node node' : Site}, node.Renumbered f node' → r node' = r node) :
    (onInsert name r).IgnoresNumbers := by
  intro f g edit edit' hedit
  cases hedit with
  | insert hnode => exact h hnode
  | delete hnode => rfl
  | update hb ha => rfl
  | move hb ha => rfl

/-- A detector for deleted nodes ignores numbers if looking at a node does. -/
lemma onDelete_ignoresNumbers {name : String} {r : Site → Except ArenaFault (Option Rule)}
    (h : ∀ {f : NodeId → NodeId} {node node' : Site}, node.Renumbered f node' → r node' = r node) :
    (onDelete name r).IgnoresNumbers := by
  intro f g edit edit' hedit
  cases hedit with
  | insert hnode => rfl
  | delete hnode => exact h hnode
  | update hb ha => rfl
  | move hb ha => rfl

/-- A detector for pairs of nodes ignores numbers if looking at two nodes does. -/
lemma onPair_ignoresNumbers {name : String} {kind : EditKind}
    {r : Site → Site → Except ArenaFault (Option Rule)}
    (h : ∀ {f g : NodeId → NodeId} {before before' after after' : Site},
      before.Renumbered f before' → after.Renumbered g after' →
        r before' after' = r before after) :
    (onPair name kind r).IgnoresNumbers := by
  intro f g edit edit' hedit
  cases hedit with
  | insert hnode => rfl
  | delete hnode => rfl
  | update hb ha => exact h hb ha
  | move hb ha => exact h hb ha

end Detector

/-! ### The parts of an inserted `if` -/

namespace InsertedIf

/-- The parts of an `if` have become those of another one. -/
structure Renumbered (f : NodeId → NodeId) (guard guard' : InsertedIf) : Prop where
  node : guard.node.Renumbered f guard'.node
  condition : guard.condition.Renumbered f guard'.condition
  thenBranch : guard.thenBranch.Renumbered f guard'.thenBranch
  elseBranch? : Option.Rel (Site.Renumbered f) guard.elseBranch? guard'.elseBranch?

/-- The moved `if` has the moved parts. -/
lemma rel_insertedIf? {node node' : Site} (h : node.Renumbered f node') :
    Option.Rel (Renumbered f) node.insertedIf? node'.insertedIf? := by
  have hcondition := h.rel_child? 0
  have hthen := h.rel_child? 1
  unfold insertedIf?
  rw [h.holds_eq]
  cases Pattern.ifStatement.holds node with
  | false => exact .none
  | true =>
    generalize node.child? 0 = condition?, node'.child? 0 = condition'? at hcondition
    generalize node.child? 1 = then?, node'.child? 1 = then'? at hthen
    cases hcondition with
    | none => exact .none
    | some hcondition =>
      cases hthen with
      | none => exact .none
      | some hthen => exact .some ⟨h, hcondition, hthen, h.rel_child? 2⟩

namespace Renumbered

variable {guard guard' : InsertedIf}

/-- The parameter that a guard protects is the same.

**Proof sketch.** What is asked about the guard has the same answer in both trees: the expression
that is tested has moved and has the same kind, the branch returns or does not, and the executable
around has moved with its parameters. Where one of them is missing, it is missing in both. -/
lemma guardedParameter?_eq (h : guard.Renumbered f guard') :
    guard'.guardedParameter? = guard.guardedParameter? := by
  have htest := h.condition.rel_nullTest?
  have hexecutable := h.node.rel_enclosingExecutable?
  unfold guardedParameter?
  rw [h.thenBranch.reachesReturn_eq]
  generalize guard.condition.nullTest? = test?, guard'.condition.nullTest? = test'? at htest
  generalize guard.node.enclosingExecutable? = executable?,
    guard'.node.enclosingExecutable? = executable'? at hexecutable
  cases htest with
  | none => rfl
  | @some test test' htest =>
    obtain ⟨tested, op⟩ := test
    obtain ⟨tested', op'⟩ := test'
    obtain ⟨htested, rfl⟩ := htest
    have hkind : tested'.kind = tested.kind := htested.kind_eq
    simp only [Option.bind_eq_bind, Option.bind_some, hkind]
    cases hexecutable with
    | none => rfl
    | some hexecutable => simp only [Option.bind_some, hexecutable.kind_eq]

/-- The branch that does not return has moved. -/
lemma rel_openBranch? (h : guard.Renumbered f guard') :
    Option.Rel (Option.Rel (Site.Renumbered f)) guard.openBranch? guard'.openBranch? := by
  have helse : guard'.elseReturns = guard.elseReturns :=
    any_eq_of_rel h.elseBranch? fun _ _ hbranch => hbranch.reachesReturn_eq
  unfold openBranch?
  rw [h.thenBranch.reachesReturn_eq, helse]
  cases guard.thenBranch.reachesReturn <;> cases guard.elseReturns
  · exact .none
  · exact .some (.some h.thenBranch)
  · exact .some h.elseBranch?
  · exact .none

/-- The dereference that a guard protects is the same.

**Proof sketch.** The tested expression has moved, and so has the open branch, if there is one.
Dereferences of what has moved are the same behind the guard (`dereferenceAfter_eq`) and inside the
branch (`dereference?_eq`), so the first one is the same as well. -/
lemma guardedDereference_eq (h : guard.Renumbered f guard') :
    guard'.guardedDereference = guard.guardedDereference := by
  have htest := h.condition.rel_nullTest?
  have hbranch := h.rel_openBranch?
  unfold guardedDereference
  generalize guard.condition.nullTest? = test?, guard'.condition.nullTest? = test'? at htest
  generalize guard.openBranch? = branch?, guard'.openBranch? = branch'? at hbranch
  cases htest with
  | none => rfl
  | @some test test' htest =>
    obtain ⟨tested, op⟩ := test
    obtain ⟨tested', op'⟩ := test'
    have htested : tested.Renumbered f tested' := htest.1
    cases hbranch with
    | none => rfl
    | @some branch? branch'? hbranch =>
      have hinside : (branch'?.bind (·.dereference? tested')) =
          branch?.bind (·.dereference? tested) := by
        cases hbranch with
        | none => rfl
        | some hbranch => exact hbranch.dereference?_eq htested
      simp only [h.node.dereferenceAfter_eq htested, hinside]

end Renumbered

end InsertedIf

/-! ### The standard detectors -/

/-- **The standard detectors** ignore numbers: what they see in an edit they see in the edit with
its sites moved.

**Proof sketch.** One detector after the other. Those that look at kinds, parents and positions find
the same ones, as moved sites agree in them. The two guards look at an `if` with its parts, which
has moved as a whole, and at what it guards, which is the same (`guardedParameter?_eq`,
`guardedDereference_eq`). -/
lemma Chain.standard_ignoresNumbers : ∀ d ∈ Chain.standard, d.IgnoresNumbers := by
  intro d hd
  simp only [Chain.standard, List.mem_cons, List.not_mem_nil, or_false] at hd
  rcases hd with rfl | rfl | rfl | rfl | rfl | rfl | rfl | rfl
  · refine Detector.onInsert_ignoresNumbers fun hnode => ?_
    simp only [hnode.holds_eq, hnode.kind_eq]
  · refine Detector.onInsert_ignoresNumbers fun {f node node'} hnode => ?_
    have hguard := InsertedIf.rel_insertedIf? hnode
    generalize node.insertedIf? = guard?, node'.insertedIf? = guard'? at hguard
    cases hguard with
    | none => rfl
    | some hguard => simp only [Option.bind_some, hguard.guardedParameter?_eq]
  · refine Detector.onInsert_ignoresNumbers fun {f node node'} hnode => ?_
    have hguard := InsertedIf.rel_insertedIf? hnode
    generalize node.insertedIf? = guard?, node'.insertedIf? = guard'? at hguard
    cases hguard with
    | none => rfl
    | some hguard => simp only [hguard.guardedDereference_eq]
  · refine Detector.onInsert_ignoresNumbers fun hnode => ?_
    simp only [hnode.kind_eq, hnode.holds_eq, hnode.indexInParent_eq]
  · refine Detector.onPair_ignoresNumbers fun hbefore hafter => ?_
    simp only [hbefore.kind_eq, hafter.kind_eq]
  · refine Detector.onDelete_ignoresNumbers fun hnode => ?_
    simp only [hnode.kind_eq]
  · refine Detector.onPair_ignoresNumbers fun hbefore hafter => ?_
    simp only [hbefore.kind_eq, hafter.kind_eq]
  · refine Detector.onPair_ignoresNumbers fun hbefore hafter => ?_
    simp only [hbefore.holds_eq, hafter.holds_eq, hbefore.indexInParent_eq]

/-- A chain of detectors that ignore numbers ignores them too. -/
lemma Chain.classify_eq_of_renumbered {chain : Chain} (hchain : ∀ d ∈ chain, d.IgnoresNumbers)
    {edit edit' : Edit Site} (h : edit.Renumbered f g edit') :
    chain.classify edit' = chain.classify edit := by
  induction chain with
  | nil => rfl
  | cons d chain ih =>
    have hfirst := hchain d List.mem_cons_self h
    have hrest := ih fun d' hd' => hchain d' (List.mem_cons_of_mem _ hd')
    rw [classify, classify, h.kind_eq, hfirst, hrest]

/-! ## Compared files -/

namespace FileDiff

/-- The nodes of both revisions were given other numbers, and the edit script has followed them. -/
structure Renumbers (f g : NodeId → NodeId) (d d' : FileDiff) : Prop where
  before : d.before.Renumbers f d'.before
  after : d.after.Renumbers g d'.after
  operations_eq : d'.operations = d.operations.map (·.renumber f g)

/-- The compared file after the nodes of both revisions were moved to other places. -/
def renumber (d : FileDiff) (σ : Equiv.Perm (Fin d.before.size))
    (τ : Equiv.Perm (Fin d.after.size)) : FileDiff where
  path := d.path
  before := d.before.renumber σ
  after := d.after.renumber τ
  operations := d.operations.map (·.renumber (d.before.numbering σ) (d.after.numbering τ))

variable {d d' : FileDiff}

/-- **All permutations of the places** renumber a compared file, if there are numbers for them. -/
lemma renumbers_renumber (hbefore : d.before.size ≤ UInt32.size)
    (hafter : d.after.size ≤ UInt32.size) (σ : Equiv.Perm (Fin d.before.size))
    (τ : Equiv.Perm (Fin d.after.size)) :
    d.Renumbers (d.before.numbering σ) (d.after.numbering τ) (d.renumber σ τ) :=
  ⟨Tree.renumbers_renumber hbefore σ, Tree.renumbers_renumber hafter τ, rfl⟩

/-- The nodes of a moved operation are there if they were. -/
lemma Renumbers.names (h : d.Renumbers f g d') {operation : Edit NodeId}
    (hnames : d.Names operation) : d'.Names (operation.renumber f g) := by
  have hb : ∀ {id : NodeId}, d.before.contains id → d'.before.contains (f id) := fun hid =>
    h.before.contains_iff.mpr ⟨_, hid, rfl⟩
  have ha : ∀ {id : NodeId}, d.after.contains id → d'.after.contains (g id) := fun hid =>
    h.after.contains_iff.mpr ⟨_, hid, rfl⟩
  cases operation with
  | insert node => exact ⟨nofun, fun hid => Option.some.inj hid ▸ ha (hnames.after rfl)⟩
  | delete node => exact ⟨fun hid => Option.some.inj hid ▸ hb (hnames.before rfl), nofun⟩
  | update before after | move before after =>
    exact ⟨fun hid => Option.some.inj hid ▸ hb (hnames.before rfl),
      fun hid => Option.some.inj hid ▸ ha (hnames.after rfl)⟩

/-- **A file without defects** has become one. -/
lemma Renumbers.defect?_eq_none (h : d.Renumbers f g d') (hd : d.defect? = none) :
    d'.defect? = none := by
  obtain ⟨hbefore, hafter, hnames⟩ := defect?_eq_none_iff.mp hd
  refine defect?_eq_none_iff.mpr ⟨h.before.validate_eq_none hbefore,
    h.after.validate_eq_none hafter, ?_⟩
  rw [h.operations_eq]
  exact List.forall_mem_map.mpr fun operation hmem => h.names (hnames operation hmem)

/-- An operation that counts is resolved to the moved edit.

**Proof sketch.** By the kind of the operation. The nodes that it names are in the old trees, so the
sites there have moved to those with the new numbers (`rel_site?`). An operation on two nodes needs
both sites; if one is missing in the old trees, it is missing in the new ones. -/
lemma Renumbers.rel_resolve? (h : d.Renumbers f g d') (hbefore : d.before.Linked)
    (hafter : d.after.Linked) {operation : Edit NodeId} (hnames : d.Names operation) :
    Option.Rel (Edit.Renumbered f g) (d.resolve? operation)
      (d'.resolve? (operation.renumber f g)) := by
  have hb : ∀ {id : NodeId}, d.before.contains id →
      Option.Rel (Site.Renumbered f) (d.before.site? id) (d'.before.site? (f id)) :=
    rel_site? h.before hbefore
  have ha : ∀ {id : NodeId}, d.after.contains id →
      Option.Rel (Site.Renumbered g) (d.after.site? id) (d'.after.site? (g id)) :=
    rel_site? h.after hafter
  cases operation with
  | insert node =>
    have hnode := ha (hnames.after rfl)
    rw [resolve?, Edit.renumber, resolve?]
    generalize d.after.site? node = s?, d'.after.site? (g node) = s'? at hnode
    cases hnode with
    | none => exact .none
    | some hnode => exact .some (.insert hnode)
  | delete node =>
    have hnode := hb (hnames.before rfl)
    rw [resolve?, Edit.renumber, resolve?]
    generalize d.before.site? node = s?, d'.before.site? (f node) = s'? at hnode
    cases hnode with
    | none => exact .none
    | some hnode => exact .some (.delete hnode)
  | update before after | move before after =>
    have hbefore := hb (hnames.before rfl)
    have hafter := ha (hnames.after rfl)
    rw [resolve?, Edit.renumber, resolve?]
    generalize d.before.site? before = b?, d'.before.site? (f before) = b'? at hbefore
    generalize d.after.site? after = a?, d'.after.site? (g after) = a'? at hafter
    cases hbefore with
    | none => exact .none
    | some hbefore =>
      cases hafter with
      | none => exact .none
      | some hafter => exact .some (by constructor <;> assumption)

/-- **The edits** correspond, one by one and in script order. -/
lemma Renumbers.rel_edits (h : d.Renumbers f g d') (hd : d.defect? = none) :
    List.Forall₂ (Edit.Renumbered f g) d.edits d'.edits := by
  obtain ⟨hbefore, hafter⟩ := trees_grounded hd
  obtain ⟨-, -, hnames⟩ := defect?_eq_none_iff.mp hd
  have hoperations : List.Forall₂ (fun o o' => d.Names o ∧ o' = o.renumber f g) d.operations
      d'.operations := by
    rw [h.operations_eq]
    exact List.forall₂_map_right_iff.mpr
      (List.forall₂_same.mpr fun operation hmem => ⟨hnames operation hmem, rfl⟩)
  refine List.rel_filterMap (fun operation operation' hoperation => ?_) hoperations
  obtain ⟨hnames, rfl⟩ := hoperation
  exact h.rel_resolve? hbefore.toLinked hafter.toLinked hnames

end FileDiff

/-- **The numbers of nodes do not matter.** Let the nodes of both revisions of a compared file
without defects be given other numbers, with all links and the edit script following them and the
children of each node in order. Then the file still has no defect, and the standard chain fills the
same slots.

**Proof sketch.** A renumbering keeps agreeing links, roots and what waits on the walk from them, so
both trees stay forests, and the operations name nodes that are there (`Renumbers.defect?_eq_none`).
The edits correspond (`Renumbers.rel_edits`), and on corresponding edits each detector is asked the
same questions and gets the same answers (`standard_ignoresNumbers`). -/
theorem Chain.numbers_do_not_matter {d d' : FileDiff} {f g : NodeId → NodeId}
    (hd : d.defect? = none) (h : d.Renumbers f g d') :
    d'.defect? = none ∧
      ∃ slots, standard.slots d = .ok slots ∧ standard.slots d' = .ok slots := by
  obtain ⟨slots, hslots, -⟩ := exists_slots standard_classify_isOk d
  refine ⟨h.defect?_eq_none hd, slots, hslots, ?_⟩
  rw [slots_eq_of_rel (h.rel_edits hd) fun _ _ hedit =>
    classify_eq_of_renumbered standard_ignoresNumbers hedit]
  exact hslots

/-- A guard is seen in a method whose nodes stand in the arena the other way round. -/
theorem Chain.numbers_do_not_matter_reversed :
    let d := guardedField ["x"]
    let d' := d.renumber (Equiv.refl _) Fin.revPerm
    (d.defect? = none ∧ d.Renumbers (d.before.numbering (Equiv.refl _))
        (d.after.numbering Fin.revPerm) d') ∧
      (d'.operations = [.insert ⟨6⟩] ∧ d'.after ≠ d.after) ∧
      d'.defect? = none ∧ standard.slots d' = .ok [some (.preconditionGuardInserted "x")] := by
  intro d d'
  have hd : d.defect? = none := by decide +kernel
  have h : d.Renumbers (d.before.numbering (Equiv.refl _)) (d.after.numbering Fin.revPerm) d' :=
    FileDiff.renumbers_renumber (by decide) (by decide) _ _
  obtain ⟨hd', slots, hslots, hslots'⟩ := numbers_do_not_matter hd h
  have hguard : standard.slots d = .ok [some (.preconditionGuardInserted "x")] := by decide +kernel
  obtain rfl := Except.ok.inj (hslots.symm.trans hguard)
  exact ⟨⟨hd, h⟩, ⟨by decide +kernel, by decide +kernel⟩, hd', hslots'⟩

end EditIdioms
