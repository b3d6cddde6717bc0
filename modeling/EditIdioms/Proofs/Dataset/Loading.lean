import EditIdioms.Dataset
import EditIdioms.Proofs.Detector.Slots
import EditIdioms.Proofs.Execution
import EditIdioms.Proofs.Lists

set_option relaxedAutoImplicit false
set_option autoImplicit false

/-!
# Which documents are loaded

A file is loaded when it is a text, the text is that of a compared file, both trees of it are
forests, and every operation names nodes that are there. What is refused for one of the last reasons
is refused for the first of its defects. So nothing that is loaded has an operation that would be
passed over.

## Main definitions

* `DecodesTo` — the content of a file is the text of a compared file.
* `FileDiff.named` — a compared file goes by a path.
* `FileDiff.Sound` — what a compared file must be.
* `FileDiff.FirstDefect` — the first of its defects.

## Main results

* `FileDiff.defect?_eq_none_iff_sound`, `FileDiff.defect?_eq_some_iff` — what the check finds.
* `loadDiff_of_decodes`, `loadDiff_eq_ok_iff`, `sound_of_loadDiff` — loading a file.
* `FileDiff.Sound.rel_edits` — no operation is passed over.
* `loadDiff_admits_sound` — which documents are loaded.
-/

namespace EditIdioms

/-- The content of a file is the text of the compared file. -/
def DecodesTo (content : List UInt8) (d : FileDiff) : Prop :=
  ∃ text, Text.bytes text = content ∧ Document.decode Document.readFileDiff text = .ok d

namespace FileDiff

/-- The compared file goes by the path if it names none of its own. -/
def named (d : FileDiff) (path : String) : FileDiff :=
  if d.path.isEmpty then { d with path } else d

/-- Both trees are forests, with numbers for all nodes, and the nodes that operations name are
there. -/
structure Sound (d : FileDiff) : Prop where
  before_numbered : d.before.size ≤ UInt32.size
  before_forest : d.before.WellFormed
  after_numbered : d.after.size ≤ UInt32.size
  after_forest : d.after.WellFormed
  names : ∀ operation ∈ d.operations, d.Names operation

/-- The nodes of all operations before the one at a place are there. -/
def NamesBefore (d : FileDiff) (index : ℕ) : Prop :=
  ∀ k < index, ∀ operation, d.operations[k]? = some operation → d.Names operation

/-- The first defect of a compared file: of the tree before the change, else of the tree after it,
else of an operation, the node before the change first. -/
inductive FirstDefect (d : FileDiff) : DiffDefect → Prop
  | treeBefore {defect : TreeDefect} (found : d.before.defect? = some defect) :
    FirstDefect d (.treeBefore defect)
  | treeAfter {defect : TreeDefect} (before_forest : d.before.defect? = none)
    (found : d.after.defect? = some defect) : FirstDefect d (.treeAfter defect)
  | missingBefore {index : ℕ} {operation : Edit NodeId} {id : NodeId}
    (before_forest : d.before.defect? = none) (after_forest : d.after.defect? = none)
    (earlier : d.NamesBefore index) (here : d.operations[index]? = some operation)
    (before_eq : operation.before? = some id) (missing : ¬ d.before.contains id) :
    FirstDefect d (.missingBefore index id)
  | missingAfter {index : ℕ} {operation : Edit NodeId} {id : NodeId}
    (before_forest : d.before.defect? = none) (after_forest : d.after.defect? = none)
    (earlier : d.NamesBefore index) (here : d.operations[index]? = some operation)
    (before_there : ∀ id, operation.before? = some id → d.before.contains id)
    (after_eq : operation.after? = some id) (missing : ¬ d.after.contains id) :
    FirstDefect d (.missingAfter index id)

variable {d : FileDiff}

/-! ## The check -/

/-- **The check finds nothing** exactly in sound files. -/
lemma defect?_eq_none_iff_sound : d.defect? = none ↔ d.Sound := by
  rw [defect?_eq_none_iff, Tree.validate_eq_none_iff, Tree.validate_eq_none_iff]
  constructor
  · rintro ⟨⟨hbefore, hbefore'⟩, ⟨hafter, hafter'⟩, hnames⟩
    exact ⟨hbefore, hbefore', hafter, hafter', hnames⟩
  · intro h
    exact ⟨⟨h.before_numbered, h.before_forest⟩, ⟨h.after_numbered, h.after_forest⟩, h.names⟩

/-- What an operation lacks: the node before the change, or else the node after it.

**Proof sketch.** By whether a node is missing before the change. If one is, it is the one that the
operation names there, and the defect is reported for it, whatever is missing afterwards. If none
is, the nodes before the change are there, and the defect is about the node after it, if that is
missing. -/
lemma operationDefect?_eq_some_iff {index : ℕ} {operation : Edit NodeId} {defect : DiffDefect} :
    d.operationDefect? index operation = some defect ↔
      (∃ id, operation.before? = some id ∧ ¬ d.before.contains id ∧
        defect = .missingBefore index id) ∨
      (∀ id, operation.before? = some id → d.before.contains id) ∧
        ∃ id, operation.after? = some id ∧ ¬ d.after.contains id ∧
          defect = .missingAfter index id := by
  unfold operationDefect?
  cases hmissing : operation.before?.filter (!d.before.contains ·) with
  | some id =>
    obtain ⟨hid, hout⟩ := Option.filter_eq_some_iff.mp hmissing
    rw [Bool.not_eq_true'] at hout
    constructor
    · rintro ⟨⟩
      exact .inl ⟨id, hid, by simp [hout], rfl⟩
    · rintro (⟨id', hid', -, rfl⟩ | ⟨hall, -⟩)
      · rw [hid] at hid'
        cases hid'
        rfl
      · rw [hall id hid] at hout
        cases hout
  | none =>
    have hthere : ∀ id, operation.before? = some id → d.before.contains id := by
      intro id hid
      have hin := Option.filter_eq_none_iff.mp hmissing id hid
      simpa using hin
    dsimp only
    rw [Option.map_eq_some_iff]
    constructor
    · rintro ⟨id, hfilter, rfl⟩
      obtain ⟨hid, hout⟩ := Option.filter_eq_some_iff.mp hfilter
      exact .inr ⟨hthere, id, hid, by simpa using hout, rfl⟩
    · rintro (⟨id, hid, hout, -⟩ | ⟨-, id, hid, hout, rfl⟩)
      · exact absurd (hthere id hid) hout
      · exact ⟨id, Option.filter_eq_some_iff.mpr ⟨hid, by simpa using hout⟩, rfl⟩

/-- The first defect of the operations. -/
lemma findSome?_operationDefect? {defect : DiffDefect} :
    (d.operations.zipIdx.findSome? fun (operation, index) => d.operationDefect? index operation) =
        some defect ↔
      ∃ index operation, d.NamesBefore index ∧ d.operations[index]? = some operation ∧
        d.operationDefect? index operation = some defect := by
  refine (findSome?_zipIdx_eq_some_iff (f := fun o i => d.operationDefect? i o)).trans ?_
  simp only [Nat.zero_add, Option.bind_eq_some_iff, Option.bind_eq_none_iff,
    operationDefect?_eq_none_iff, NamesBefore]
  constructor
  · rintro ⟨index, ⟨operation, hhere, hdefect⟩, hbefore⟩
    exact ⟨index, operation, hbefore, hhere, hdefect⟩
  · rintro ⟨index, operation, hbefore, hhere, hdefect⟩
    exact ⟨index, ⟨operation, hhere, hdefect⟩, hbefore⟩

/-- **The check finds the first defect.**

**Proof sketch.** The check goes through the tree before the change, the tree after it and the
operations, and each constructor of `FirstDefect` tells where it stops. If one of the trees has a
defect, only its own constructor fits. Otherwise the defect is that of the first operation that has
one (`findSome?_operationDefect?`), and of this one there are two kinds. -/
lemma defect?_eq_some_iff {defect : DiffDefect} :
    d.defect? = some defect ↔ d.FirstDefect defect := by
  unfold defect?
  cases hbefore : d.before.defect? with
  | some found =>
    constructor
    · rintro ⟨⟩
      exact .treeBefore hbefore
    · rintro (⟨found'⟩ | ⟨hnone, -⟩ | ⟨hnone⟩ | ⟨hnone⟩) <;> simp_all
  | none =>
    cases hafter : d.after.defect? with
    | some found =>
      constructor
      · rintro ⟨⟩
        exact .treeAfter hbefore hafter
      · rintro (⟨found'⟩ | ⟨-, found'⟩ | ⟨-, hnone⟩ | ⟨-, hnone⟩) <;> simp_all
    | none =>
      dsimp only
      rw [findSome?_operationDefect?]
      simp only [operationDefect?_eq_some_iff]
      constructor
      · rintro ⟨index, operation, hearlier, hhere,
          ⟨id, hid, hout, rfl⟩ | ⟨hall, id, hid, hout, rfl⟩⟩
        · exact .missingBefore hbefore hafter hearlier hhere hid hout
        · exact .missingAfter hbefore hafter hearlier hhere hall hid hout
      · intro h
        cases h with
        | treeBefore found => rw [hbefore] at found; cases found
        | treeAfter _ found => rw [hafter] at found; cases found
        | missingBefore _ _ hearlier hhere hid hout =>
          exact ⟨_, _, hearlier, hhere, .inl ⟨_, hid, hout, rfl⟩⟩
        | missingAfter _ _ hearlier hhere hall hid hout =>
          exact ⟨_, _, hearlier, hhere, .inr ⟨hall, _, hid, hout, rfl⟩⟩

/-- What is wrong with a compared file does not depend on the path that it goes by. -/
lemma defect?_named (d : FileDiff) (path : String) : (d.named path).defect? = d.defect? := by
  unfold named
  split <;> rfl

/-! ## What is not passed over -/

/-- **No operation of a sound file is passed over.** -/
lemma Sound.rel_edits (h : d.Sound) :
    List.Forall₂ (fun operation edit => d.resolve? operation = some edit) d.operations d.edits := by
  have hall : d.operations.filter (d.Names ·) = d.operations :=
    List.filter_eq_self.mpr fun operation hmem => by simpa using h.names operation hmem
  have hedits := d.rel_edits
  rwa [hall] at hedits

end FileDiff

/-- The slots that a chain has filled are those of the edits, one by one. -/
lemma Chain.forall₂_of_mapM {chain : Chain} {d : FileDiff} {operations : List (Edit NodeId)}
    {edits : List (Edit Site)} {slots : List (Option Rule)}
    (hedits : List.Forall₂ (fun o e => d.resolve? o = some e) operations edits)
    (h : edits.mapM chain.classify = .ok slots) :
    List.Forall₂ (chain.Fills d) operations slots := by
  induction hedits generalizing slots with
  | nil =>
    cases h
    exact .nil
  | @cons operation edit operations edits hresolve _ ih =>
    rw [List.mapM_cons] at h
    obtain ⟨slot, hslot, h⟩ := exists_of_bind_eq_ok h
    obtain ⟨rest, hrest, h⟩ := exists_of_bind_eq_ok h
    cases h
    exact .cons ⟨edit, hresolve, hslot⟩ (ih hrest)

/-! ## Loading -/

section Loading

variable {files : Files} {path : String} {content : List UInt8} {d : FileDiff}

/-- There is one compared file at most that a content decodes to. -/
lemma DecodesTo.unique {d' : FileDiff} (h : DecodesTo content d) (h' : DecodesTo content d') :
    d = d' := by
  obtain ⟨text, rfl, hdecode⟩ := h
  obtain ⟨text', hbytes, hdecode'⟩ := h'
  have htext := congrArg Text.ofBytes? hbytes
  rw [Text.ofBytes?_bytes, Text.ofBytes?_bytes] at htext
  cases htext
  exact Except.ok.inj (hdecode.symm.trans hdecode')

/-- A file that holds the bytes of a text is read as the text. -/
lemma Files.text_of_content {text : String}
    (hcontent : files.content path = .ok (Text.bytes text)) : files.text path = .ok text := by
  rw [Files.text, hcontent]
  dsimp only
  rw [Text.ofBytes?_bytes]

/-- Loading a file that decodes is checking it. -/
lemma loadDiff_of_decodes (hcontent : files.content path = .ok content)
    (hdecodes : DecodesTo content d) :
    loadDiff files path =
      match d.defect? with
      | some defect => .error (.malformed (d.named path).path defect)
      | none => .ok (d.named path) := by
  obtain ⟨text, rfl, hdecode⟩ := hdecodes
  have htext := Files.text_of_content hcontent
  rw [← d.defect?_named path]
  unfold loadDiff
  simp only [htext, hdecode, pure_bind]
  change (match (d.named path).defect? with
    | some defect => throw (DatasetFault.malformed (d.named path).path defect)
    | none => (return d.named path : Except DatasetFault FileDiff)) = _
  cases (d.named path).defect? <;> rfl

/-- A file that is loaded decodes.

**Proof sketch.** Loading reads the content, takes it for text, and decodes that, in this order. Had
one of these steps failed, so would loading. So there is a content, which is the bytes of a text,
and what the text decodes to is what is loaded but for its path. -/
lemma exists_decodes_of_loadDiff (h : loadDiff files path = .ok d) :
    ∃ content d₀, files.content path = .ok content ∧ DecodesTo content d₀ := by
  unfold loadDiff at h
  cases hread : files.text path with
  | error fault =>
    rw [hread] at h
    cases h
  | ok text =>
  cases hdecode : Document.decode Document.readFileDiff text with
  | error fault =>
    simp only [hread, hdecode, pure_bind] at h
    cases h
  | ok d₀ =>
  unfold Files.text at hread
  cases hcontent : files.content path with
  | error cause => rw [hcontent] at hread; cases hread
  | ok content =>
    rw [hcontent] at hread
    dsimp only at hread
    cases hbytes : Text.ofBytes? content with
    | none => rw [hbytes] at hread; cases hread
    | some text' =>
      rw [hbytes] at hread
      cases hread
      exact ⟨content, d₀, rfl, text, Text.bytes_of_ofBytes? hbytes, hdecode⟩

/-- **A file is loaded** exactly if it decodes to something sound.

**Proof sketch.** The content decodes to something if anything is loaded, and what it decodes to is
then checked for defects. It has none if it is sound (`FileDiff.defect?_eq_none_iff_sound`); what is
loaded is that, with the path in place of a missing name. -/
lemma loadDiff_eq_ok_iff (hcontent : files.content path = .ok content) :
    loadDiff files path = .ok d ↔ ∃ d₀, DecodesTo content d₀ ∧ d₀.Sound ∧ d = d₀.named path := by
  constructor
  · intro hload
    obtain ⟨content', d₀, hcontent', hdecodes⟩ := exists_decodes_of_loadDiff hload
    cases hcontent.symm.trans hcontent'
    rw [loadDiff_of_decodes hcontent hdecodes] at hload
    cases hdefect : d₀.defect? with
    | some defect =>
      rw [hdefect] at hload
      cases hload
    | none =>
      rw [hdefect] at hload
      cases hload
      exact ⟨d₀, hdecodes, FileDiff.defect?_eq_none_iff_sound.mp hdefect, rfl⟩
  · rintro ⟨d₀, hdecodes, hsound, rfl⟩
    rw [loadDiff_of_decodes hcontent hdecodes, FileDiff.defect?_eq_none_iff_sound.mpr hsound]

/-- What is loaded is sound, since it was checked after decoding. -/
lemma sound_of_loadDiff (h : loadDiff files path = .ok d) : d.Sound := by
  obtain ⟨content, -, hcontent, -⟩ := exists_decodes_of_loadDiff h
  obtain ⟨d₀, -, hsound, rfl⟩ := (loadDiff_eq_ok_iff hcontent).mp h
  rw [← FileDiff.defect?_eq_none_iff_sound, d₀.defect?_named path]
  exact FileDiff.defect?_eq_none_iff_sound.mpr hsound

end Loading

/-- **What is loaded is sound, and what is sound is loaded.** A file is loaded exactly if its
content is the text of a compared file that is sound; it then goes by the path of the file if it
names none of its own. A compared file that is not sound is refused for its first defect. In what is
loaded no operation is passed over: there are as many edits as operations, each the one of its
operation, and a chain fills the slot of each operation with what it classifies that edit as, as the
standard chain always does.

**Proof sketch.** The check that comes after decoding finds the first defect, and none exactly in
sound files (`FileDiff.defect?_eq_some_iff`, `FileDiff.defect?_eq_none_iff_sound`). An operation has
an edit if the nodes that it names are there (`FileDiff.rel_edits`), and in a sound file they
are. -/
theorem loadDiff_admits_sound {files : Files} {path : String} {content : List UInt8}
    (hcontent : files.content path = .ok content) :
    (∀ d, loadDiff files path = .ok d ↔ ∃ d₀, DecodesTo content d₀ ∧ d₀.Sound ∧ d = d₀.named path) ∧
    (∀ d₀, DecodesTo content d₀ → ¬ d₀.Sound →
      ∃ defect, loadDiff files path = .error (.malformed (d₀.named path).path defect) ∧
        d₀.FirstDefect defect) ∧
    ∀ d, loadDiff files path = .ok d →
      d.edits.length = d.operations.length ∧
      List.Forall₂ (fun operation edit => d.resolve? operation = some edit) d.operations d.edits ∧
      (∀ (chain : Chain) slots, chain.slots d = .ok slots →
        List.Forall₂ (chain.Fills d) d.operations slots) ∧
      ∃ slots, Chain.standard.slots d = .ok slots := by
  refine ⟨fun d => loadDiff_eq_ok_iff hcontent, fun d₀ hdecodes hsound => ?_, fun d hload => ?_⟩
  · rw [loadDiff_of_decodes hcontent hdecodes]
    cases hdefect : d₀.defect? with
    | some defect => exact ⟨defect, rfl, FileDiff.defect?_eq_some_iff.mp hdefect⟩
    | none => exact absurd (FileDiff.defect?_eq_none_iff_sound.mp hdefect) hsound
  · have hsound := sound_of_loadDiff hload
    obtain ⟨slots, hslots, -⟩ := Chain.exists_slots Chain.standard_classify_isOk d
    refine ⟨hsound.rel_edits.length_eq.symm, hsound.rel_edits, fun chain slots h => ?_,
      slots, hslots⟩
    exact Chain.forall₂_of_mapM hsound.rel_edits h

/-- Two documents with one tree of one node. The operation of the first one inserts this node, and
it is loaded; the second one has another operation with two nodes that are not there, and the one
before the change is named. -/
theorem loadDiff_admits_sound_insert :
    let first := "[\"\",[[]],[[[\"Block\"]]],[\x7b\"Insert\":[0]\x7d]]"
    let second := "[\"\",[[]],[[[\"Block\"]]],[\x7b\"Insert\":[0]\x7d,\x7b\"Update\":[3,9]\x7d]]"
    let block : Tree := { nodes := #[{ kind := .block }] }
    let files : Files :=
      { root := .directory [("a", .file (Text.bytes first)), ("b", .file (Text.bytes second))] }
    let d : FileDiff := { path := "a", before := {}, after := block, operations := [.insert ⟨0⟩] }
    let d' : FileDiff :=
      { before := {}, after := block, operations := [.insert ⟨0⟩, .update ⟨3⟩ ⟨9⟩] }
    (files.content "a" = .ok (Text.bytes first) ∧ files.content "b" = .ok (Text.bytes second)) ∧
      loadDiff files "a" = .ok d ∧ d.edits.length = 1 ∧
      Chain.standard.slots d = .ok [none] ∧ Chain.standard.Fills d (.insert ⟨0⟩) none ∧
      loadDiff files "b" = .error (.malformed "b" (.missingBefore 1 ⟨3⟩)) ∧
      d'.FirstDefect (.missingBefore 1 ⟨3⟩) := by
  intro first second block files d d'
  have hfirst : files.content "a" = .ok (Text.bytes first) := rfl
  have hsecond : files.content "b" = .ok (Text.bytes second) := rfl
  have hload : loadDiff files "a" = .ok d := by decide +kernel
  have hslots : Chain.standard.slots d = .ok [none] := by decide +kernel
  have hdecodes : DecodesTo (Text.bytes second) d' := ⟨second, rfl, by decide +kernel⟩
  obtain ⟨-, -, hloaded⟩ := loadDiff_admits_sound hfirst
  obtain ⟨hlength, -, hfills, -⟩ := hloaded d hload
  obtain ⟨-, hrefused, -⟩ := loadDiff_admits_sound hsecond
  have hunsound : ¬ d'.Sound := by
    rw [← FileDiff.defect?_eq_none_iff_sound]
    decide +kernel
  obtain ⟨defect, hdefect, hlast⟩ := hrefused d' hdecodes hunsound
  have hrefusal : loadDiff files "b" = .error (.malformed "b" (.missingBefore 1 ⟨3⟩)) := by
    decide +kernel
  rw [hrefusal] at hdefect
  cases hdefect
  cases hfills _ _ hslots with
  | cons hslot _ => exact ⟨⟨hfirst, hsecond⟩, hload, hlength, hslots, hslot, hrefusal, hlast⟩

end EditIdioms
