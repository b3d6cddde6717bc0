import EditIdioms.Proofs.Document.Rendering
import Mathlib.Algebra.Group.Int.Defs
import Mathlib.Data.List.Forall2

set_option relaxedAutoImplicit false
set_option autoImplicit false

/-!
# Reading back any rendering

A compared file without floating-point numbers is read back from each of its renderings. Every
reader is shown to give its values back from what renders them, from literals up to whole files.

## Main definitions

* `Tree.Exact` — the tree has no floating-point numbers.

## Main results

* `restores_readKind`, `restores_readNode`, `restores_readTree`, `restores_readEdit`,
  `takes_readFileDiff` — what each reader gives back.
* `decode_of_isRendering`, `decode_render` — a rendering is read as the compared file, and so is the
  file as it is written.
-/

namespace EditIdioms

/-- The node is a floating-point number. -/
def NodeKind.isFloating : NodeKind → Bool
  | .literal l => l.isFloating
  | _ => false

/-- The tree has no floating-point numbers. -/
def Tree.Exact (t : Tree) : Prop := ∀ n ∈ t.nodes.toList, n.kind.isFloating = false

namespace Document

open Json

/-! ## Literals -/

/-- A signed integer that fits its word is within the bounds of the reader. -/
lemma signed_within {bits : ℕ} {n : ℤ} (hlow : -2 ^ (bits - 1) ≤ n) (hhigh : n < 2 ^ (bits - 1)) :
    -(Nat.pow 2 (bits - 1) : ℤ) ≤ n ∧ n ≤ (Nat.pow 2 (bits - 1) : ℤ) - 1 := by
  have hcast : ((2 : ℤ) ^ (bits - 1)) = ((2 ^ (bits - 1) : ℕ) : ℤ) := by norm_cast
  rw [hcast] at hlow hhigh
  exact ⟨hlow, Int.le_sub_one_of_lt hhigh⟩

/-- The bounds of a word of 64 bits at most are within those of numbers. -/
lemma signed_bounds {bits : ℕ} (hbits : bits ≤ 64) :
    -(negativeLimit : ℤ) ≤ -(Nat.pow 2 (bits - 1) : ℤ) ∧
      (Nat.pow 2 (bits - 1) : ℤ) - 1 ≤ significandLimit := by
  have hpow : 2 ^ (bits - 1) ≤ 2 ^ 63 := Nat.pow_le_pow_right (by decide) (by omega)
  have hlimits : negativeLimit = 2 ^ 63 ∧ 2 ^ 63 ≤ significandLimit := by decide
  constructor
  · change _ ≤ -((2 ^ (bits - 1) : ℕ) : ℤ)
    omega
  · change ((2 ^ (bits - 1) : ℕ) : ℤ) - 1 ≤ _
    omega

/-- **A signed integer** that fits its word is given back. -/
lemma restores_signedInteger {bits : ℕ} (hbits : bits ≤ 64) {n : ℤ}
    (hlow : -2 ^ (bits - 1) ≤ n) (hhigh : n < 2 ^ (bits - 1)) :
    Restores (signedInteger bits) (writeInteger n) n := by
  obtain ⟨hlow, hhigh⟩ := signed_within hlow hhigh
  obtain ⟨hlow', hhigh'⟩ := signed_bounds hbits
  exact restores_integerWithin hlow hhigh hlow' hhigh'

/-- **A literal that is no floating-point number** is given back.

**Proof sketch.** By the kind of the literal. Each has a name of its own, under which its content is
read by the reader for such contents. An integer of a width is given back as a whole number in its
bounds, and taking that for an integer of the width gives the first one. A literal without content
is its name alone. -/
lemma restores_readLiteral {l : Literal} (h : l.isFloating = false) :
    Restores readLiteral (writeLiteral l) l := by
  cases l with
  | byte n =>
    have hn : Restores (signedInteger 8) (writeInteger n.toInt) n.toInt :=
      restores_signedInteger (by decide) n.le_toInt n.toInt_lt
    exact restores_containing rfl rfl (hn.map (by rw [Int8.ofInt_toInt]))
  | short n =>
    have hn : Restores (signedInteger 16) (writeInteger n.toInt) n.toInt :=
      restores_signedInteger (by decide) n.le_toInt n.toInt_lt
    exact restores_containing rfl rfl (hn.map (by rw [Int16.ofInt_toInt]))
  | int n =>
    have hn : Restores (signedInteger 32) (writeInteger n.toInt) n.toInt :=
      restores_signedInteger (by decide) n.le_toInt n.toInt_lt
    exact restores_containing rfl rfl (hn.map (by rw [Int32.ofInt_toInt]))
  | long n =>
    have hn : Restores (signedInteger 64) (writeInteger n.toInt) n.toInt :=
      restores_signedInteger (by decide) n.le_toInt n.toInt_lt
    exact restores_containing rfl rfl (hn.map (by rw [Int64.ofInt_toInt]))
  | float x => cases h
  | double x => cases h
  | char c => exact restores_containing rfl rfl ((restores_character c).map rfl)
  | boolean b => exact restores_containing rfl rfl ((restores_boolean b).map rfl)
  | string s => exact restores_containing rfl rfl ((restores_string s).map rfl)
  | null => exact restores_alone rfl

/-! ## Nodes -/

/-- A list of what is written item by item is given back. -/
lemma restores_list_map {α : Type} {read : Reader α} {write : α → Value} {l : List α}
    (h : ∀ a ∈ l, Restores read (write a) a) : Restores (list read) (.array (l.map write)) l :=
  restores_list (List.forall₂_map_left_iff.mpr (List.forall₂_same.mpr h))

/-- A list of strings is given back, in order. -/
lemma restores_strings (l : List String) : Restores (list string) (writeStrings l) l :=
  restores_list_map fun s _ => restores_string s

/-- A binary operator is given back. -/
lemma restores_readBinaryOperator (op : BinaryOperator) :
    Restores readBinaryOperator (.string op.name) op := by
  cases op <;> exact restores_alone rfl

/-- A unary operator is given back. -/
lemma restores_readUnaryOperator (op : UnaryOperator) :
    Restores readUnaryOperator (.string op.name) op := by
  cases op <;> exact restores_alone rfl

/-- **The kind of a node** that is no floating-point number is given back.

**Proof sketch.** By the kind, in groups: kinds without content are a name alone, and the others
have a name with one field or two in it. These are strings, lists of strings, operators, or a
literal that is no floating-point number. -/
lemma restores_readKind {k : NodeKind} (h : k.isFloating = false) :
    Restores readKind (writeKind k) k := by
  cases k with
  | compilationUnit | block | ifStatement | switchStatement | caseArm | whileLoop | forLoop
  | returnStatement | breakStatement | continueStatement | throwStatement | assignment
  | thisAccess => exact restores_alone rfl
  | classDeclaration s | localVariable s | variableRead s | fieldRead s | fieldWrite s
  | invocation s | typeAccess s | other s =>
    exact restores_containing rfl rfl (restores_oneField rfl (by decide) (restores_string s))
  | initializer ps | lambda ps =>
    exact restores_containing rfl rfl (restores_oneField rfl (by decide) (restores_strings ps))
  | method s ps =>
    exact restores_containing rfl rfl (restores_twoFields (by decide) (by decide) (by decide)
      (restores_string s) (restores_strings ps))
  | binary op =>
    exact restores_containing rfl rfl
      (restores_oneField rfl (by decide) (restores_readBinaryOperator op))
  | unary op =>
    exact restores_containing rfl rfl
      (restores_oneField rfl (by decide) (restores_readUnaryOperator op))
  | literal l =>
    exact restores_containing rfl rfl (restores_oneField rfl (by decide) (restores_readLiteral h))

/-- The number of a node fits 32 bits. -/
lemma index_within (id : NodeId) : (id.index : ℤ) ≤ Nat.pow 2 32 - 1 := by
  have hlt : id.index < 2 ^ 32 := id.number.toNat_lt
  change (id.index : ℤ) ≤ ((2 ^ 32 : ℕ) : ℤ) - 1
  omega

/-- **The number of a node** is given back. -/
lemma restores_readNodeId (id : NodeId) : Restores readNodeId (writeNodeId id) id := by
  have hinteger := restores_integerWithin (Int.natCast_nonneg id.index) (index_within id)
    (by decide) (by decide)
  have hnat : Restores (unsignedInteger 32) (writeNodeId id) id.index := hinteger.map rfl
  exact hnat.map (by rw [NodeId.ofIndex_index])

/-- The fields of a node are given back, if it is no floating-point number. -/
lemma restoresFields_node {n : Node} (h : n.kind.isFloating = false) :
    RestoresFields (.required "kind" readKind (.withDefault "parent" (Json.optional readNodeId) none
        (.withDefault "children" (list readNodeId) [] .done)))
      [("kind", writeKind n.kind), ("parent", writeOption writeNodeId n.parent),
        ("children", .array (n.children.map writeNodeId))] (n.kind, n.parent, n.children, ()) := by
  obtain ⟨kind, parent, children⟩ := n
  have hparent : Restores (Json.optional readNodeId) (writeOption writeNodeId parent) parent :=
    restores_optional (fun id => ⟨_, rfl⟩) fun id _ => restores_readNodeId id
  have hchildren : Restores (list readNodeId) (.array (children.map writeNodeId)) children :=
    restores_list_map fun id _ => restores_readNodeId id
  refine ⟨rfl, restores_readKind h, fun hmem => ?_, rfl, hparent, fun hmem => ?_, rfl, hchildren,
    fun hmem => ?_, rfl⟩
  · exact absurd hmem (notMem_omittable (by decide) _)
  · cases parent with
    | none => rfl
    | some id => simp [omittable, writeOption, writeNodeId, writeInteger] at hmem
  · cases children with
    | nil => rfl
    | cons id children => simp [omittable] at hmem

/-- **A node** is given back, if it is no floating-point number. -/
lemma restores_readNode {n : Node} (h : n.kind.isFloating = false) :
    Restores readNode (writeNode n) n := by
  refine (restores_record ?_ rfl (restoresFields_node h)).map rfl
  show ["kind", "parent", "children"].Nodup
  decide

/-- **A tree** without floating-point numbers is given back. -/
lemma restores_readTree {t : Tree} (h : t.Exact) : Restores readTree (writeTree t) t := by
  have hnodes := restores_list_map fun n hn => restores_readNode (h n hn)
  exact restores_oneField rfl (by decide) hnodes

/-! ## Compared files -/

/-- **An edit** is given back with the numbers of its nodes. -/
lemma restores_readEdit (e : Edit NodeId) : Restores readEdit (writeEdit e) e := by
  cases e with
  | insert id | delete id =>
    exact restores_containing rfl rfl (restores_oneField rfl (by decide) (restores_readNodeId id))
  | update before after | move before after =>
    exact restores_containing rfl rfl (restores_twoFields (by decide) (by decide) (by decide)
      (restores_readNodeId before) (restores_readNodeId after))

/-- The fields of a compared file without floating-point numbers are given back. -/
lemma restoresFields_fileDiff {d : FileDiff} (hbefore : d.before.Exact) (hafter : d.after.Exact) :
    RestoresFields (.withDefault "path" string "" (.required "before" readTree
        (.required "after" readTree (.required "operations" (list readEdit) .done))))
      [("path", .string d.path), ("before", writeTree d.before), ("after", writeTree d.after),
        ("operations", .array (d.operations.map writeEdit))]
      (d.path, d.before, d.after, d.operations, ()) := by
  have hoperations : Restores (list readEdit) (.array (d.operations.map writeEdit)) d.operations :=
    restores_list_map fun e _ => restores_readEdit e
  refine ⟨rfl, restores_string d.path, fun hmem => ?_, rfl, restores_readTree hbefore,
    fun hmem => ?_, rfl, restores_readTree hafter, fun hmem => ?_, rfl, hoperations,
    fun hmem => ?_, rfl⟩
  · have hpath : d.path = "" := by simpa [omittable] using hmem
    rw [hpath]
  all_goals exact absurd hmem (notMem_omittable (by decide) _)

/-- **A compared file** without floating-point numbers is read from all that renders it, whatever
comes behind it. -/
lemma takes_readFileDiff {d : FileDiff} (hbefore : d.before.Exact) (hafter : d.after.Exact)
    {ts : List Token} (hts : Renders (writeFileDiff d) ts) : Takes readFileDiff ts d := by
  refine (RestoresFields.takes (restoresFields_fileDiff hbefore hafter) ?_ rfl hts).2.map rfl
  show ["path", "before", "after", "operations"].Nodup
  decide

/-- **Any rendering of a compared file is read as the compared file.** -/
theorem decode_of_isRendering {d : FileDiff} {text : String} (hbefore : d.before.Exact)
    (hafter : d.after.Exact) (h : IsRendering d text) : decode readFileDiff text = .ok d := by
  obtain ⟨ts, hts, front, blanks, hfront, hblank, htext⟩ := h
  have hrun := takes_readFileDiff hbefore hafter hts front blanks hfront
  unfold decode readWhole
  rw [htext, hrun]
  change (if blanks.all isBlank then pure d else throw Fault.malformed) = _
  rw [if_pos (List.all_eq_true.mpr hblank)]
  rfl

/-- A compared file as it is written is one of its renderings. -/
lemma isRendering_render (d : FileDiff) : IsRendering d (writeFileDiff d).render := by
  obtain ⟨ts, hts, hflatten⟩ := exists_renders (writeFileDiff d)
  refine ⟨ts, hts, ts.flatten, [], laid_flatten ts, List.forall_mem_nil _, ?_⟩
  rw [Value.render, String.toList_ofList, hflatten, List.append_nil]

/-- **What is written is read back.** -/
theorem decode_render {d : FileDiff} (hbefore : d.before.Exact) (hafter : d.after.Exact) :
    decode readFileDiff (writeFileDiff d).render = .ok d :=
  decode_of_isRendering hbefore hafter (isRendering_render d)

end Document

end EditIdioms
