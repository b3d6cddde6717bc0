import EditIdioms.Proofs.Mining.Stream

set_option relaxedAutoImplicit false
set_option autoImplicit false

/-!
# Integers that were changed

An integer literal that gave way to another literal leads to a record with both of them, unless they
are equal. A second record says that the constant was moved by one or reset. When that is so is told
here by the numbers that the literals stand for: the new one follows the old one, or a one became a
zero, or the type starts again at its least number behind its largest one, which counts for the two
narrow types only. A literal of another type is no such step, whatever its number is.

## Main definitions

* `IntegerType`, `Literal.integer?` — the types of integer literals, and their numbers.
* `IntegerType.Steps` — the numbers that a constant is moved or reset to.
* `updatePiece` — what is published for an integer that gave way to another literal.

## Main results

* `Refiner.isConstantStep_iff` — the refiner for constants, in terms of numbers.
* `Miner.mineDiff_around` — what mining a file publishes, around one of its operations.
* `integers_update_exactly` — what mining publishes for an integer that was updated.
-/

namespace EditIdioms

/-! ## Integer types -/

/-- The types of integer literals. -/
inductive IntegerType where
  | byte
  | short
  | int
  | long
deriving DecidableEq

namespace IntegerType

/-- How many bits a number has. -/
def bits : IntegerType → ℕ
  | byte => 8
  | short => 16
  | int => 32
  | long => 64

/-- The least number. -/
def least (type : IntegerType) : ℤ := -2 ^ (type.bits - 1)

/-- The largest number. -/
def largest (type : IntegerType) : ℤ := 2 ^ (type.bits - 1) - 1

/-- Behind the largest number of a narrow type its least one comes. -/
def isNarrow : IntegerType → Bool
  | byte | short => true
  | int | long => false

/-- A constant was moved by one, or reset. -/
def Steps (type : IntegerType) (s d : ℤ) : Prop :=
  d = s + 1 ∨ (s = 1 ∧ d = 0) ∨ (type.isNarrow = true ∧ s = type.largest ∧ d = type.least)

instance (type : IntegerType) (s d : ℤ) : Decidable (type.Steps s d) :=
  inferInstanceAs (Decidable (_ ∨ _ ∨ _))

end IntegerType

namespace Literal

variable {l l' : Literal} {type : IntegerType} {n : ℤ}

/-- The type and the number of an integer literal. -/
def integer? : Literal → Option (IntegerType × ℤ)
  | byte n => some (.byte, n.toInt)
  | short n => some (.short, n.toInt)
  | int n => some (.int, n.toInt)
  | long n => some (.long, n.toInt)
  | _ => none

/-- The literal is an integer of the type to which a constant with the number `s` is moved or
reset. -/
def IsStepFrom (l : Literal) (type : IntegerType) (s : ℤ) : Prop :=
  ∃ d, l.integer? = some (type, d) ∧ type.Steps s d

instance (l : Literal) (type : IntegerType) (s : ℤ) : Decidable (l.IsStepFrom type s) :=
  decidable_of_iff (l.integer?.any fun (type', d) => type' = type ∧ type.Steps s d) <| by
    rw [Option.any_eq_true]
    simp [IsStepFrom]

/-- The number is one of the type. -/
lemma integer?_within (h : l.integer? = some (type, n)) : type.least ≤ n ∧ n ≤ type.largest := by
  cases l with
  | byte m => cases h; exact ⟨m.le_toInt, Int.le_sub_one_of_lt m.toInt_lt⟩
  | short m => cases h; exact ⟨m.le_toInt, Int.le_sub_one_of_lt m.toInt_lt⟩
  | int m => cases h; exact ⟨m.le_toInt, Int.le_sub_one_of_lt m.toInt_lt⟩
  | long m => cases h; exact ⟨m.le_toInt, Int.le_sub_one_of_lt m.toInt_lt⟩
  | _ => cases h

/-- **An integer literal is told by its type and its number.** -/
lemma integer?_injective (h : l.integer? = some (type, n)) (h' : l'.integer? = some (type, n)) :
    l = l' := by
  cases l with
  | byte m => cases h; cases l' <;> simp [integer?, Int8.toInt_inj] at h' ⊢; exact h'.symm
  | short m => cases h; cases l' <;> simp [integer?, Int16.toInt_inj] at h' ⊢; exact h'.symm
  | int m => cases h; cases l' <;> simp [integer?, Int32.toInt_inj] at h' ⊢; exact h'.symm
  | long m => cases h; cases l' <;> simp [integer?, Int64.toInt_inj] at h' ⊢; exact h'.symm
  | _ => cases h

/-- No integer is a floating-point number. -/
lemma isFloating_of_integer? (h : l.integer? = some (type, n)) : l.isFloating = false := by
  cases l <;> first | rfl | cases h

/-- **Integers are equal** to the literals of their type and number. -/
lemma equal_iff_integer? (h : l.integer? = some (type, n)) :
    l'.equal l = true ↔ l'.integer? = some (type, n) := by
  constructor
  · intro hequal
    cases l' with
    | float x => cases l <;> first | cases h; done | cases hequal
    | double x => cases l <;> first | cases h; done | cases hequal
    | _ => rwa [(equal_iff_eq rfl).mp hequal]
  · intro h'
    obtain rfl := integer?_injective h h'
    exact (equal_iff_eq (isFloating_of_integer? h)).mpr rfl

end Literal

/-! ## Steps -/

namespace IntegerType

variable {type : IntegerType} {s d : ℤ}

/-- **Adding one with as many bits as the type has** gives the next number, or from the largest one
the least one. -/
lemma eq_bmod_iff (hs : type.least ≤ s ∧ s ≤ type.largest)
    (hd : type.least ≤ d ∧ d ≤ type.largest) :
    d = (s + 1).bmod (2 ^ type.bits) ↔ d = s + 1 ∨ (s = type.largest ∧ d = type.least) := by
  cases type <;> simp only [least, largest, bits, Int.bmod] at * <;> omega

/-- A narrow type starts again behind its largest number. -/
lemma steps_iff_of_narrow (h : type.isNarrow = true) (hs : type.least ≤ s ∧ s ≤ type.largest)
    (hd : type.least ≤ d ∧ d ≤ type.largest) :
    type.Steps s d ↔ d = (s + 1).bmod (2 ^ type.bits) ∨ (s = 1 ∧ d = 0) := by
  rw [eq_bmod_iff hs hd, or_right_comm, or_assoc, Steps, h]
  simp only [true_and]

/-- A wide type does not start over behind its largest value. -/
lemma steps_iff_of_wide (h : type.isNarrow = false) :
    type.Steps s d ↔ d = s + 1 ∨ (s = 1 ∧ d = 0) := by
  simp [Steps, h]

end IntegerType

namespace Refiner

open Literal IntegerType

variable {src dst : Literal} {type : IntegerType} {s : ℤ}

/-- **The refiner for constants** applies to two integers of one type whose numbers are a step.

**Proof sketch.** Bytes and shorts are added with their own bits, the wider types as numbers. No
integer is compared with a literal of another type. -/
lemma isConstantStep_iff (hsrc : src.integer? = some (type, s)) :
    isConstantStep src dst = true ↔ dst.IsStepFrom type s := by
  have hother (hfalse : isConstantStep src dst = false)
      (hdst : ∀ d, dst.integer? ≠ some (type, d)) :
      isConstantStep src dst = true ↔ dst.IsStepFrom type s :=
    iff_of_false (by rw [hfalse]; exact Bool.false_ne_true) fun ⟨d, hd, _⟩ => hdst d hd
  have hsame {d : ℤ} (hdst : dst.integer? = some (type, d))
      (hstep : isConstantStep src dst = true ↔ type.Steps s d) :
      isConstantStep src dst = true ↔ dst.IsStepFrom type s := by
    rw [hstep, IsStepFrom, hdst]
    simp
  cases src with
  | byte m =>
    cases hsrc
    cases dst with
    | byte n =>
      refine hsame rfl ?_
      rw [steps_iff_of_narrow rfl (integer?_within (l := .byte m) rfl)
        (integer?_within (l := .byte n) rfl), isConstantStep]
      simp [← Int8.toInt_inj, Int8.toInt_add, IntegerType.bits]
    | _ => exact hother rfl nofun
  | short m =>
    cases hsrc
    cases dst with
    | short n =>
      refine hsame rfl ?_
      rw [steps_iff_of_narrow rfl (integer?_within (l := .short m) rfl)
        (integer?_within (l := .short n) rfl), isConstantStep]
      simp [← Int16.toInt_inj, Int16.toInt_add, IntegerType.bits]
    | _ => exact hother rfl nofun
  | int m =>
    cases hsrc
    cases dst with
    | int n =>
      refine hsame rfl ?_
      rw [steps_iff_of_wide rfl, isConstantStep]
      simp [← Int32.toInt_inj]
    | _ => exact hother rfl nofun
  | long m =>
    cases hsrc
    cases dst with
    | long n =>
      refine hsame rfl ?_
      rw [steps_iff_of_wide rfl, isConstantStep]
      simp [← Int64.toInt_inj]
    | _ => exact hother rfl nofun
  | _ => cases hsrc

end Refiner

/-- **A literal that gave way to another one** is refined to a constant that was moved or reset, or
not at all. -/
lemma Rule.refine?_literalReplaced (src dst : Literal) :
    Rule.refine? (.literalReplaced src (some dst)) =
      if Refiner.isConstantStep src dst then some .inlineConstant else none := by
  unfold refine?
  cases hstep : Refiner.isConstantStep src dst <;>
    simp [Rule.tier, Rule.tag, RuleTag.tier, Refiner.standard, Refiner.when, hstep,
      Refiner.arithmeticOperatorDeleted, Refiner.arithmeticOperatorReplaced,
      Refiner.conditionalBoundary, Refiner.negatedConditional, Refiner.relationalOperatorReplaced,
      Refiner.inlineConstant, Refiner.invertNegatives, Refiner.nakedReceiver]

/-- **The standard chain on literals** that were updated asks the detector for literals only.

**Proof sketch.** The chain is gone through in order. The detectors before the one for operators do
not accept updates, the one for operators finds none in literals, and the next but one is the one
for literals. If the literals are equal, the last detector is the only one left, and it accepts no
updates either. -/
lemma Chain.standard_classify_literals {before after : Site} {src dst : Literal}
    (hbefore : before.kind = .literal src) (hafter : after.kind = .literal dst) :
    standard.classify (.update before after) =
      .ok (if dst.equal src then none else some (.literalReplaced src (some dst))) := by
  have hoperators : operatorReplaced.recognise (.update before after) = .ok none := by
    simp [operatorReplaced, Detector.onPair, Edit.pair?, hbefore]
  have hliterals : literalReplaced.recognise (.update before after) =
      .ok (if dst.equal src then none else some (.literalReplaced src (some dst))) := by
    simp [literalReplaced, Detector.onPair, Edit.pair?, hbefore, hafter]
  have hskip {d : Detector} (rest : Chain) (hd : d.accepts .update = false) :
      Chain.classify (d :: rest) (.update before after) =
        Chain.classify rest (.update before after) := by
    rw [classify, Edit.kind, hd]
    rfl
  have hpassed {d : Detector} (rest : Chain) (hd : d.recognise (.update before after) = .ok none) :
      Chain.classify (d :: rest) (.update before after) =
        Chain.classify rest (.update before after) := by
    rw [classify, hd, ite_self]
  rw [standard, hskip _ rfl, hskip _ rfl, hskip _ rfl, hskip _ rfl, hpassed _ hoperators,
    hskip _ rfl, classify, hliterals, hskip _ rfl, classify]
  cases dst.equal src <;> rfl

/-! ## What an update leads to -/

/-- What is published for an integer of a type that gave way to another literal. -/
def updatePiece (project : String) (src dst : Literal) (type : IntegerType) (s : ℤ) :
    List Record :=
  if dst.integer? = some (type, s) then []
  else
    ⟨.literalReplaced src (some dst), project⟩ ::
      if dst.IsStepFrom type s then [⟨.inlineConstant, project⟩] else []

section Update

variable {l : Located} {before after : Site} {src dst : Literal} {type : IntegerType} {s : ℤ}

/-- **An integer that was updated** leads to its piece.

**Proof sketch.** The standard chain gives a slot with the literals, or an empty one if they are
equal (`Chain.standard_classify_literals`), and equal they are when the new one is the same integer
of the same type. A filled slot leads to its rule alone or to its rule and the inlined constant, and
the refiner for constants applies exactly if the integer is one step away
(`Refiner.isConstantStep_iff`). -/
lemma Miner.leads_update (hresolve : l.file.resolve? l.operation = some (.update before after))
    (hbefore : before.kind = .literal src) (hafter : after.kind = .literal dst)
    (hsrc : src.integer? = some (type, s)) :
    Leads {} l (updatePiece l.project src dst type s) := by
  have hclassify := Chain.standard_classify_literals hbefore hafter
  unfold updatePiece
  by_cases hequal : dst.integer? = some (type, s)
  · rw [if_pos hequal]
    rw [if_pos ((Literal.equal_iff_integer? hsrc).mpr hequal)] at hclassify
    exact .unmatched ⟨_, hresolve, hclassify⟩
  · rw [if_neg hequal]
    rw [if_neg fun h => hequal ((Literal.equal_iff_integer? hsrc).mp h)] at hclassify
    have hrefine := Rule.refine?_literalReplaced src dst
    by_cases hstep : dst.IsStepFrom type s
    · rw [if_pos hstep]
      rw [if_pos ((Refiner.isConstantStep_iff hsrc).mpr hstep)] at hrefine
      exact .refined ⟨_, hresolve, hclassify⟩ rfl rfl hrefine rfl
    · rw [if_neg hstep]
      rw [if_neg fun h => hstep ((Refiner.isConstantStep_iff hsrc).mp h)] at hrefine
      exact .base ⟨_, hresolve, hclassify⟩ rfl fun _ => hrefine

/-- A wide type does not start again behind its largest number. -/
lemma not_isStepFrom_largest (htype : type.isNarrow = false) :
    ¬ dst.IsStepFrom type type.largest := by
  rintro ⟨d, hd, hstep⟩
  have hle := (Literal.integer?_within hd).2
  rcases (IntegerType.steps_iff_of_wide htype).mp hstep with hnext | ⟨hone, -⟩
  · omega
  · cases type with
    | byte => cases htype
    | short => cases htype
    | int => revert hone; decide
    | long => revert hone; decide

end Update

/-- The operations among these that count, with the file and the project. -/
def FileDiff.locate (d : FileDiff) (project : String) (operations : List (Edit NodeId)) :
    List Located :=
  (operations.filter (d.Names ·)).map fun operation => { project, file := d, operation }

/-- **Mining a file around one operation** publishes the piece of that operation behind those of
the operations in front of it and before those of the operations behind it.

**Proof sketch.** The located operations of the diff are those in front, the one in question, which
names a node that is there, and those behind. The pieces of the diff correspond to them one to one
(`mines_scriptEdits`), so the list of pieces is cut in the same two places. The piece in the middle
is the one that is given, because an operation leads to one piece only (`rightUnique_leads`). -/
lemma Miner.mineDiff_around {σ ω : Type} [Sink σ ω] {d : FileDiff} {project : String}
    {earlier later : List (Edit NodeId)} {operation : Edit NodeId} {piece : List Record}
    (hoperations : d.operations = earlier ++ operation :: later) (hnames : d.Names operation)
    (hpiece : Leads {} { project, file := d, operation } piece) (schedule : Schedule) :
    let m : Miner := {}
    ∃ front back stats, List.Forall₂ m.Leads (d.locate project earlier) front ∧
      List.Forall₂ m.Leads (d.locate project later) back ∧
        Follows schedule (m.mineDiff schedule project d : Miner.Mining σ ω Stats)
          { records := front.flatten ++ piece ++ back.flatten, ending := .ok stats } := by
  intro m
  obtain ⟨pieces, stats, hpieces, hscript, -⟩ := mines_scriptEdits true project d
  have hlocated : d.located project =
      d.locate project earlier ++ { project, file := d, operation } :: d.locate project later := by
    rw [FileDiff.located, hoperations, List.filter_append, List.filter_cons_of_pos (by simpa),
      List.map_append, List.map_cons]
    rfl
  rw [hlocated] at hpieces
  set front := pieces.take (d.locate project earlier).length
  have hfront : List.Forall₂ m.Leads (d.locate project earlier) front := by
    simpa using List.forall₂_take (d.locate project earlier).length hpieces
  have hrest := List.forall₂_drop (d.locate project earlier).length hpieces
  rw [List.drop_left, List.forall₂_cons_left_iff] at hrest
  obtain ⟨piece', back, hpiece', hback, hdrop⟩ := hrest
  obtain rfl := rightUnique_leads m hpiece' hpiece
  refine ⟨front, back, stats, hfront, hback, ?_⟩
  have hrecords : pieces.flatten = front.flatten ++ piece' ++ back.flatten := by
    rw [← List.take_append_drop (d.locate project earlier).length pieces, hdrop,
      List.flatten_append, List.flatten_cons, List.append_assoc]
  rw [← hrecords, ← hscript]
  exact follows_mineEdits m project d.edits

/-- **Integers that were updated, exactly.** An update in an edit script names two literals, of
which the first one is an integer of some type. Wherever in the script it stands, mining the file
with the standard chain and with refining publishes its piece between those of the operations before
and behind it. The piece is empty if the second literal has the same type and number. Else it is a
record with both literals, and right behind it the record of a constant that was moved or reset if
the second literal has the same type and its number is a step. In a wide type nothing is a step from
the largest number, and a literal of another type is none at all.

**Proof sketch.** The standard chain compares the literals, and integers are equal to those of their
type and number (`Literal.equal_iff_integer?`). The rule is refined as `Refiner.isConstantStep_iff`
says, so the operation leads to the piece (`Miner.leads_update`), and mining publishes what the
operations lead to in turn. -/
theorem integers_update_exactly {σ ω : Type} [Sink σ ω] {d : FileDiff} {project : String}
    {earlier later : List (Edit NodeId)} {i j : NodeId} {before after : Site} {src dst : Literal}
    {type : IntegerType} {s : ℤ} (hoperations : d.operations = earlier ++ .update i j :: later)
    (hresolve : d.resolve? (.update i j) = some (.update before after))
    (hbefore : before.kind = .literal src) (hafter : after.kind = .literal dst)
    (hsrc : src.integer? = some (type, s)) (schedule : Schedule) :
    let m : Miner := {}
    let piece := updatePiece project src dst type s
    (∃ front back stats, List.Forall₂ m.Leads (d.locate project earlier) front ∧
      List.Forall₂ m.Leads (d.locate project later) back ∧
        Follows schedule (m.mineDiff schedule project d : Miner.Mining σ ω Stats)
          { records := front.flatten ++ piece ++ back.flatten, ending := .ok stats }) ∧
    (type.isNarrow = false → s = type.largest → ⟨.inlineConstant, project⟩ ∉ piece) ∧
    ((∀ n, dst.integer? ≠ some (type, n)) →
      piece = [⟨.literalReplaced src (some dst), project⟩]) := by
  intro m piece
  refine ⟨?_, ?_, ?_⟩
  · have hnames : d.Names (.update i j) := FileDiff.exists_resolve?_iff.mp ⟨_, hresolve⟩
    exact Miner.mineDiff_around hoperations hnames
      (Miner.leads_update (l := ⟨project, d, .update i j⟩) hresolve hbefore hafter hsrc) schedule
  · rintro htype rfl
    have hnone : ¬ dst.IsStepFrom type type.largest := not_isStepFrom_largest htype
    simp only [piece, updatePiece, if_neg hnone]
    split_ifs <;> simp
  · intro hother
    have hnone : ¬ dst.IsStepFrom type s := fun ⟨n, hn, _⟩ => hother n hn
    simp only [piece, updatePiece, if_neg (hother s), if_neg hnone]

/-- Two of the largest numbers give way to the least ones of their types. -/
def wrapped : FileDiff where
  before.nodes := #[{ kind := .literal (.int Int32.maxValue) },
    { kind := .literal (.byte Int8.maxValue) }]
  after.nodes := #[{ kind := .literal (.int Int32.minValue) },
    { kind := .literal (.byte Int8.minValue) }]
  operations := [.update ⟨0⟩ ⟨0⟩, .update ⟨1⟩ ⟨1⟩]

/-- The byte starts again behind its largest number, and the wider integer does not. -/
theorem integers_update_exactly_wrapped :
    let m : Miner := {}
    let piece := updatePiece "p" (.byte Int8.maxValue) (.byte Int8.minValue) .byte 127
    wrapped.operations = [.update ⟨0⟩ ⟨0⟩] ++ .update ⟨1⟩ ⟨1⟩ :: [] ∧
      (Literal.byte Int8.maxValue).integer? = some (.byte, 127) ∧
      piece = [⟨.literalReplaced (.byte Int8.maxValue) (some (.byte Int8.minValue)), "p"⟩,
        ⟨.inlineConstant, "p"⟩] ∧
      ∃ stats, Follows (Schedule.eager 1)
        (m.mineDiff (Schedule.eager 1) "p" wrapped : Miner.Mining Tape (List (List Record)) Stats)
        { records :=
            ⟨.literalReplaced (.int Int32.maxValue) (some (.int Int32.minValue)), "p"⟩ :: piece
          ending := .ok stats } := by
  intro m piece
  have hpiece : piece = [⟨.literalReplaced (.byte Int8.maxValue) (some (.byte Int8.minValue)), "p"⟩,
      ⟨.inlineConstant, "p"⟩] := by decide +kernel
  refine ⟨rfl, by decide +kernel, hpiece, ?_⟩
  obtain ⟨⟨front, back, stats, hfront, hback, hmining⟩, -, -⟩ :=
    @integers_update_exactly Tape (List (List Record)) _ wrapped "p" [.update ⟨0⟩ ⟨0⟩] [] ⟨1⟩ ⟨1⟩
      _ _ _ _ .byte 127 rfl rfl rfl rfl (by decide +kernel) (Schedule.eager 1)
  have hfirst : m.Leads ⟨"p", wrapped, .update ⟨0⟩ ⟨0⟩⟩
      (updatePiece "p" (.int Int32.maxValue) (.int Int32.minValue) .int 2147483647) :=
    Miner.leads_update rfl rfl rfl (by decide +kernel)
  have hwide : updatePiece "p" (.int Int32.maxValue) (.int Int32.minValue) .int 2147483647 =
      [⟨.literalReplaced (.int Int32.maxValue) (some (.int Int32.minValue)), "p"⟩] := by
    decide +kernel
  obtain rfl := List.right_unique_forall₂' (Miner.rightUnique_leads m) hfront (.cons hfirst .nil)
  obtain rfl := List.right_unique_forall₂' (Miner.rightUnique_leads m) hback .nil
  refine ⟨stats, ?_⟩
  rw [hwide] at hmining
  simpa using hmining

end EditIdioms
