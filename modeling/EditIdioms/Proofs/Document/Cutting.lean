import EditIdioms.Proofs.Document.Restoring
import EditIdioms.Proofs.Json.CutShapes

set_option relaxedAutoImplicit false
set_option autoImplicit false

/-!
# Documents that were cut off

A compared file as it is written is told to be truncated wherever its text was cut. Each reader is
shown to take what it is to read as it is written, and to leave nothing of it when it was cut.

## Main results

* `spans_readKind`, `spans_readNode`, `spans_readTree`, `spans_readEdit` — what each reader takes.
* `needsAll_readFileDiff` — a compared file.
* `decode_of_cut`, `decode_of_append` — a text that was cut off, and one that goes on.
-/

namespace EditIdioms.Document

open Json

/-! ## Values -/

section Values

variable {α β : Type} {read : Reader α} {v : Value} {a : α}

/-- **What is given back is taken whole**, and all that is left of it is used if a reader does
so. -/
lemma Restores.spans (h : Restores read v a) (huses : UsesAll read v.chars) :
    Spans read v.chars := by
  obtain ⟨ts, hts, hflatten⟩ := exists_renders v
  obtain ⟨⟨c, cs, us, rfl, hc, hbracket⟩, hreads⟩ := h ts hts
  refine ⟨⟨c, cs ++ us.flatten, ?_, hc, hbracket⟩, ⟨a, fun rest hclosed => ?_⟩, huses⟩
  · rw [← hflatten, List.flatten_cons, List.cons_append]
  · rw [← hflatten]
    exact hreads _ rest (laid_flatten _) hclosed

/-- Making another value of what is taken. -/
lemma spans_map {next : α → Reader β} {text : List Char} (h : Spans read text)
    (hnext : ∀ a, ∃ b, next a = pure b) : Spans (read >>= next) text := by
  obtain ⟨a, hrun⟩ := h.completes
  obtain ⟨b, hb⟩ := hnext a
  refine ⟨h.opening, ⟨b, fun rest hclosed => ?_⟩, h.usesAll.map hnext⟩
  rw [run_bind_of_ok (hrun rest hclosed), hb]
  rfl

/-- A string that was cut is truncated, wherever it was cut. -/
lemma needsAll_readString (s : String) : NeedsAll string (Value.string s).chars := by
  rw [Value.chars]
  exact needsAll_string s

/-- A list of what is written item by item. -/
lemma needsAll_list_map {write : α → Value} {l : List α} (h : ∀ a ∈ l, Spans read (write a).chars) :
    NeedsAll (list read) (Value.array (l.map write)).chars :=
  needsAll_list (List.forall_mem_map.mpr h)

/-- A list of strings that was cut is truncated, wherever it was cut. -/
lemma needsAll_strings (l : List String) : NeedsAll (list string) (writeStrings l).chars :=
  needsAll_list_map fun s _ => (restores_string s).spans (needsAll_readString s).usesAll

end Values

/-! ## Integers -/

/-- An integer is written in its digits. -/
lemma writeInteger_chars (n : ℤ) : (writeInteger n).chars = integerDigits n := by
  rw [writeInteger, Value.chars, integerText, String.toList_ofList]

/-- **A signed integer** that fits its word. -/
lemma spans_signedInteger {bits : ℕ} (hbits : bits ≤ 64) {n : ℤ} (hlow : -2 ^ (bits - 1) ≤ n)
    (hhigh : n < 2 ^ (bits - 1)) : Spans (signedInteger bits) (writeInteger n).chars := by
  refine (restores_signedInteger hbits hlow hhigh).spans ?_
  have hpos : 0 < 2 ^ (bits - 1) := Nat.two_pow_pos (bits - 1)
  obtain ⟨hlow, hhigh⟩ := signed_within hlow hhigh
  obtain ⟨hlow', hhigh'⟩ := signed_bounds hbits
  rw [writeInteger_chars]
  refine usesAll_integerWithin hlow hhigh hlow' hhigh' ?_ ?_
  · change -((2 ^ (bits - 1) : ℕ) : ℤ) ≤ 0
    omega
  · change 0 ≤ ((2 ^ (bits - 1) : ℕ) : ℤ) - 1
    omega

/-- Of the number of a node all that is left is used: the first digits of a number of 32 bits are
such a number. -/
lemma usesAll_readNodeId (id : NodeId) : UsesAll readNodeId (writeNodeId id).chars := by
  have hinteger := usesAll_integerWithin (Int.natCast_nonneg id.index) (index_within id)
    (by decide) (by decide) (by decide) (by decide)
  rw [writeNodeId, writeInteger_chars]
  exact (hinteger.map fun n => ⟨_, rfl⟩).map fun n => ⟨_, rfl⟩

/-- **The number of a node** is taken whole. -/
lemma spans_readNodeId (id : NodeId) : Spans readNodeId (writeNodeId id).chars :=
  (restores_readNodeId id).spans (usesAll_readNodeId id)

/-- Of the parent of a node all that is left is used, be it a number or the word for nothing. -/
lemma usesAll_readParent (parent : Option NodeId) :
    UsesAll (Json.optional readNodeId) (writeOption writeNodeId parent).chars := by
  cases parent with
  | none => exact (needsAll_optional_null rfl).usesAll
  | some id =>
    have hid := usesAll_readNodeId id
    obtain ⟨c, cs, hcs, hc⟩ := head?_integerDigits (id.index : ℤ)
    rw [writeNodeId, writeInteger_chars, hcs] at hid
    rw [writeOption, writeNodeId, writeInteger_chars, hcs]
    refine hid.optional (isBlank_of_starts hc) ?_
    rintro rfl
    rcases hc with hc | hc <;> cases hc

/-! ## Records and alternatives -/

/-- **A record** is needed whole, if its members are used. -/
lemma RestoresFields.needsAll {δ τ : Type} {fields : Fields δ τ} {members : List (String × Value)}
    {value : τ} (h : RestoresFields fields members value) (hnodup : fields.names.Nodup)
    (huses : ∀ m ∈ members, fields.Uses m.1 m.2.chars) :
    NeedsAll (record fields) (Value.object members).chars := by
  have hgives : ∀ m ∈ members, ∃ ts, ts.flatten = m.2.chars ∧
      fields.Gives value ⟨m.1, quoted m.1, ts⟩ := by
    intro m hm
    obtain ⟨ts, hts, hflatten⟩ := exists_renders m.2
    exact ⟨ts, hflatten, h.admits.gives hnodup (List.mem_map_of_mem hm) hts⟩
  exact needsAll_record hnodup hgives huses (h.names ▸ hnodup)

/-- **A record of one field** is taken whole if its value is, under a name that is no tag and is
always written. -/
lemma spans_oneField {α β : Type} {name : String} {read : Reader α} {make : α → β} {v : Value}
    {a : α} (hname : isTag name = false) (hkept : name ∉ omittable.map Prod.fst)
    (h : Restores read v a) (huses : UsesAll read v.chars) :
    Spans (oneField name read make) (Value.object [(name, v)]).chars := by
  have hfields : RestoresFields (.required name read .done) [(name, v)] (a, ()) :=
    ⟨rfl, h, fun hmem => absurd hmem (notMem_omittable hkept v), rfl⟩
  have huses' : ∀ m ∈ [(name, v)], (Fields.required name read .done).Uses m.1 m.2.chars :=
    List.forall_mem_singleton.mpr (by rwa [Fields.required, Fields.Uses, if_pos rfl])
  have hnodup : [name].Nodup := by simp
  have hneeds := hfields.needsAll hnodup huses'
  exact (restores_oneField hname hkept h).spans hneeds.left.usesAll

/-- **A record of two fields** is taken whole if both values are, under different names that are
always written. -/
lemma spans_twoFields {α β γ : Type} {first second : String} {readFirst : Reader α}
    {readSecond : Reader β} {make : α → β → γ} {v w : Value} {a : α} {b : β}
    (hnodup : [first, second].Nodup) (hfirst : first ∉ omittable.map Prod.fst)
    (hsecond : second ∉ omittable.map Prod.fst) (h : Restores readFirst v a)
    (h' : Restores readSecond w b) (huses : UsesAll readFirst v.chars)
    (huses' : UsesAll readSecond w.chars) :
    Spans (twoFields first readFirst second readSecond make)
      (Value.object [(first, v), (second, w)]).chars := by
  have hfields : RestoresFields (.required first readFirst (.required second readSecond .done))
      [(first, v), (second, w)] (a, b, ()) :=
    ⟨rfl, h, fun hmem => absurd hmem (notMem_omittable hfirst v), rfl, h',
      fun hmem => absurd hmem (notMem_omittable hsecond w), rfl⟩
  have hne : second ≠ first := fun heq => by simp [heq] at hnodup
  have hmembers : ∀ m ∈ [(first, v), (second, w)],
      (Fields.required first readFirst (.required second readSecond .done)).Uses m.1 m.2.chars :=
    List.forall_mem_cons.mpr ⟨by rwa [Fields.required, Fields.Uses, if_pos rfl],
      List.forall_mem_singleton.mpr
        (by rwa [Fields.required, Fields.Uses, if_neg hne, Fields.required, Fields.Uses,
          if_pos rfl])⟩
  have hneeds := hfields.needsAll hnodup hmembers
  exact (restores_twoFields hnodup hfirst hsecond h h').spans hneeds.left.usesAll

section Alternatives

variable {α : Type} {variants : List (Variant α)} {name : String} {read : Reader α} {v : Value}

/-- **A name alone** that was cut is truncated, whatever the alternatives are. -/
lemma needsAll_alone (variants : List (Variant α)) (name : String) :
    NeedsAll (oneOf variants) (Value.string name).chars := by
  rw [Value.chars]
  exact needsAll_oneOf_alone variants name

/-- **An alternative with contents** that was cut is truncated, wherever it was cut. -/
lemma needsAll_containing (hfind : variants.find? (·.name = name) = some (.containing name read))
    (h : Spans read v.chars) : NeedsAll (oneOf variants) (tagged name v).chars := by
  have htext : (tagged name v).chars =
      '\x7b' :: (quoted name ++ ([':'] ++ (v.chars ++ ['\x7d']))) := by
    rw [tagged, Value.chars, Value.membersChars]
    simp
  rw [htext]
  exact needsAll_oneOf_containing hfind h

end Alternatives

/-! ## Nodes -/

/-- **A literal that is no floating-point number.**

**Proof sketch.** What is written is given back (`restores_readLiteral`), so only the cuts are left.
A literal with a content is an object of one member, which is not complete without its last brace,
whatever the content is (`needsAll_containing`); a literal without one is a string and needs its
last quote. The integers differ in their widths only, and a floating-point number is excluded. -/
lemma spans_readLiteral {l : Literal} (h : l.isFloating = false) :
    Spans readLiteral (writeLiteral l).chars := by
  refine (restores_readLiteral h).spans (NeedsAll.usesAll ?_)
  cases l with
  | byte n =>
    exact needsAll_containing rfl
      (spans_map (spans_signedInteger (by decide) n.le_toInt n.toInt_lt) fun n => ⟨_, rfl⟩)
  | short n =>
    exact needsAll_containing rfl
      (spans_map (spans_signedInteger (by decide) n.le_toInt n.toInt_lt) fun n => ⟨_, rfl⟩)
  | int n =>
    exact needsAll_containing rfl
      (spans_map (spans_signedInteger (by decide) n.le_toInt n.toInt_lt) fun n => ⟨_, rfl⟩)
  | long n =>
    exact needsAll_containing rfl
      (spans_map (spans_signedInteger (by decide) n.le_toInt n.toInt_lt) fun n => ⟨_, rfl⟩)
  | float x => cases h
  | double x => cases h
  | char c =>
    have hcharacter : Spans character (Value.string (String.singleton c)).chars :=
      (restores_character c).spans (needsAll_readString _).left.usesAll
    exact needsAll_containing rfl (spans_map hcharacter fun c => ⟨_, rfl⟩)
  | boolean b =>
    have hboolean := (restores_boolean b).spans (needsAll_boolean b).usesAll
    exact needsAll_containing rfl (spans_map hboolean fun b => ⟨_, rfl⟩)
  | string s =>
    have hstring := (restores_string s).spans (needsAll_readString s).usesAll
    exact needsAll_containing rfl (spans_map hstring fun s => ⟨_, rfl⟩)
  | null => exact needsAll_alone _ _

/-- **The kind of a node** that is no floating-point number.

**Proof sketch.** What is written is given back (`restores_readKind`), so only the cuts are left.
Kinds without a content are strings; the others are objects of one member, whose content is a record
of one or two fields. Each field spans its text, the strings, lists and operators by their own
lemmas and a literal by `spans_readLiteral`. -/
lemma spans_readKind {k : NodeKind} (h : k.isFloating = false) :
    Spans readKind (writeKind k).chars := by
  have hstring : ∀ s : String, UsesAll string (Value.string s).chars := fun s =>
    (needsAll_readString s).usesAll
  have hstrings : ∀ ps : List String, UsesAll (list string) (writeStrings ps).chars := fun ps =>
    (needsAll_strings ps).usesAll
  refine (restores_readKind h).spans (NeedsAll.usesAll ?_)
  cases k with
  | compilationUnit | block | ifStatement | switchStatement | caseArm | whileLoop | forLoop
  | returnStatement | breakStatement | continueStatement | throwStatement | assignment
  | thisAccess => exact needsAll_alone _ _
  | classDeclaration s | localVariable s | variableRead s | fieldRead s | fieldWrite s
  | invocation s | typeAccess s | other s =>
    exact needsAll_containing rfl
      (spans_oneField rfl (by decide) (restores_string s) (hstring s))
  | initializer ps | lambda ps =>
    exact needsAll_containing rfl
      (spans_oneField rfl (by decide) (restores_strings ps) (hstrings ps))
  | method s ps =>
    exact needsAll_containing rfl (spans_twoFields (by decide) (by decide) (by decide)
      (restores_string s) (restores_strings ps) (hstring s) (hstrings ps))
  | binary op =>
    exact needsAll_containing rfl (spans_oneField rfl (by decide) (restores_readBinaryOperator op)
      (needsAll_alone _ _).usesAll)
  | unary op =>
    exact needsAll_containing rfl (spans_oneField rfl (by decide) (restores_readUnaryOperator op)
      (needsAll_alone _ _).usesAll)
  | literal l =>
    exact needsAll_containing rfl (spans_oneField rfl (by decide) (restores_readLiteral h)
      (spans_readLiteral h).usesAll)

/-- **A node** that is no floating-point number. -/
lemma spans_readNode {n : Node} (h : n.kind.isFloating = false) :
    Spans readNode (writeNode n).chars := by
  have hchildren : UsesAll (list readNodeId) (Value.array (n.children.map writeNodeId)).chars :=
    (needsAll_list_map fun id _ => spans_readNodeId id).usesAll
  have hnodup : ["kind", "parent", "children"].Nodup := by decide
  have hneeds := RestoresFields.needsAll (restoresFields_node h) hnodup
    (List.forall_mem_cons.mpr ⟨(spans_readKind h).usesAll,
      List.forall_mem_cons.mpr ⟨usesAll_readParent n.parent,
        List.forall_mem_singleton.mpr hchildren⟩⟩)
  exact (restores_readNode h).spans hneeds.left.usesAll

/-- **A tree** without floating-point numbers is taken whole. -/
lemma spans_readTree {t : Tree} (h : t.Exact) : Spans readTree (writeTree t).chars := by
  have hrestores := restores_list_map fun n hn => restores_readNode (h n hn)
  have huses := (needsAll_list_map fun n hn => spans_readNode (h n hn)).usesAll
  exact spans_oneField rfl (by decide) hrestores huses

/-! ## Compared files -/

/-- **An edit** is taken whole, whichever of the four it is. -/
lemma spans_readEdit (e : Edit NodeId) : Spans readEdit (writeEdit e).chars := by
  refine (restores_readEdit e).spans (NeedsAll.usesAll ?_)
  cases e with
  | insert id | delete id =>
    exact needsAll_containing rfl
      (spans_oneField rfl (by decide) (restores_readNodeId id) (usesAll_readNodeId id))
  | update before after | move before after =>
    exact needsAll_containing rfl (spans_twoFields (by decide) (by decide) (by decide)
      (restores_readNodeId before) (restores_readNodeId after) (usesAll_readNodeId before)
      (usesAll_readNodeId after))

/-- **A compared file** without floating-point numbers is needed whole. -/
lemma needsAll_readFileDiff {d : FileDiff} (hbefore : d.before.Exact) (hafter : d.after.Exact) :
    NeedsAll readFileDiff (writeFileDiff d).chars := by
  have hoperations : UsesAll (list readEdit) (Value.array (d.operations.map writeEdit)).chars :=
    (needsAll_list_map fun e _ => spans_readEdit e).usesAll
  have hnodup : ["path", "before", "after", "operations"].Nodup := by decide
  have hneeds := RestoresFields.needsAll (restoresFields_fileDiff hbefore hafter) hnodup
    (List.forall_mem_cons.mpr ⟨(needsAll_readString d.path).usesAll,
      List.forall_mem_cons.mpr ⟨(spans_readTree hbefore).usesAll,
        List.forall_mem_cons.mpr ⟨(spans_readTree hafter).usesAll,
          List.forall_mem_singleton.mpr hoperations⟩⟩⟩)
  exact hneeds.left

/-- **A text that was cut off is truncated.** -/
theorem decode_of_cut {d : FileDiff} (hbefore : d.before.Exact) (hafter : d.after.Exact)
    {front back : String} (htext : (writeFileDiff d).render = front ++ back) (hback : back ≠ "") :
    decode readFileDiff front = .error .truncated := by
  have hchars : (writeFileDiff d).chars = front.toList ++ back.toList := by
    rw [← String.toList_append, ← htext, Value.render, String.toList_ofList]
  have hrun := needsAll_readFileDiff hbefore hafter _ _ hchars (by simpa using hback)
  unfold decode readWhole
  rw [hrun]
  rfl

/-- **A text that goes on is malformed**, unless blanks are all that comes. -/
theorem decode_of_append {d : FileDiff} (hbefore : d.before.Exact) (hafter : d.after.Exact)
    (behind : String) :
    decode readFileDiff ((writeFileDiff d).render ++ behind) =
      if behind.toList.all isBlank then .ok d else .error .malformed := by
  obtain ⟨ts, hts, hflatten⟩ := exists_renders (writeFileDiff d)
  have hrun := takes_readFileDiff hbefore hafter hts _ behind.toList (laid_flatten ts)
  have htext : ((writeFileDiff d).render ++ behind).toList = ts.flatten ++ behind.toList := by
    rw [String.toList_append, Value.render, String.toList_ofList, hflatten]
  unfold decode readWhole
  rw [htext, hrun]
  rfl

end EditIdioms.Document
