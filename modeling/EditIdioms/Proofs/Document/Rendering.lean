import EditIdioms.Document.Reading
import EditIdioms.Document.Writing
import EditIdioms.Proofs.Json.Integers
import EditIdioms.Proofs.Json.Objects

set_option relaxedAutoImplicit false
set_option autoImplicit false

/-!
# Renderings of documents

A document has one text as it is written, and many more that mean the same: the members of a record
come in any order, with members of other names between them, blanks stand between tokens, and some
members that say nothing are left out. The object around an alternative has nothing but its name.

## Main definitions

* `Renders` — the tokens render a value.
* `IsRendering` — the text renders a compared file.
* `Restores`, `RestoresFields` — a reader, or the fields of a record, give a value back from all
  that renders it.

## Main results

* `exists_renders` — a value as it is written is one of its renderings.
* `restores_list`, `restores_record`, `restores_alone`, `restores_containing` — arrays, records and
  alternatives are given back if their parts are.
-/

namespace EditIdioms.Document

open Json

/-! ## Renderings -/

/-- The name of an alternative starts with a capital letter, and that of a field does not. -/
def isTag (name : String) : Bool := name.toList.head?.any Char.isUpper

/-- The object is there for the name of an alternative. -/
def isAlternative : List (String × Value) → Bool
  | [(name, _)] => isTag name
  | _ => false

/-- The members that say nothing: no parent, no children, no path. -/
def omittable : List (String × Value) :=
  [("parent", .null), ("children", .array []), ("path", .string "")]

mutual

/-- The tokens render the value. -/
inductive Renders : Value → List Token → Prop
  | null : Renders .null [['n', 'u', 'l', 'l']]
  | boolean (b : Bool) : Renders (.boolean b) [(Value.boolean b).chars]
  | number (text : String) : Renders (.number text) [text.toList]
  | string (text : String) : Renders (.string text) [quoted text]
  | array {items : List Value} {parts : List (List Token)} (h : RendersItems items parts) :
    Renders (.array items) (['['] :: commas parts ++ [[']']])
  | alternative {name : String} {v : Value} {ts : List Token} (tag : isTag name = true)
    (h : Renders v ts) :
    Renders (.object [(name, v)]) (['\x7b'] :: quoted name :: [':'] :: ts ++ [['\x7d']])
  | record {members : List (String × Value)} {written added all : List Member}
    (record : isAlternative members = false) (h : RendersMembers members written)
    (other : ∀ m ∈ added, m.IsSpelled ∧ m.key ∉ members.map Prod.fst ∧ IsJson .value m.value)
    (order : all.Perm (written ++ added)) :
    Renders (.object members) (['\x7b'] :: commas (all.map Member.tokens) ++ [['\x7d']])

/-- The tokens render the items, one after another. -/
inductive RendersItems : List Value → List (List Token) → Prop
  | nil : RendersItems [] []
  | cons {v : Value} {items : List Value} {ts : List Token} {parts : List (List Token)}
    (h : Renders v ts) (rest : RendersItems items parts) : RendersItems (v :: items) (ts :: parts)

/-- What is written renders the members, except some that may be left out. -/
inductive RendersMembers : List (String × Value) → List Member → Prop
  | nil : RendersMembers [] []
  | written {name : String} {v : Value} {members : List (String × Value)} {ts : List Token}
    {ms : List Member} (h : Renders v ts) (rest : RendersMembers members ms) :
    RendersMembers ((name, v) :: members) (⟨name, quoted name, ts⟩ :: ms)
  | omitted {m : String × Value} {members : List (String × Value)} {ms : List Member}
    (silent : m ∈ omittable) (rest : RendersMembers members ms) : RendersMembers (m :: members) ms

end

/-- The text renders the compared file. -/
def IsRendering (d : FileDiff) (text : String) : Prop :=
  ∃ ts, Renders (writeFileDiff d) ts ∧ SpacedOut ts text.toList

/-! ## What is written is a rendering -/

/-- A record with nothing added, in its order. -/
lemma renders_record {members : List (String × Value)} {ms : List Member}
    (hrecord : isAlternative members = false) (h : RendersMembers members ms) :
    Renders (.object members) (['\x7b'] :: commas (ms.map Member.tokens) ++ [['\x7d']]) :=
  .record hrecord h (List.forall_mem_nil _) (by rw [List.append_nil])

mutual

/-- **A value as it is written** is one of its renderings.

**Proof sketch.** Induction on the value, together with its items and members. A value without parts
is its own text. Items are joined by commas in the rendering as in the text (`commas_cons`). An
object of one member may be an alternative, and is rendered as such if it looks like one; any other
object is a record with all fields written. -/
theorem exists_renders (v : Value) : ∃ ts, Renders v ts ∧ ts.flatten = v.chars := by
  cases v with
  | null => exact ⟨_, .null, rfl⟩
  | boolean b => exact ⟨_, .boolean b, List.flatten_singleton⟩
  | number text => exact ⟨_, .number text, by rw [List.flatten_singleton, Value.chars]⟩
  | string text => exact ⟨_, .string text, by rw [List.flatten_singleton, Value.chars]⟩
  | array items =>
    cases items with
    | nil => exact ⟨_, .array .nil, by rw [Value.chars]; rfl⟩
    | cons v items =>
      obtain ⟨ts, hts, hflatten⟩ := exists_renders v
      obtain ⟨parts, hparts, hitems⟩ := exists_rendersItems items
      refine ⟨_, .array (.cons hts hparts), ?_⟩
      rw [Value.chars, ← hflatten, ← hitems, commas_cons]
      simp
  | object members =>
    cases members with
    | nil => exact ⟨_, renders_record rfl .nil, by rw [Value.chars]; rfl⟩
    | cons m members =>
      obtain ⟨name, v⟩ := m
      obtain ⟨ts, hts, hflatten⟩ := exists_renders v
      obtain ⟨ms, hms, hmembers⟩ := exists_rendersMembers members
      cases halternative : isAlternative ((name, v) :: members) with
      | true =>
        cases members with
        | cons m members => cases halternative
        | nil =>
          refine ⟨_, .alternative halternative hts, ?_⟩
          rw [Value.chars, Value.membersChars, ← hflatten]
          simp
      | false =>
        refine ⟨_, renders_record halternative (.written hts hms), ?_⟩
        rw [Value.chars, ← hflatten, ← hmembers, List.map_cons, commas_cons]
        simp [Member.tokens]

/-- The items behind the first one. -/
theorem exists_rendersItems (items : List Value) : ∃ parts, RendersItems items parts ∧
    (behindCommas parts).flatten ++ [']'] = Value.itemsChars items := by
  cases items with
  | nil => exact ⟨[], .nil, by rw [Value.itemsChars]; rfl⟩
  | cons v items =>
    obtain ⟨ts, hts, hflatten⟩ := exists_renders v
    obtain ⟨parts, hparts, hitems⟩ := exists_rendersItems items
    refine ⟨_, .cons hts hparts, ?_⟩
    rw [Value.itemsChars, ← hflatten, ← hitems]
    simp [behindCommas]

/-- The members behind the first one. -/
theorem exists_rendersMembers (members : List (String × Value)) : ∃ ms,
    RendersMembers members ms ∧ (behindCommas (ms.map Member.tokens)).flatten ++ ['\x7d'] =
      Value.membersChars members := by
  cases members with
  | nil => exact ⟨[], .nil, by rw [Value.membersChars]; rfl⟩
  | cons m members =>
    obtain ⟨name, v⟩ := m
    obtain ⟨ts, hts, hflatten⟩ := exists_renders v
    obtain ⟨ms, hms, hmembers⟩ := exists_rendersMembers members
    refine ⟨_, .written hts hms, ?_⟩
    rw [Value.membersChars, ← hflatten, ← hmembers]
    simp [behindCommas, Member.tokens]

end

/-! ## Readers that give values back -/

/-- The reader gives `a` back from all that renders the value. -/
def Restores {α : Type} (read : Reader α) (v : Value) (a : α) : Prop :=
  ∀ ts, Renders v ts → Opening ts ∧ Reads read ts a

section Restores

variable {α β : Type} {read : Reader α} {v : Value} {a : α}

/-- Making another value of what is given back. -/
lemma Restores.map {next : α → Reader β} {b : β} (h : Restores read v a) (hnext : next a = pure b) :
    Restores (read >>= next) v b :=
  fun ts hts => ⟨(h ts hts).1, (h ts hts).2.map hnext⟩

/-- **A string** is given back from every way to spell it. -/
lemma restores_string (s : String) : Restores string (.string s) s := by
  intro ts h
  cases h
  obtain ⟨text, hquoted, hspells⟩ := spells_quoted s
  rw [hquoted]
  exact ⟨⟨'"', text ++ ['"'], [], rfl, rfl, by decide⟩, (takes_string hspells).reads⟩

/-- A character is given back from every way to spell the string of that character. -/
lemma restores_character (c : Char) : Restores character (.string (String.singleton c)) c := by
  refine (restores_string _).map ?_
  rw [String.toList_singleton]

/-- A truth value is given back. -/
lemma restores_boolean (b : Bool) : Restores boolean (.boolean b) b := by
  intro ts h
  cases h
  refine ⟨?_, (takes_boolean b).reads⟩
  cases b with
  | true => exact ⟨'t', ['r', 'u', 'e'], [], rfl, rfl, by decide⟩
  | false => exact ⟨'f', ['a', 'l', 's', 'e'], [], rfl, rfl, by decide⟩

/-- **An integer within bounds** is given back. -/
lemma restores_integerWithin {low high n : ℤ} (hlow : low ≤ n) (hhigh : n ≤ high)
    (hlow' : -(negativeLimit : ℤ) ≤ low) (hhigh' : high ≤ significandLimit) :
    Restores (integerWithin low high) (writeInteger n) n := by
  intro ts h
  cases h
  rw [integerText, String.toList_ofList]
  obtain ⟨c, cs, hcs, hc⟩ := head?_integerDigits n
  refine ⟨⟨c, cs, [], by rw [hcs], isBlank_of_starts hc, ?_⟩,
    reads_integerWithin hlow hhigh hlow' hhigh'⟩
  rintro rfl
  rcases hc with hc | hc <;> cases hc

/-- An optional integer is given back. -/
lemma restores_optional {write : α → Value} {a? : Option α}
    (hinteger : ∀ a, ∃ n, write a = writeInteger n)
    (h : ∀ a, a? = some a → Restores read (write a) a) :
    Restores (Json.optional read) (writeOption write a?) a? := by
  intro ts hts
  cases a? with
  | none =>
    cases hts
    exact ⟨⟨'n', ['u', 'l', 'l'], [], rfl, rfl, by decide⟩, takes_optional_null.reads⟩
  | some a =>
    obtain ⟨n, hn⟩ := hinteger a
    obtain ⟨hopening, hreads⟩ := h a rfl ts hts
    rw [writeOption, hn] at hts
    cases hts
    obtain ⟨c, cs, hcs, hc⟩ := head?_integerDigits n
    rw [integerText, String.toList_ofList, hcs] at hreads hopening ⊢
    refine ⟨hopening, reads_optional hreads (isBlank_of_starts hc) ?_⟩
    rintro rfl
    rcases hc with hc | hc <;> cases hc

/-- **A list** is given back if its items are. -/
lemma restores_list {items : List Value} {l : List α} (h : List.Forall₂ (Restores read) items l) :
    Restores (list read) (.array items) l := by
  intro ts hts
  cases hts with
  | @array _ parts hparts =>
    refine ⟨⟨'[', [], _, rfl, rfl, by decide⟩, (takes_list ?_).reads⟩
    induction h generalizing parts with
    | nil =>
      cases hparts
      exact .nil
    | cons hitem _ ih =>
      cases hparts with
      | cons hts hparts => exact .cons (hitem _ hts) (ih hparts)

end Restores

/-! ## Records -/

/-- The members are those of the fields in their order. Each value is given back, and one that may
be left out is the value of the field without it. -/
def RestoresFields : {δ τ : Type} → Fields δ τ → List (String × Value) → τ → Prop
  | _, _, .done, members, _ => members = []
  | _, _, .field _ _ _ _ _, [], _ => False
  | _, _, .field name read absent? _ rest, (key, v) :: members, (a, value) =>
    key = name ∧ Restores read v a ∧ ((key, v) ∈ omittable → absent? = some a) ∧
      RestoresFields rest members value

section Records

variable {δ τ : Type} {fields : Fields δ τ} {members : List (String × Value)} {value : τ}
  {ms : List Member}

/-- Where all members are written, the value of each field may be what renders its member.

**Proof sketch.** Induction on the fields along the members. Each field has the name of its member,
and is given back by any text that renders the value of the member. As every member is written,
nothing is asked of fields that are missing. -/
lemma RestoresFields.admits (h : RestoresFields fields members value) :
    fields.Admits (members.map fun m => (m.1, some (Renders m.2))) value := by
  induction fields generalizing members with
  | done =>
    cases h
    rfl
  | field name read absent? unwritten? rest ih =>
    cases members with
    | nil => exact h.elim
    | cons m members =>
      obtain ⟨a, value⟩ := value
      obtain ⟨rfl, hvalue, -, hrest⟩ := h
      refine ⟨rfl, fun ok hok ts hts => ?_, nofun, ih hrest⟩
      cases hok
      exact (hvalue ts hts).2

/-- The members are named as the fields. -/
lemma RestoresFields.names (h : RestoresFields fields members value) :
    members.map Prod.fst = fields.names := by
  rw [← h.admits.names, List.map_map]
  rfl

/-- **What is written** are the fields that are there, and those that are left out have the values
that they have without it.

**Proof sketch.** Induction on the fields. Each field has a member of its own, in the same order. If
it is written, its rendering is what the field admits, and the reader gives the value back from it.
If it is omitted, the field is absent, and its value is the one that it has without being
written. -/
lemma RestoresFields.exists_specs (h : RestoresFields fields members value)
    (hms : RendersMembers members ms) :
    ∃ specs, fields.Admits specs value ∧ HasFields specs ms := by
  induction fields generalizing members ms with
  | done =>
    cases h
    cases hms
    exact ⟨[], rfl, .nil⟩
  | field name read absent? unwritten? rest ih =>
    cases members with
    | nil => exact h.elim
    | cons m members =>
      obtain ⟨a, value⟩ := value
      obtain ⟨rfl, hvalue, hsilent, hrest⟩ := h
      cases hms with
      | @written name v _ _ _ hts hms =>
        obtain ⟨specs, hadmits, hfields⟩ := ih hrest hms
        refine ⟨(name, some (Renders v)) :: specs, ⟨rfl, fun ok hok ts hts => ?_, nofun, hadmits⟩,
          .present (isSpelled_quoted _ _) hts hfields⟩
        cases hok
        exact (hvalue ts hts).2
      | omitted homit hms =>
        obtain ⟨specs, hadmits, hfields⟩ := ih hrest hms
        exact ⟨(m.1, none) :: specs, ⟨rfl, nofun, fun _ => hsilent homit, hadmits⟩,
          .absent hfields⟩

/-- **A record is read from all that renders it**, whatever comes behind it.

**Proof sketch.** A record is rendered as an object of some of its members and others, in any order,
as it is no alternative. Its fields admit what the members were rendered as
(`RestoresFields.exists_specs`), and a record is read from such an object
(`takes_record_of_isObject`). -/
lemma RestoresFields.takes (h : RestoresFields fields members value)
    (hnodup : fields.names.Nodup) (hrecord : isAlternative members = false) {ts : List Token}
    (hts : Renders (.object members) ts) : Opening ts ∧ Takes (record fields) ts value := by
  cases hts with
  | alternative htag =>
    rw [isAlternative, htag] at hrecord
    cases hrecord
  | @record _ written added all _ hwritten hother horder =>
    obtain ⟨specs, hadmits, hfields⟩ := h.exists_specs hwritten
    rw [h.names, ← hadmits.names] at hother
    exact ⟨⟨'\x7b', [], _, rfl, rfl, by decide⟩, takes_record_of_isObject hadmits hnodup
      ⟨written, added, all, hfields, hother, horder, rfl⟩⟩

/-- **A record is given back** if its members are. -/
lemma restores_record (hnodup : fields.names.Nodup) (hrecord : isAlternative members = false)
    (h : RestoresFields fields members value) :
    Restores (record fields) (.object members) value := by
  intro ts hts
  obtain ⟨hopening, htakes⟩ := h.takes hnodup hrecord hts
  exact ⟨hopening, htakes.reads⟩

/-- A member that has no name of those that may be left out is written. -/
lemma notMem_omittable {name : String} (h : name ∉ omittable.map Prod.fst) (v : Value) :
    (name, v) ∉ omittable := fun hmem => h (List.mem_map_of_mem hmem)

/-- **A record of one field** is given back, if its member may not be left out. -/
lemma restores_oneField {α β : Type} {name : String} {read : Reader α} {make : α → β} {v : Value}
    {a : α} (hname : isTag name = false) (hkept : name ∉ omittable.map Prod.fst)
    (h : Restores read v a) :
    Restores (oneField name read make) (.object [(name, v)]) (make a) := by
  have hnodup : [name].Nodup := by simp
  have hrecord : Restores (record (.required name read .done)) (.object [(name, v)]) (a, ()) :=
    restores_record hnodup hname
      ⟨rfl, h, fun hmem => absurd hmem (notMem_omittable hkept v), rfl⟩
  exact hrecord.map rfl

/-- **A record of two fields** is given back, if its members may not be left out. -/
lemma restores_twoFields {α β γ : Type} {first second : String} {readFirst : Reader α}
    {readSecond : Reader β} {make : α → β → γ} {v w : Value} {a : α} {b : β}
    (hnodup : [first, second].Nodup) (hfirst : first ∉ omittable.map Prod.fst)
    (hsecond : second ∉ omittable.map Prod.fst) (h : Restores readFirst v a)
    (h' : Restores readSecond w b) :
    Restores (twoFields first readFirst second readSecond make)
      (.object [(first, v), (second, w)]) (make a b) := by
  have hrecord : Restores (record (.required first readFirst (.required second readSecond .done)))
      (.object [(first, v), (second, w)]) (a, b, ()) :=
    restores_record hnodup rfl
      ⟨rfl, h, fun hmem => absurd hmem (notMem_omittable hfirst v), rfl, h',
        fun hmem => absurd hmem (notMem_omittable hsecond w), rfl⟩
  exact hrecord.map rfl

end Records

/-! ## Alternatives -/

section Alternatives

variable {α : Type} {variants : List (Variant α)} {name : String}

/-- **A name alone** is given back as its alternative. -/
lemma restores_alone {a : α} (hfind : variants.find? (·.name = name) = some (.bare name a)) :
    Restores (oneOf variants) (.string name) a := by
  intro ts hts
  cases hts
  obtain ⟨text, hquoted, hspells⟩ := spells_quoted name
  rw [hquoted]
  exact ⟨⟨'"', text ++ ['"'], [], rfl, rfl, by decide⟩, (takes_oneOf_alone hspells hfind).reads⟩

/-- **An alternative with contents** is given back if they are. -/
lemma restores_containing {read : Reader α} {v : Value} {a : α}
    (hfind : variants.find? (·.name = name) = some (.containing name read))
    (htag : isTag name = true) (h : Restores read v a) :
    Restores (oneOf variants) (tagged name v) a := by
  intro ts hts
  cases hts with
  | alternative _ hv =>
    obtain ⟨text, hquoted, hspells⟩ := spells_quoted name
    rw [hquoted]
    exact ⟨⟨'\x7b', [], _, rfl, rfl, by decide⟩,
      (takes_oneOf_containing hspells hfind (h _ hv).2).reads⟩
  | record hrecord =>
    rw [isAlternative, htag] at hrecord
    cases hrecord

end Alternatives

end EditIdioms.Document
