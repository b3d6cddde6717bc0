import EditIdioms.Proofs.Json.Shapes

set_option relaxedAutoImplicit false
set_option autoImplicit false

/-!
# Objects with some of the fields of a record

A record may be written as an object that has some of its fields, in any order, and members of other
names between them. What the value of a field may be is left open: each field that is there comes
with a description of the tokens of its value. A record whose readers read all that is so described
is read from every such object.

## Main definitions

* `FieldSpec`, `HasFields` — the fields that are there, and their members.
* `IsObject` — objects with these fields.
* `Fields.Admits` — the readers of the fields read what their values may be.

## Main results

* `takes_record_of_isObject` — a record is read from such an object.
-/

namespace EditIdioms.Json

/-! ## The objects -/

/-- The name of a field, and what the tokens of its value are if the field is there. -/
abbrev FieldSpec := String × Option (List Token → Prop)

/-- The members are the fields that are there, in their order. -/
inductive HasFields : List FieldSpec → List Member → Prop
  | nil : HasFields [] []
  | present {ok : List Token → Prop} {specs : List FieldSpec} {m : Member} {ms : List Member}
    (spelled : m.IsSpelled) (value : ok m.value) (rest : HasFields specs ms) :
    HasFields ((m.key, some ok) :: specs) (m :: ms)
  | absent {name : String} {specs : List FieldSpec} {ms : List Member} (rest : HasFields specs ms) :
    HasFields ((name, none) :: specs) ms

/-- The tokens are an object with the fields that are there, in any order, and with members of other
names between them. -/
def IsObject (specs : List FieldSpec) (ts : List Token) : Prop :=
  ∃ written added all : List Member, HasFields specs written ∧
    (∀ m ∈ added, m.IsSpelled ∧ m.key ∉ specs.map Prod.fst ∧ IsJson .value m.value) ∧
    all.Perm (written ++ added) ∧ ts = ['\x7b'] :: commas (all.map Member.tokens) ++ [['\x7d']]

/-- The fields are specified in their order. What a value may be is read as the value of its field,
and a field that is not there has its value without it. -/
def Fields.Admits : {δ τ : Type} → Fields δ τ → List FieldSpec → τ → Prop
  | _, _, .done, specs, _ => specs = []
  | _, _, .field _ _ _ _ _, [], _ => False
  | _, _, .field name read absent? _ rest, (key, ok?) :: specs, (a, value) =>
    key = name ∧ (∀ ok ∈ ok?, ∀ ts, ok ts → Reads read ts a) ∧ (ok? = none → absent? = some a) ∧
      rest.Admits specs value

/-- A key as it is written is spelled. -/
lemma isSpelled_quoted (key : String) (value : List Token) :
    Member.IsSpelled ⟨key, quoted key, value⟩ := by
  obtain ⟨text, hquoted, hspells⟩ := spells_quoted key
  exact ⟨text, hspells, hquoted⟩

/-! ## Reading them -/

section Objects

variable {δ τ : Type} {fields : Fields δ τ} {specs : List FieldSpec} {value : τ} {ms : List Member}

/-- The fields that are there have some of the names. -/
lemma HasFields.sublist (h : HasFields specs ms) :
    (ms.map Member.key).Sublist (specs.map Prod.fst) := by
  induction h with
  | nil => exact .slnil
  | present _ _ _ ih => exact ih.cons_cons _
  | absent _ ih => exact ih.cons _

/-- Each of them is spelled and has a value that it may have. -/
lemma HasFields.exists_spec (h : HasFields specs ms) :
    ∀ m ∈ ms, m.IsSpelled ∧ ∃ ok, (m.key, some ok) ∈ specs ∧ ok m.value := by
  induction h with
  | nil => exact List.forall_mem_nil _
  | present hspelled hvalue _ ih =>
    refine List.forall_mem_cons.mpr ⟨⟨hspelled, _, List.mem_cons_self, hvalue⟩, fun m hm => ?_⟩
    obtain ⟨hm', ok, hok, hvalue'⟩ := ih m hm
    exact ⟨hm', ok, List.mem_cons_of_mem _ hok, hvalue'⟩
  | absent _ ih =>
    intro m hm
    obtain ⟨hm', ok, hok, hvalue'⟩ := ih m hm
    exact ⟨hm', ok, List.mem_cons_of_mem _ hok, hvalue'⟩

namespace Fields

/-- The names are those of the fields. -/
lemma Admits.names (h : fields.Admits specs value) : specs.map Prod.fst = fields.names := by
  induction fields generalizing specs with
  | done =>
    cases h
    rfl
  | field name read absent? unwritten? rest ih =>
    cases specs with
    | nil => exact h.elim
    | cons spec specs =>
      obtain ⟨rfl, -, -, hrest⟩ := h
      rw [List.map_cons, ih hrest]
      rfl

/-- **A field that is there gives its value**, if the names are different.

**Proof sketch.** Induction on the fields with what is admitted for them. If the member is what is
admitted for the first field, the reader of that field reads its value. If it is admitted for a
later one, its name is among the later names and so differs from the first, and the field of its
name is found further back. -/
lemma Admits.gives (h : fields.Admits specs value) (hnodup : fields.names.Nodup) {m : Member}
    {ok : List Token → Prop} (hmem : (m.key, some ok) ∈ specs) (hvalue : ok m.value) :
    fields.Gives value m := by
  induction fields generalizing specs with
  | done =>
    cases h
    cases hmem
  | field name read absent? unwritten? rest ih =>
    cases specs with
    | nil => exact h.elim
    | cons spec specs =>
      obtain ⟨a, value⟩ := value
      obtain ⟨rfl, hreads, -, hrest⟩ := h
      rw [Fields.names, List.nodup_cons] at hnodup
      rw [Gives]
      rcases List.mem_cons.mp hmem with rfl | hmem
      · rw [if_pos rfl]
        exact hreads ok rfl _ hvalue
      · have hlater : m.key ∈ rest.names := by
          rw [← hrest.names]
          exact List.mem_map_of_mem (f := Prod.fst) hmem
        have hne : m.key ≠ spec.1 := fun heq => hnodup.1 (heq ▸ hlater)
        rw [if_neg hne]
        exact ih hrest hnodup.2 hmem

/-- **The fields that are not there** have their values without them.

**Proof sketch.** Induction on the fields along the members. A field that is there has come, and
nothing is asked of it. One that is not there has its value without it, which is what it was
admitted with. -/
lemma Admits.fills (h : fields.Admits specs value) (hms : HasFields specs ms)
    {come : String → Bool} (hcome : ∀ m ∈ ms, come m.key = true) : fields.Fills come value := by
  induction fields generalizing specs ms with
  | done => trivial
  | field name read absent? unwritten? rest ih =>
    cases hms with
    | nil => exact h.elim
    | present _ _ hms =>
      obtain ⟨a, value⟩ := value
      obtain ⟨rfl, -, -, hrest⟩ := h
      rw [List.forall_mem_cons] at hcome
      refine ⟨fun hnone => ?_, ih hrest hms hcome.2⟩
      rw [hcome.1] at hnone
      cases hnone
    | absent hms =>
      obtain ⟨a, value⟩ := value
      obtain ⟨-, -, habsent, hrest⟩ := h
      exact ⟨fun _ => habsent rfl, ih hrest hms hcome⟩

end Fields

/-- **A record is read from an object with some of its fields**, whatever comes behind it.

**Proof sketch.** The members are those that were written and those that were added, in some order,
so each is one or the other. A written one has the name of a field, is read as the value of the
field (`Admits.gives`) and is no value to pass over. An added one has the name of no field and is
passed over. No name of a field comes twice, because only written members have such names and those
are part of the different names of the fields. The fields without a member are filled
(`Admits.fills`), and `takes_record` puts these together. -/
lemma takes_record_of_isObject (h : fields.Admits specs value) (hnodup : fields.names.Nodup)
    {ts : List Token} (hts : IsObject specs ts) : Takes (record fields) ts value := by
  obtain ⟨written, added, all, hwritten, hother, horder, rfl⟩ := hts
  rw [h.names] at hother
  have hmem : ∀ {m}, m ∈ all → m ∈ written ∨ m ∈ added := fun hm =>
    List.mem_append.mp (horder.subset hm)
  have hnames : (written.map Member.key).Sublist fields.names := by
    rw [← h.names]
    exact hwritten.sublist
  refine takes_record hnodup ?_ ?_ ?_ ?_ ?_
  · intro m hm
    rcases hmem hm with hm | hm
    · exact (hwritten.exists_spec m hm).1
    · exact (hother m hm).1
  · intro m hm hname
    rcases hmem hm with hm | hm
    · obtain ⟨-, ok, hok, hvalue⟩ := hwritten.exists_spec m hm
      exact h.gives hnodup hok hvalue
    · exact absurd hname (hother m hm).2.1
  · intro m hm hname
    rcases hmem hm with hm | hm
    · exact absurd (hnames.mem (List.mem_map_of_mem hm)) hname
    · exact (hother m hm).2.2
  · have hadded : (added.map Member.key).filter (· ∈ fields.names) = [] := by
      rw [List.filter_eq_nil_iff, List.forall_mem_map]
      exact fun m hm => by simpa using (hother m hm).2.1
    have hfilter := (horder.map Member.key).filter (· ∈ fields.names)
    rw [hfilter.nodup_iff, List.map_append, List.filter_append, hadded, List.append_nil]
    exact hnodup.sublist (List.filter_sublist.trans hnames)
  · refine h.fills hwritten fun m hm => ?_
    rw [List.contains_iff_mem]
    exact List.mem_map_of_mem (horder.symm.subset (List.mem_append_left _ hm))

end Objects

end EditIdioms.Json
