import EditIdioms.Proofs.Json.Cutting
import EditIdioms.Proofs.Json.Shapes

set_option relaxedAutoImplicit false
set_option autoImplicit false

/-!
# Reading arrays, records and alternatives that were cut off

Items and members are wanted up to a closing bracket, so the text may be cut anywhere inside, and
even behind a value that does not show where it ends. How many items a reader looks for at most
depends on how much is left of the text; where there is less, it comes to the end all the same.

## Main definitions

* `Spans` — a reader takes a text whole, and all of what is left of it when it was cut.
* `itemsText`, `membersText` — what of an array or object is still to come.
* `Fields.Uses` — the reader of a field uses all of a text.

## Main results

* `needsAll_list` — an array.
* `needsAll_record` — a record.
* `needsAll_oneOf_alone`, `needsAll_oneOf_containing` — an alternative.
-/

namespace EditIdioms.Json

/-! ## Arrays -/

/-- The reader takes the text whole, and all of what is left of it when it was cut. -/
structure Spans {α : Type} (read : Reader α) (text : List Char) : Prop where
  opening : ∃ c cs, text = c :: cs ∧ isBlank c = false ∧ c ≠ ']'
  completes : ∃ a, ∀ rest, Closed rest → read.run (text ++ rest) = .ok (a, rest)
  usesAll : UsesAll read text

/-- The characters of items that are still to come, before the first one or behind it. -/
def itemsText (isFirst : Bool) : List Value → List Char
  | [] => [']']
  | v :: items => (separator isFirst).flatten ++ (v.chars ++ itemsText false items)

/-- These are the characters of an array behind its opening bracket. -/
lemma array_chars (items : List Value) :
    (Value.array items).chars = '[' :: itemsText true items := by
  have hbehind : ∀ items : List Value, Value.itemsChars items = itemsText false items := by
    intro items
    induction items with
    | nil => rw [Value.itemsChars, itemsText]
    | cons v items ih =>
      rw [Value.itemsChars, itemsText, ih]
      rfl
  cases items with
  | nil => rw [Value.chars, itemsText]
  | cons v items =>
    rw [Value.chars, itemsText, hbehind]
    rfl

/-- The items behind the first close what comes before them. -/
lemma closed_itemsText (items : List Value) : Closed (itemsText false items) := by
  intro c hc
  cases items with
  | nil => cases hc; rfl
  | cons v items => cases hc; rfl

section Arrays

variable {α β : Type} {read : Reader α} {item rest cs : List Char} {c : Char}

/-- Another item comes. Its first character is looked at, and left where it is.

**Proof sketch.** Behind no separator the item's first character is looked at, and what has been cut
off lies behind it. Behind a comma the text can also end right there, and then the character that
should follow is missing; if it is there, it is looked at as before. Either way `moreItems` leaves
the item's beginning as it is, and what comes next needs all of it. -/
lemma needsAll_moreItems_bind (isFirst : Bool) {next : Bool → Reader β} (hc : isBlank c = false)
    (hbracket : c ≠ ']') (h : NeedsAll (next true) (c :: cs)) :
    NeedsAll (moreItems isFirst >>= next) ((separator isFirst).flatten ++ c :: cs) := by
  have hitem : ∀ front back, cs = front ++ back → back ≠ [] →
      (next true).run (c :: front) = .error .truncated := fun front back hcs hback =>
    h (c :: front) back (congrArg (c :: ·) hcs) hback
  cases isFirst with
  | true =>
    change NeedsAll _ (c :: cs)
    refine needsAll_cons rfl fun front back hcs hback => ?_
    have hmore : (moreItems true).run (c :: front) = .ok (true, c :: front) := by
      unfold moreItems
      rw [run_peek_bind_cons hc, if_neg hbracket, if_pos rfl]
      rfl
    rw [run_bind_of_ok hmore, hitem front back hcs hback]
  | false =>
    change NeedsAll _ (',' :: c :: cs)
    refine needsAll_cons rfl fun front back hcs hback => ?_
    cases front with
    | nil => rfl
    | cons d front =>
      obtain ⟨rfl, hbehind⟩ := List.cons.inj hcs
      have hmore : (moreItems false).run (',' :: c :: front) = .ok (true, c :: front) := by
        unfold moreItems
        rw [run_peek_bind_cons rfl, if_neg (by decide), if_neg Bool.false_ne_true, if_pos rfl,
          run_advance_bind, run_peek_bind_cons hc, if_neg hbracket]
        rfl
      rw [run_bind_of_ok hmore, hitem front back hbehind hback]

/-- Items are wanted up to the closing bracket. -/
lemma run_itemsWithin_nil (bound : ℕ) (isFirst : Bool) :
    (itemsWithin read bound isFirst).run [] = .error .truncated := by
  cases bound <;> rfl

/-- **An item** and what comes behind it. -/
lemma needsAll_itemsWithin_cons (hitem : Spans read item) (hclosed : Closed rest)
    (h : ∀ bound, NeedsAll (itemsWithin read bound false) rest) (bound : ℕ) (isFirst : Bool) :
    NeedsAll (itemsWithin read bound isFirst) ((separator isFirst).flatten ++ (item ++ rest)) := by
  cases bound with
  | zero => exact fun _ _ _ _ => rfl
  | succ bound =>
    obtain ⟨c, cs, rfl, hc, hbracket⟩ := hitem.opening
    obtain ⟨a, hrun⟩ := hitem.completes
    rw [itemsWithin]
    refine needsAll_moreItems_bind isFirst hc hbracket ?_
    rw [if_pos rfl]
    exact hitem.usesAll.bind hrun (fun a => run_bind_of_error (run_itemsWithin_nil bound false))
      hclosed (h bound).left

/-- **The items of an array**, the first one or those behind it, are truncated wherever they were
cut, the closing bracket included.

**Proof sketch.** Induction on the items. The bound is that of a cut text, so it may be any. -/
lemma needsAll_itemsWithin {items : List Value} (h : ∀ v ∈ items, Spans read v.chars) (bound : ℕ)
    (isFirst : Bool) : NeedsAll (itemsWithin read bound isFirst) (itemsText isFirst items) := by
  induction items generalizing bound isFirst with
  | nil => exact needsAll_singleton (run_itemsWithin_nil bound isFirst)
  | cons v items ih =>
    rw [List.forall_mem_cons] at h
    exact needsAll_itemsWithin_cons h.1 (closed_itemsText items) (fun bound => ih h.2 bound false)
      bound isFirst

/-- **An array** is truncated wherever it was cut, if its items are taken whole. -/
lemma needsAll_list {items : List Value} (h : ∀ v ∈ items, Spans read v.chars) :
    NeedsAll (list read) (Value.array items).chars := by
  rw [array_chars]
  refine needsAll_of_first rfl fun front back htext hback => ?_
  rw [if_pos rfl, run_advance_bind, run_get_bind]
  exact run_bind_of_error (needsAll_itemsWithin h front.length true front back htext hback)

end Arrays

/-! ## Records -/

/-- The characters of members that are still to come, before the first one or behind it. -/
def membersText (isFirst : Bool) : List (String × Value) → List Char
  | [] => ['\x7d']
  | (key, v) :: members =>
    (separator isFirst).flatten ++ (quoted key ++ (':' :: v.chars ++ membersText false members))

/-- These are the characters of an object behind its opening bracket. -/
lemma object_chars (members : List (String × Value)) :
    (Value.object members).chars = '\x7b' :: membersText true members := by
  have hbehind : ∀ members : List (String × Value),
      Value.membersChars members = membersText false members := by
    intro members
    induction members with
    | nil => rw [Value.membersChars, membersText]
    | cons m members ih =>
      rw [Value.membersChars, membersText, ih]
      simp [separator]
  cases members with
  | nil => rw [Value.chars, membersText]
  | cons m members =>
    rw [Value.chars, membersText, hbehind]
    simp [separator]

/-- The members behind the first close what comes before them. -/
lemma closed_membersText (members : List (String × Value)) :
    Closed (membersText false members) := by
  intro c hc
  cases members with
  | nil => cases hc; rfl
  | cons m members => cases hc; rfl

/-- The reader of the field of that name uses all of the text. -/
def Fields.Uses : {δ τ : Type} → Fields δ τ → (key : String) → (text : List Char) → Prop
  | _, _, done, _, _ => False
  | _, _, field name read _ _ rest, key, text =>
    if key = name then UsesAll read text else rest.Uses key text

section Records

variable {δ τ : Type} {fields : Fields δ τ} {value : τ} {come : String → Bool} {key : String}
  {text rest : List Char}

/-- **A member that has not come before** is used as the value of its field.

**Proof sketch.** Induction on the fields. The field of that name has not come, so its own reader is
what is found: it expects a colon and then uses all of its value. Any other field leaves the member
to those behind it, and the draft is put together from what they give. -/
lemma Fields.usesAll_member? {read : Reader δ} (h : fields.Uses key text) (hcome : come key = false)
    (hread : fields.member? key (fields.draft come value) = some read) :
    UsesAll read (':' :: text) := by
  induction fields with
  | done => cases hread
  | field name readField absent? unwritten? rest ih =>
    obtain ⟨a, value⟩ := value
    rw [Uses] at h
    rw [draft, member?] at hread
    by_cases hname : key = name
    · subst hname
      rw [if_pos rfl] at h
      rw [if_pos rfl, hcome] at hread
      obtain rfl := Option.some.inj hread
      exact (needsAll_expect _).bind_usesAll (fun rest => run_expect rfl rest)
        (h.map fun a => ⟨_, rfl⟩)
    · rw [if_neg hname] at h
      rw [if_neg hname] at hread
      obtain ⟨readRest, hrest, rfl⟩ := Option.map_eq_some_iff.mp hread
      exact (ih h hrest).map fun draft => ⟨_, rfl⟩

/-- Behind the separator the quote that opens the next key is taken. -/
lemma run_moreKeys_cons (isFirst : Bool) (rest : List Char) :
    (moreKeys isFirst).run ((separator isFirst).flatten ++ ['"'] ++ rest) = .ok (true, rest) := by
  cases isFirst <;> rfl

/-- Up to the quote, what opens another key is needed. -/
lemma needsAll_moreKeys (isFirst : Bool) :
    NeedsAll (moreKeys isFirst) ((separator isFirst).flatten ++ ['"']) := by
  cases isFirst with
  | true => exact needsAll_singleton rfl
  | false =>
    refine needsAll_cons rfl fun front back htext hback => ?_
    cases front with
    | nil => rfl
    | cons c front => exact absurd (eq_nil_of_cut (List.cons.inj htext).2) hback

/-- Members are wanted up to the closing bracket. -/
lemma run_membersWithin_nil (bound : ℕ) (isFirst : Bool) (draft : δ) :
    (membersWithin fields bound isFirst draft).run [] = .error .truncated := by
  cases bound <;> rfl

/-- **A member** and what comes behind it.

**Proof sketch.** The text is cut up at the quote that opens the key: what stands up to there is
needed by `moreKeys`, what stands up to the closing quote by the reader of strings, and then the
colon and the value by the reader found for the key (`Fields.usesAll_member?`). Each part is read in
full before the next one is reached (`NeedsAll.bind`), and the rest is the hypothesis. -/
lemma needsAll_membersWithin_cons {ts : List Token} (hnodup : fields.names.Nodup)
    (hgives : fields.Gives value ⟨key, quoted key, ts⟩) (huses : fields.Uses key ts.flatten)
    (hcome : come key = false) (hclosed : Closed rest)
    (h : ∀ bound, NeedsAll (membersWithin fields bound false
      (fields.draft (fun name => name == key || come name) value)) rest)
    (bound : ℕ) (isFirst : Bool) :
    NeedsAll (membersWithin fields bound isFirst (fields.draft come value))
      ((separator isFirst).flatten ++ (quoted key ++ (':' :: ts.flatten ++ rest))) := by
  cases bound with
  | zero => exact fun _ _ _ _ => rfl
  | succ bound =>
    obtain ⟨text, hquoted, hspells⟩ := spells_quoted key
    obtain ⟨read, hread, hreads⟩ := Fields.exists_member? hnodup hgives hcome
    -- the quote that opens the key is taken with what comes before the member
    have hparts : (separator isFirst).flatten ++ (quoted key ++ (':' :: ts.flatten ++ rest)) =
        (separator isFirst).flatten ++ ['"'] ++ (text ++ ['"'] ++ (':' :: ts.flatten ++ rest)) := by
      rw [hquoted, inQuotes]
      simp
    have hkey : ∀ rest, stringBody.run (text ++ ['"'] ++ rest) = .ok (key, rest) := by
      intro rest
      have hbody := run_stringBody hspells rest
      rw [String.ofList_toList] at hbody
      rw [List.append_assoc]
      exact hbody
    have hcolon : ∀ rest, Closed rest → read.run (':' :: ts.flatten ++ rest) = _ :=
      fun rest hrest => hreads _ rest (laid_flatten ([':'] :: ts)) hrest
    rw [hparts, membersWithin]
    refine (needsAll_moreKeys isFirst).bind (run_moreKeys_cons isFirst) ?_
    rw [if_pos rfl]
    refine (needsAll_stringBody hspells).bind hkey ?_
    rw [hread]
    exact (Fields.usesAll_member? huses hcome hread).bind hcolon
      (fun draft => run_membersWithin_nil bound false draft) hclosed (h bound)

/-- **The members of an object**, the first one or those behind it, are truncated wherever they were
cut, the closing brace included.

**Proof sketch.** Induction on the members. None of them comes again behind the first one. -/
lemma needsAll_membersWithin (hnodup : fields.names.Nodup) {members : List (String × Value)}
    (hgives : ∀ m ∈ members, ∃ ts, ts.flatten = m.2.chars ∧
      fields.Gives value ⟨m.1, quoted m.1, ts⟩)
    (huses : ∀ m ∈ members, fields.Uses m.1 m.2.chars) (honce : (members.map Prod.fst).Nodup)
    (hcome : ∀ m ∈ members, come m.1 = false) (bound : ℕ) (isFirst : Bool) :
    NeedsAll (membersWithin fields bound isFirst (fields.draft come value))
      (membersText isFirst members) := by
  induction members generalizing come bound isFirst with
  | nil => exact needsAll_singleton (run_membersWithin_nil bound isFirst _)
  | cons m members ih =>
    rw [List.forall_mem_cons] at hgives huses hcome
    rw [List.map_cons, List.nodup_cons] at honce
    obtain ⟨ts, hts, hgives'⟩ := hgives.1
    have hcome' : ∀ m' ∈ members, (m'.1 == m.1 || come m'.1) = false := by
      intro m' hm'
      have hne : m'.1 ≠ m.1 := fun heq => honce.1 (heq ▸ List.mem_map_of_mem hm')
      rw [beq_false_of_ne hne, Bool.false_or]
      exact hcome.2 m' hm'
    rw [membersText, ← hts]
    exact needsAll_membersWithin_cons hnodup hgives' (hts.symm ▸ huses.1) hcome.1
      (closed_membersText members)
      (fun bound => ih hgives.2 huses.2 honce.2 hcome' bound false) bound isFirst

/-- **A record**, as an object of its members. -/
lemma needsAll_record (hnodup : fields.names.Nodup) {members : List (String × Value)}
    (hgives : ∀ m ∈ members, ∃ ts, ts.flatten = m.2.chars ∧
      fields.Gives value ⟨m.1, quoted m.1, ts⟩)
    (huses : ∀ m ∈ members, fields.Uses m.1 m.2.chars) (honce : (members.map Prod.fst).Nodup) :
    NeedsAll (record fields) (Value.object members).chars := by
  rw [object_chars]
  refine needsAll_of_first rfl fun front back htext hback => ?_
  have hmembers : NeedsAll (membersWithin fields front.length true
      (fields.draft (fun _ => false) value)) (membersText true members) :=
    needsAll_membersWithin hnodup hgives huses honce (fun _ _ => rfl) front.length true
  rw [Fields.draft_start] at hmembers
  rw [if_pos rfl, run_advance_bind, run_get_bind]
  exact run_bind_of_error (hmembers front back htext hback)

end Records

/-! ## Alternatives -/

section Alternatives

variable {α : Type} {variants : List (Variant α)} {variant : Variant α} {name : String}
  {read : Reader α} {text : List Char}

/-- The name of an alternative is truncated wherever it was cut, whatever the alternatives are. -/
lemma needsAll_variantName (variants : List (Variant α)) (name : String) :
    NeedsAll (variantName variants) (quoted name) :=
  (needsAll_string name).left

/-- The name of an alternative as it is written is taken whole. -/
lemma run_variantName (hfind : variants.find? (·.name = name) = some variant) (rest : List Char) :
    (variantName variants).run (quoted name ++ rest) = .ok (variant, rest) := by
  unfold variantName
  rw [run_bind_of_ok (run_string name rest), hfind]
  rfl

/-- **An alternative that is a name alone.** -/
lemma needsAll_oneOf_alone (variants : List (Variant α)) (name : String) :
    NeedsAll (oneOf variants) (quoted name) := by
  have hname := needsAll_variantName variants name
  rw [quoted] at hname ⊢
  refine needsAll_of_first rfl fun front back htext hback => ?_
  rw [if_neg (by decide), if_pos rfl]
  refine run_bind_of_error (hname ('"' :: front) back ?_ hback)
  rw [List.cons_append, List.cons_append, ← htext]
  rfl

/-- **An alternative with contents** is truncated wherever it was cut, if its contents are taken
whole.

**Proof sketch.** The bracket that opens the object is taken first. Then the name is needed in full,
then the colon, then all of the contents, and at last the closing bracket, which also closes the
contents. -/
lemma needsAll_oneOf_containing
    (hfind : variants.find? (·.name = name) = some (.containing name read))
    (hcontents : Spans read text) :
    NeedsAll (oneOf variants) ('\x7b' :: (quoted name ++ ([':'] ++ (text ++ ['\x7d'])))) := by
  obtain ⟨a, hrun⟩ := hcontents.completes
  have hclosed : Closed ['\x7d'] := fun c hc => by cases hc; rfl
  have hbehind : NeedsAll (read >>= fun a => expect '\x7d' >>= fun _ => pure a)
      (text ++ ['\x7d']) :=
    hcontents.usesAll.bind hrun (fun a => rfl) hclosed (needsAll_expect _).left
  have hname : NeedsAll (variantName variants >>= fun variant => expect ':' >>= fun _ =>
      variant.contents >>= fun a => expect '\x7d' >>= fun _ => pure a)
      (quoted name ++ ([':'] ++ (text ++ ['\x7d']))) :=
    (needsAll_variantName variants name).bind (run_variantName hfind)
      ((needsAll_expect _).bind (run_expect rfl) hbehind)
  refine needsAll_of_first rfl fun front back htext hback => ?_
  rw [if_pos rfl, run_advance_bind]
  exact hname front back htext hback

end Alternatives

end EditIdioms.Json
