import EditIdioms.Proofs.Json.Skipping

set_option relaxedAutoImplicit false
set_option autoImplicit false

/-!
# Reading arrays, records and alternatives

A list is read item by item, and a record member by member. The members of an object may come in any
order, with any others between them: what has been read of a record is told by the names that have
come (`Fields.draft`), and a member that is no field does not change it.

## Main definitions

* `Member` — a member of an object.
* `commas` — tokens with commas between them.
* `Fields.draft` — what has been read of a record.
* `Fields.Gives`, `Fields.Fills` — a member gives the value of its field, and missing fields have
  their values.

## Main results

* `takes_list` — an array.
* `takes_record` — an object whose members come in any order.
* `takes_oneOf_alone`, `takes_oneOf_contents` — an alternative.
-/

namespace EditIdioms.Json

/-! ## Commas -/

/-- The parts with a comma between each two of them. -/
def commas (parts : List (List Token)) : List Token := [[',']].intercalate parts

/-- The parts with a comma before each of them. -/
def behindCommas (parts : List (List Token)) : List Token := parts.flatMap ([','] :: ·)

/-- Behind the first part, there is a comma before each part. -/
lemma commas_cons (part : List Token) (parts : List (List Token)) :
    commas (part :: parts) = part ++ behindCommas parts := by
  unfold commas behindCommas
  induction parts generalizing part with
  | nil => rw [List.intercalate_singleton, List.flatMap_nil, List.append_nil]
  | cons next parts ih =>
    rw [List.intercalate_cons_cons, ih, List.flatMap_cons, List.append_assoc]
    rfl

/-- The parts that are still to come, before the first one or behind it. -/
def remaining (isFirst : Bool) (parts : List (List Token)) : List Token :=
  if isFirst then commas parts else behindCommas parts

/-- What comes before a part. -/
def separator (isFirst : Bool) : List Token := if isFirst then [] else [[',']]

/-- The first of the parts that are still to come. -/
lemma remaining_cons (isFirst : Bool) (part : List Token) (parts : List (List Token)) :
    remaining isFirst (part :: parts) =
      separator isFirst ++ part ++ remaining false parts := by
  cases isFirst with
  | true => exact commas_cons part parts
  | false => exact List.flatMap_cons

/-- What is still to come closes what comes before it, together with a closing bracket. -/
lemma closing_remaining (parts : List (List Token)) {c : Char} (hc : isDelimiter c = true)
    (us : List Token) : Closing (remaining false parts ++ [c] :: us) := by
  cases parts with
  | nil => exact ⟨c, [], us, rfl, hc⟩
  | cons part parts => exact ⟨',', [], _, rfl, rfl⟩

section Arrays

variable {α : Type} {read : Reader α} {ts us : List Token} {text : List Char}

/-- What opens tokens may stand without the blanks before them. -/
lemma exists_of_opening (h : Opening ts) (hlaid : Laid ts text) :
    ∃ blanks c rest, (∀ d ∈ blanks, isBlank d = true) ∧ isBlank c = false ∧ c ≠ ']' ∧
      text = blanks ++ c :: rest ∧ Laid ts (c :: rest) := by
  obtain ⟨c, cs, us, rfl, hc, hbracket⟩ := h
  obtain ⟨blanks, rest, hblank, hrest, rfl⟩ := exists_of_laid_cons hlaid
  refine ⟨blanks, c, cs ++ rest, hblank, hc, hbracket, rfl, ?_⟩
  have hall : Laid ((c :: cs) :: us) ([] ++ ((c :: cs) ++ rest)) :=
    .cons (fun d hd => nomatch hd) hrest
  exact hall

/-- Another item comes, behind a comma if it is not the first one, and it is left where it is.

**Proof sketch.** By whether the item is the first. The first one follows some blanks, and the look
ahead passes over them and sees that its first character is no closing bracket. A later one follows
a comma, which is taken, and then the same is done behind it. The item's first character is not
taken, so the item is laid out in what is left. -/
lemma run_moreItems (isFirst : Bool) (h : Opening ts)
    (hlaid : Laid (separator isFirst ++ ts) text) :
    ∃ behind, Laid ts behind ∧ ∀ rest,
      (moreItems isFirst).run (text ++ rest) = .ok (true, behind ++ rest) := by
  cases isFirst with
  | true =>
    obtain ⟨blanks, c, inside, hblank, hc, hbracket, rfl, hitem⟩ := exists_of_opening h hlaid
    refine ⟨_, hitem, fun rest => ?_⟩
    rw [List.append_assoc]
    unfold moreItems
    rw [List.cons_append, run_peek_bind hblank hc, if_neg hbracket, if_pos rfl]
    rfl
  | false =>
    obtain ⟨blanks, behind, hblank, hbehind, rfl⟩ := exists_of_laid_cons hlaid
    obtain ⟨blanks', c, inside, hblank', hc, hbracket, rfl, hitem⟩ := exists_of_opening h hbehind
    refine ⟨_, hitem, fun rest => ?_⟩
    rw [List.append_assoc]
    change (moreItems false).run (blanks ++ ',' :: (blanks' ++ c :: inside ++ rest)) = _
    unfold moreItems
    rw [run_peek_bind hblank rfl, if_neg (by decide), if_neg Bool.false_ne_true, if_pos rfl,
      run_advance_bind, List.append_assoc, List.cons_append, run_peek_bind hblank' hc,
      if_neg hbracket]
    rfl

/-- No other item comes where the closing bracket is, and the bracket is left where it is. -/
lemma run_moreItems_end (isFirst : Bool) {blanks : List Char}
    (hblank : ∀ c ∈ blanks, isBlank c = true) (rest : List Char) :
    (moreItems isFirst).run (blanks ++ ']' :: rest) = .ok (false, ']' :: rest) := by
  unfold moreItems
  rw [run_peek_bind hblank rfl, if_pos rfl]
  rfl

/-- **The items of an array** are read up to its closing bracket.

**Proof sketch.** Induction on the items, each of which is closed by a comma or the bracket. -/
lemma run_itemsWithin {parts : List (List Token)} {l : List α}
    (h : List.Forall₂ (fun part a => Opening part ∧ Reads read part a) parts l) {bound : ℕ}
    (hbound : parts.length < bound) (isFirst : Bool)
    (hlaid : Laid (remaining isFirst parts ++ [[']']]) text) (rest : List Char) :
    (itemsWithin read bound isFirst).run (text ++ rest) = .ok (l, ']' :: rest) := by
  induction h generalizing bound isFirst text with
  | nil =>
    obtain ⟨bound, rfl⟩ := Nat.exists_eq_add_of_lt hbound
    have hnone : remaining isFirst [] = [] := by cases isFirst <;> rfl
    rw [hnone] at hlaid
    obtain ⟨blanks, hblank, rfl⟩ := exists_of_laid_singleton hlaid
    rw [List.append_assoc, itemsWithin]
    change StateT.run _ (blanks ++ ']' :: rest) = _
    rw [run_bind_of_ok (run_moreItems_end isFirst hblank rest), if_neg Bool.false_ne_true]
    rfl
  | @cons part a parts l hpart _ ih =>
    obtain ⟨bound, rfl⟩ := Nat.exists_eq_add_of_lt hbound
    rw [remaining_cons, List.append_assoc] at hlaid
    obtain ⟨first, second, hfirst, hsecond, rfl⟩ := laid_append.mp hlaid
    obtain ⟨behind, hbehind, hmore⟩ := run_moreItems isFirst hpart.1 hfirst
    have hclosed := (closing_remaining parts (c := ']') rfl []).closed hsecond rest
    have hrest : (itemsWithin read (parts.length + 1 + bound) false).run (second ++ rest) = _ :=
      ih (by omega) false hsecond
    have hbound' : (part :: parts).length + bound + 1 = parts.length + 1 + bound + 1 := by
      rw [List.length_cons]
    rw [hbound', List.append_assoc, itemsWithin, run_bind_of_ok (hmore _), if_pos rfl,
      run_bind_of_ok (hpart.2 behind _ hbehind hclosed), run_bind_of_ok hrest]
    rfl

/-- Each of the parts takes a character at least, and so does the bracket behind them.

**Proof sketch.** Induction on the parts. Each of them opens with a character that is no blank, and
so it is laid out in at least one character, whatever separator stands before it. The bracket at the
end is one more. -/
lemma length_parts {parts : List (List Token)} (h : ∀ part ∈ parts, Opening part) (isFirst : Bool)
    {c : Char} (hlaid : Laid (remaining isFirst parts ++ [[c]]) text) :
    parts.length < text.length := by
  induction parts generalizing isFirst text with
  | nil =>
    obtain ⟨before, behind, -, hbehind, rfl⟩ := laid_append.mp hlaid
    obtain ⟨blanks, nothing, -, -, rfl⟩ := exists_of_laid_cons hbehind
    simp only [List.length_append, List.length_cons, List.length_nil]
    omega
  | cons part parts ih =>
    rw [remaining_cons, List.append_assoc, List.append_assoc] at hlaid
    obtain ⟨before, behind, -, hbehind, rfl⟩ := laid_append.mp hlaid
    obtain ⟨first, second, hfirst, hsecond, rfl⟩ := laid_append.mp hbehind
    obtain ⟨blanks, c, inside, -, -, -, rfl, -⟩ :=
      exists_of_opening (h part List.mem_cons_self) hfirst
    have hrest := ih (fun part hpart => h part (List.mem_cons_of_mem _ hpart)) false hsecond
    simp only [List.length_append, List.length_cons]
    omega

/-- The closing character is taken where it comes. -/
lemma run_expect {c : Char} (hc : isBlank c = false) (rest : List Char) :
    (expect c).run (c :: rest) = .ok ((), rest) := by
  have htake := takes_expect hc [c] rest (laid_flatten [[c]])
  exact htake

/-- **An array** is read item by item.

**Proof sketch.** Each item takes at least one character (`length_parts`), so the length of the
input is a bound that is not reached, and the items are read within it up to the closing bracket
(`run_itemsWithin`), which is taken. -/
lemma takes_list {parts : List (List Token)} {l : List α}
    (h : List.Forall₂ (fun part a => Opening part ∧ Reads read part a) parts l) :
    Takes (list read) (['['] :: commas parts ++ [[']']]) l := by
  have hopening : ∀ part ∈ parts, Opening part := by
    induction h with
    | nil => exact fun part hpart => nomatch hpart
    | cons hpart _ ih => exact List.forall_mem_cons.mpr ⟨hpart.1, ih⟩
  refine takes_of_first rfl fun inside rest hinside => ?_
  have hlength : parts.length < (inside ++ rest).length := by
    have hparts := length_parts hopening true hinside
    rw [List.length_append]
    omega
  have hitems := run_itemsWithin h hlength true hinside rest
  rw [if_pos rfl, run_advance_bind]
  change ((itemsWithin read (inside ++ rest).length true) >>= fun items =>
    expect ']' >>= fun _ => pure items).run (inside ++ rest) = _
  rw [run_bind_of_ok hitems, run_bind_of_ok (run_expect rfl rest)]
  rfl

end Arrays

/-! ## Records -/

/-- A member of an object: its key, how the key is spelled, and the tokens of its value. -/
structure Member where
  key : String
  spelling : Token
  value : List Token
deriving DecidableEq

/-- The tokens of a member. -/
def Member.tokens (m : Member) : List Token := m.spelling :: [':'] :: m.value

/-- The key is spelled as it is. -/
def Member.IsSpelled (m : Member) : Prop :=
  ∃ text, Spells text m.key.toList ∧ m.spelling = inQuotes text

namespace Fields

/-- The names of the fields. -/
def names : {δ τ : Type} → Fields δ τ → List String
  | _, _, done => []
  | _, _, field name _ _ _ rest => name :: rest.names

/-- What has been read of a record when some names have come. -/
def draft : {δ τ : Type} → Fields δ τ → (come : String → Bool) → τ → δ
  | _, _, done, _, _ => ()
  | _, _, field name _ _ _ rest, come, (a, value) =>
    (if come name then some a else none, rest.draft come value)

/-- The member gives the value of its field. -/
def Gives : {δ τ : Type} → Fields δ τ → τ → Member → Prop
  | _, _, done, _, _ => False
  | _, _, field name read _ _ rest, (a, value), m =>
    if m.key = name then Reads read m.value a else rest.Gives value m

/-- The fields whose names have not come have their values without them. -/
def Fills : {δ τ : Type} → Fields δ τ → (come : String → Bool) → τ → Prop
  | _, _, done, _, _ => True
  | _, _, field name _ absent? _ rest, come, (a, value) =>
    (come name = false → absent? = some a) ∧ rest.Fills come value

variable {δ τ : Type}

/-- At first no name has come. -/
lemma draft_start (fields : Fields δ τ) (value : τ) :
    fields.draft (fun _ => false) value = fields.start := by
  induction fields with
  | done => rfl
  | field name read absent? unwritten? rest ih =>
    obtain ⟨a, value⟩ := value
    rw [draft, start, ih]
    rfl

/-- What has been read depends on the names of the fields only. -/
lemma draft_congr (fields : Fields δ τ) (value : τ) {come come' : String → Bool}
    (h : ∀ name ∈ fields.names, come name = come' name) :
    fields.draft come value = fields.draft come' value := by
  induction fields with
  | done => rfl
  | field name read absent? unwritten? rest ih =>
    obtain ⟨a, value⟩ := value
    rw [names, List.forall_mem_cons] at h
    rw [draft, draft, h.1, ih value h.2]

/-- **A record is finished** when the fields whose names have not come have their values without
them. -/
lemma finish?_draft {fields : Fields δ τ} {value : τ} {come : String → Bool}
    (h : fields.Fills come value) : fields.finish? (fields.draft come value) = some value := by
  induction fields with
  | done => rfl
  | field name read absent? unwritten? rest ih =>
    obtain ⟨a, value⟩ := value
    obtain ⟨habsent, hrest⟩ := h
    rw [draft, finish?, ih hrest]
    cases hname : come name with
    | true => rfl
    | false =>
      rw [habsent hname]
      rfl

/-- Nothing is known for a key that is no field. -/
lemma member?_of_notMem {fields : Fields δ τ} {key : String} (h : key ∉ fields.names) (draft : δ) :
    fields.member? key draft = none := by
  induction fields with
  | done => rfl
  | field name read absent? unwritten? rest ih =>
    obtain ⟨value?, draft⟩ := draft
    rw [names, List.mem_cons, not_or] at h
    rw [member?, if_neg h.1, ih h.2]
    rfl

/-- **A member that gives the value of its field** is read into the draft.

**Proof sketch.** Induction on the fields. The reader for a field further on leaves the first one as
it is. -/
lemma exists_member? {fields : Fields δ τ} {value : τ} {come : String → Bool} {m : Member}
    (hnodup : fields.names.Nodup) (hgives : fields.Gives value m) (hcome : come m.key = false) :
    ∃ read, fields.member? m.key (fields.draft come value) = some read ∧
      Reads read ([':'] :: m.value)
        (fields.draft (fun name => name == m.key || come name) value) := by
  induction fields with
  | done => exact hgives.elim
  | field name read absent? unwritten? rest ih =>
    obtain ⟨a, value⟩ := value
    rw [names, List.nodup_cons] at hnodup
    rw [Gives] at hgives
    rw [draft, draft, member?]
    by_cases hname : m.key = name
    · subst hname
      rw [if_pos rfl] at hgives
      rw [if_pos rfl, hcome]
      have hrest : rest.draft (fun n => n == m.key || come n) value = rest.draft come value := by
        refine draft_congr rest value fun n hn => ?_
        have hne : n ≠ m.key := by
          rintro rfl
          exact hnodup.1 hn
        rw [beq_false_of_ne hne, Bool.false_or]
      rw [hrest, beq_self_eq_true, Bool.true_or]
      exact ⟨_, rfl, (takes_expect rfl).bind (hgives.map rfl)⟩
    · rw [if_neg hname] at hgives
      obtain ⟨read', hread', hreads⟩ := ih hnodup.2 hgives
      rw [if_neg hname, hread', beq_false_of_ne (Ne.symm hname), Bool.false_or]
      exact ⟨_, rfl, hreads.map rfl⟩

end Fields

section Records

variable {δ τ : Type} {fields : Fields δ τ} {text : List Char}

/-- A spelled member opens its tokens. -/
lemma Member.IsSpelled.opening {m : Member} (h : m.IsSpelled) : Opening m.tokens := by
  obtain ⟨text, -, hspelling⟩ := h
  exact ⟨'"', text ++ ['"'], [':'] :: m.value, by rw [tokens, hspelling]; rfl, rfl, by decide⟩

/-- Another key comes, behind a comma if it is not the first one, and its opening quote is taken.

**Proof sketch.** By whether the key is the first. The first one follows some blanks, and its
opening quote is taken. A later one follows a comma, which is taken before it. What is left starts
with the text between the quotes. -/
lemma run_moreKeys (isFirst : Bool) {body : List Char} {ts : List Token}
    (hlaid : Laid (separator isFirst ++ inQuotes body :: ts) text) :
    ∃ behind, Laid ts behind ∧ ∀ rest,
      (moreKeys isFirst).run (text ++ rest) = .ok (true, body ++ '"' :: (behind ++ rest)) := by
  cases isFirst with
  | true =>
    obtain ⟨blanks, behind, hblank, hbehind, rfl⟩ := exists_of_laid_cons hlaid
    refine ⟨behind, hbehind, fun rest => ?_⟩
    rw [List.append_assoc]
    change (moreKeys true).run (blanks ++ '"' :: (body ++ ['"'] ++ behind ++ rest)) = _
    unfold moreKeys
    rw [run_peek_bind hblank rfl, if_neg (by decide), if_pos rfl, if_pos rfl, run_advance_bind,
      List.append_assoc, List.append_assoc]
    rfl
  | false =>
    obtain ⟨blanks, inside, hblank, hinside, rfl⟩ := exists_of_laid_cons hlaid
    obtain ⟨blanks', behind, hblank', hbehind, rfl⟩ := exists_of_laid_cons hinside
    refine ⟨behind, hbehind, fun rest => ?_⟩
    rw [List.append_assoc]
    change (moreKeys false).run
      (blanks ++ ',' :: (blanks' ++ (inQuotes body ++ behind) ++ rest)) = _
    unfold moreKeys
    rw [run_peek_bind hblank rfl, if_neg (by decide), if_neg Bool.false_ne_true, if_pos rfl,
      run_advance_bind, List.append_assoc]
    change (peek >>= fun c => if c = '"' then advance >>= fun _ => pure true
      else throw Fault.malformed).run (blanks' ++ '"' :: (body ++ ['"'] ++ behind ++ rest)) = _
    rw [run_peek_bind hblank' rfl, if_pos rfl, run_advance_bind, List.append_assoc,
      List.append_assoc]
    rfl

/-- No other key comes where the closing brace is, and the brace is left where it is. -/
lemma run_moreKeys_end (isFirst : Bool) {blanks : List Char}
    (hblank : ∀ c ∈ blanks, isBlank c = true) (rest : List Char) :
    (moreKeys isFirst).run (blanks ++ '\x7d' :: rest) = .ok (false, '\x7d' :: rest) := by
  unfold moreKeys
  rw [run_peek_bind hblank rfl, if_pos rfl]
  rfl

/-- **One member of an object.** A field that has not come before is read into the draft; any other
value is passed over, and what has been read is the same as if its name had come.

**Proof sketch.** The separator and the opening quote are taken (`run_moreKeys`) and the key is read
as what it spells. If it is the name of a field, that field has not come and its reader is found: it
reads the value into the draft. If it is no such name, the colon is expected and the value is passed
over (`reads_skip`); the draft is then the same with the key among the names that have come, since
no field has it. -/
lemma run_membersWithin_cons {value : τ} (hnodup : fields.names.Nodup) {m : Member}
    (hspelled : m.IsSpelled) {come : String → Bool}
    (hgives : m.key ∈ fields.names → fields.Gives value m ∧ come m.key = false)
    (hother : m.key ∉ fields.names → IsJson .value m.value) (isFirst : Bool)
    (hlaid : Laid (separator isFirst ++ m.tokens) text) (bound : ℕ) {rest : List Char}
    (hclosed : Closed rest) :
    (membersWithin fields (bound + 1) isFirst (fields.draft come value)).run (text ++ rest) =
      (membersWithin fields bound false
        (fields.draft (fun name => name == m.key || come name) value)).run rest := by
  obtain ⟨body, hspells, hspelling⟩ := hspelled
  rw [Member.tokens, hspelling] at hlaid
  obtain ⟨behind, hbehind, hmore⟩ := run_moreKeys isFirst hlaid
  have hkey := run_stringBody hspells (behind ++ rest)
  rw [String.ofList_toList] at hkey
  rw [membersWithin, run_bind_of_ok (hmore _), if_pos rfl, run_bind_of_ok hkey]
  -- A key is taken with its value if it is a field, and its value is passed over if it is none.
  by_cases hname : m.key ∈ fields.names
  · obtain ⟨hgives, hcome⟩ := hgives hname
    obtain ⟨read, hread, hreads⟩ := Fields.exists_member? hnodup hgives hcome
    rw [hread]
    exact run_bind_of_ok (hreads behind _ hbehind hclosed)
  · have hparts : Laid ([[':']] ++ m.value) behind := hbehind
    obtain ⟨colon, inside, hcolon, hinside, rfl⟩ := laid_append.mp hparts
    have hsame : fields.draft (fun name => name == m.key || come name) value =
        fields.draft come value := by
      refine Fields.draft_congr fields value fun name hmem => ?_
      have hne : name ≠ m.key := by
        rintro rfl
        exact hname hmem
      rw [beq_false_of_ne hne, Bool.false_or]
    rw [Fields.member?_of_notMem hname, hsame, List.append_assoc]
    dsimp only
    rw [run_bind_of_ok (takes_expect rfl colon _ hcolon),
      run_bind_of_ok (reads_skip (hother hname) inside _ hinside hclosed)]

/-- **The members of an object** are read up to its closing bracket.

**Proof sketch.** Induction on the members, by `run_membersWithin_cons`. A field does not come again
behind the member that names it. -/
lemma run_membersWithin {value : τ} (hnodup : fields.names.Nodup) {ms : List Member}
    (hspelled : ∀ m ∈ ms, m.IsSpelled)
    (hgives : ∀ m ∈ ms, m.key ∈ fields.names → fields.Gives value m)
    (hother : ∀ m ∈ ms, m.key ∉ fields.names → IsJson .value m.value)
    (honce : ((ms.map Member.key).filter (· ∈ fields.names)).Nodup) {come : String → Bool}
    (hcome : ∀ m ∈ ms, m.key ∈ fields.names → come m.key = false) {bound : ℕ}
    (hbound : ms.length < bound) (isFirst : Bool)
    (hlaid : Laid (remaining isFirst (ms.map Member.tokens) ++ [['\x7d']]) text)
    (rest : List Char) :
    (membersWithin fields bound isFirst (fields.draft come value)).run (text ++ rest) =
      .ok (fields.draft (fun name => (ms.map Member.key).contains name || come name) value,
        '\x7d' :: rest) := by
  induction ms generalizing come bound isFirst text with
  | nil =>
    obtain ⟨bound, rfl⟩ := Nat.exists_eq_add_of_lt hbound
    have hnone : remaining isFirst [] = [] := by cases isFirst <;> rfl
    rw [List.map_nil, hnone] at hlaid
    obtain ⟨blanks, hblank, rfl⟩ := exists_of_laid_singleton hlaid
    rw [List.append_assoc, membersWithin]
    change StateT.run _ (blanks ++ '\x7d' :: rest) = _
    rw [run_bind_of_ok (run_moreKeys_end isFirst hblank rest), if_neg Bool.false_ne_true]
    rfl
  | cons m ms ih =>
    obtain ⟨bound, rfl⟩ := Nat.exists_eq_add_of_lt hbound
    rw [List.forall_mem_cons] at hspelled hgives hother hcome
    rw [List.map_cons, remaining_cons, List.append_assoc] at hlaid
    obtain ⟨first, second, hfirst, hsecond, rfl⟩ := laid_append.mp hlaid
    have hclosed := (closing_remaining (ms.map Member.tokens) (c := '\x7d') rfl []).closed hsecond
      rest
    have honce' : m.key ∈ fields.names → m.key ∉ ms.map Member.key := by
      intro hname hmem
      rw [List.map_cons, List.filter_cons_of_pos (by simpa using hname), List.nodup_cons] at honce
      exact honce.1 (List.mem_filter.mpr ⟨hmem, by simpa using hname⟩)
    have hcome' : ∀ m' ∈ ms, m'.key ∈ fields.names → (m'.key == m.key || come m'.key) = false := by
      intro m' hm' hname'
      have hne : m'.key ≠ m.key := fun heq =>
        honce' (heq ▸ hname') (heq ▸ List.mem_map_of_mem hm')
      rw [beq_false_of_ne hne, Bool.false_or]
      exact hcome.2 m' hm' hname'
    have hrest : (membersWithin fields (ms.length + 1 + bound) false
        (fields.draft (fun name => name == m.key || come name) value)).run (second ++ rest) = _ :=
      ih hspelled.2 hgives.2 hother.2
        (honce.sublist ((List.sublist_cons_self m.key _).filter _)) hcome' (by omega) false hsecond
    have hbound' : (m :: ms).length + bound + 1 = ms.length + 1 + bound + 1 := by
      rw [List.length_cons]
    rw [hbound', List.append_assoc, run_membersWithin_cons hnodup hspelled.1
      (fun hname => ⟨hgives.1 hname, hcome.1 hname⟩) hother.1 isFirst hfirst _ hclosed, hrest]
    congr
    funext name
    rw [List.map_cons, List.contains_cons, ← Bool.or_assoc, Bool.or_comm (name == m.key)]

/-- **A record is read from an object** whose members come in any order, with others between them.
Fields may be missing that have values without them.

**Proof sketch.** Each member takes at least one character, so the length of the input is a bound
that is not reached. The members are read one by one from the empty draft (`run_membersWithin`),
which is the draft in which nothing has come. In the end the draft holds the fields that have come,
and the others are filled, so it is finished to the record. -/
lemma takes_record {value : τ} (hnodup : fields.names.Nodup) {ms : List Member}
    (hspelled : ∀ m ∈ ms, m.IsSpelled)
    (hgives : ∀ m ∈ ms, m.key ∈ fields.names → fields.Gives value m)
    (hother : ∀ m ∈ ms, m.key ∉ fields.names → IsJson .value m.value)
    (honce : ((ms.map Member.key).filter (· ∈ fields.names)).Nodup)
    (hfills : fields.Fills (fun name => (ms.map Member.key).contains name) value) :
    Takes (record fields) (['\x7b'] :: commas (ms.map Member.tokens) ++ [['\x7d']]) value := by
  refine takes_of_first rfl fun inside rest hinside => ?_
  have hlength : ms.length < (inside ++ rest).length := by
    have hparts := length_parts (List.forall_mem_map.mpr fun m hm => (hspelled m hm).opening) true
      hinside
    rw [List.length_map] at hparts
    rw [List.length_append]
    omega
  have hmembers : (membersWithin fields (inside ++ rest).length true
      (fields.draft (fun _ => false) value)).run (inside ++ rest) = _ :=
    run_membersWithin hnodup hspelled hgives hother honce (fun _ _ _ => rfl) hlength true hinside
      rest
  rw [Fields.draft_start] at hmembers
  simp only [Bool.or_false] at hmembers
  rw [if_pos rfl, run_advance_bind, run_get_bind, List.nil_append, run_bind_of_ok hmembers,
    Fields.finish?_draft hfills]
  dsimp only
  rw [run_bind_of_ok (run_expect rfl rest)]
  rfl

end Records

/-! ## Alternatives -/

section Alternatives

variable {α : Type} {variants : List (Variant α)} {name : String} {a : α} {body : List Char}

/-- The name of an alternative gives that alternative, however the name is spelled. -/
lemma takes_variantName {variant : Variant α} (hspells : Spells body name.toList)
    (hfind : variants.find? (·.name = name) = some variant) :
    Takes (variantName variants) [inQuotes body] variant := by
  refine (takes_string hspells).map ?_
  rw [hfind]

/-- **An alternative that is a name alone.** -/
lemma takes_oneOf_alone (hspells : Spells body name.toList)
    (hfind : variants.find? (·.name = name) = some (.bare name a)) :
    Takes (oneOf variants) [inQuotes body] a := by
  refine takes_of_peek rfl fun rest => ?_
  have hname := takes_variantName hspells hfind _ rest (laid_flatten [inQuotes body])
  rw [List.flatten_singleton] at hname
  rw [if_neg (by decide), if_pos rfl]
  exact (run_bind_of_ok hname).trans rfl

/-- **An alternative in an object.** The contents of a name alone are `null`. -/
lemma takes_oneOf_contents {variant : Variant α} {ts : List Token}
    (hspells : Spells body name.toList)
    (hfind : variants.find? (·.name = name) = some variant)
    (hreads : Reads variant.contents ts a) :
    Takes (oneOf variants) (['\x7b'] :: inQuotes body :: [':'] :: ts ++ [['\x7d']]) a := by
  have hclosing : Closing [['\x7d']] := ⟨'\x7d', [], [], rfl, rfl⟩
  have hvalue : Takes (variant.contents >>= fun a => expect '\x7d' >>= fun _ => pure a)
      (ts ++ [['\x7d']]) a :=
    hreads.bind hclosing ((takes_expect rfl).map rfl)
  refine takes_of_first rfl fun inside rest hinside => ?_
  have hparts : Laid ([inQuotes body] ++ ([[':']] ++ (ts ++ [['\x7d']]))) inside := hinside
  obtain ⟨key, behindKey, hkey, hbehindKey, rfl⟩ := laid_append.mp hparts
  obtain ⟨colon, contents, hcolon, hcontents, rfl⟩ := laid_append.mp hbehindKey
  rw [if_pos rfl, run_advance_bind, List.nil_append, List.append_assoc, List.append_assoc,
    run_bind_of_ok (takes_variantName hspells hfind key _ hkey),
    run_bind_of_ok (takes_expect rfl colon _ hcolon)]
  exact hvalue contents rest hcontents

/-- An alternative that is a name alone, with `null` behind it. -/
lemma takes_oneOf_null (hspells : Spells body name.toList)
    (hfind : variants.find? (·.name = name) = some (.bare name a)) :
    Takes (oneOf variants)
      (['\x7b'] :: inQuotes body :: [':'] :: [Value.null.chars] ++ [['\x7d']]) a := by
  have hnull : Takes (null >>= fun _ => pure a) [Value.null.chars] a := takes_null.map rfl
  exact takes_oneOf_contents hspells hfind hnull.reads

/-- **An alternative with contents** is read from an object with its name alone, under which the
contents are. -/
lemma takes_oneOf_containing {read : Reader α} {ts : List Token}
    (hspells : Spells body name.toList)
    (hfind : variants.find? (·.name = name) = some (.containing name read))
    (hreads : Reads read ts a) :
    Takes (oneOf variants) (['\x7b'] :: inQuotes body :: [':'] :: ts ++ [['\x7d']]) a :=
  takes_oneOf_contents hspells hfind hreads

end Alternatives

end EditIdioms.Json
