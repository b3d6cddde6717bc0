import EditIdioms.Proofs.Json.Integers

set_option relaxedAutoImplicit false
set_option autoImplicit false

/-!
# Passing over values

A value that nobody asked for is passed over, if it is JSON: of any depth, with numbers of any size
and with escapes that stand for half a character. The machine that does so meets each token in a
mode that takes it, and behind a value it goes on in the container around it, or ends.

## Main definitions

* `skipOn` — going on behind a value.
* `NumberPart.run?` — the parts of a number that characters lead through.

## Main results

* `skipFrom_string`, `skipFrom_number` — passing over the tokens that are not fixed.
* `skipFrom_value` — passing over a value.
* `reads_skip` — reading what is not asked for.
-/

namespace EditIdioms.Json

open SkipMode

/-- Goes on behind a value, in the innermost container or at the end. -/
def skipOn (stack : List Container) (rest : List Char) : Except Fault (Unit × List Char) :=
  match stack with
  | [] => .ok ((), rest)
  | _ :: _ => skipFrom .between stack rest

/-- Whether the machine is between two tokens. -/
def SkipMode.isPause : SkipMode → Bool
  | value | opened | between | key | colon => true
  | inString _ _ | inWord _ | inNumber _ => false

section Steps

variable {mode mode' : SkipMode} {stack stack' : List Container} {c : Char}
  {rest blanks : List Char}

/-- A character that moves the machine. -/
lemma skipFrom_more (h : mode.step stack c = .more mode' stack') :
    skipFrom mode stack (c :: rest) = skipFrom mode' stack' rest := by
  rw [skipFrom, h]

/-- The last character of a value. -/
lemma skipFrom_last (h : mode.step stack c = afterItem stack') :
    skipFrom mode stack (c :: rest) = skipOn stack' rest := by
  rw [skipFrom, h]
  cases stack' <;> rfl

/-- Between two tokens a blank does not move the machine. -/
lemma step_blank (h : mode.isPause = true) (stack : List Container) (hc : isBlank c = true) :
    mode.step stack c = .more mode stack := by
  cases mode with
  | value => rw [step, stepValue, if_pos hc]
  | opened =>
    rw [step]
    unfold stepOpened
    rw [if_pos hc]
  | between =>
    rw [step]
    unfold stepBetween
    rw [if_pos hc]
  | key => rw [step, stepKey, if_pos hc]
  | colon => rw [step, if_pos hc]
  | inString isKey state => cases h
  | inWord rest => cases h
  | inNumber part => cases h

/-- **Blanks between two tokens** are passed over. -/
lemma skipFrom_blanks (h : mode.isPause = true) (hblank : ∀ c ∈ blanks, isBlank c = true)
    (stack : List Container) (rest : List Char) :
    skipFrom mode stack (blanks ++ rest) = skipFrom mode stack rest := by
  induction blanks with
  | nil => rfl
  | cons c blanks ih =>
    rw [List.cons_append, skipFrom_more (step_blank h stack (hblank c List.mem_cons_self))]
    exact ih fun d hd => hblank d (List.mem_cons_of_mem _ hd)

/-- The rest of a word is passed over, and the value has ended. -/
lemma skipFrom_word (first : Char) (cs : List Char) (stack : List Container) (rest : List Char) :
    skipFrom (.inWord (first :: cs)) stack (first :: cs ++ rest) = skipOn stack rest := by
  induction cs generalizing first with
  | nil => exact skipFrom_last (by rw [step, if_pos rfl])
  | cons c cs ih =>
    have hstep :
        (inWord (first :: c :: cs)).step stack first = .more (.inWord (c :: cs)) stack := by
      change (if first = first then SkipStep.more (inWord (c :: cs)) stack else .bad) = _
      rw [if_pos rfl]
    rw [List.cons_append, skipFrom_more hstep]
    exact ih c

end Steps

/-! ## Strings -/

/-- What comes behind a string. -/
def skipOnString (isKey : Bool) (stack : List Container) (rest : List Char) :
    Except Fault (Unit × List Char) :=
  if isKey then skipFrom .colon stack rest else skipOn stack rest

section Strings

variable {isKey : Bool} {stack : List Container} {state next : StringState} {c d : Char}
  {rest : List Char}

/-- A character of a string that gives one is passed over. -/
lemma skipFrom_give (h : state.step false c = .give d) :
    skipFrom (.inString isKey state) stack (c :: rest) =
      skipFrom (.inString isKey .plain) stack rest :=
  skipFrom_more (by rw [step, h])

/-- A character of a string that only moves the machine for strings is passed over. -/
lemma skipFrom_move (h : state.step false c = .more next) :
    skipFrom (.inString isKey state) stack (c :: rest) =
      skipFrom (.inString isKey next) stack rest :=
  skipFrom_more (by rw [step, h])

/-- Characters of a string that move the machine, and give nothing, are passed over together. -/
lemma skipFrom_moves {last : StringState} {cs : List Char}
    (h : StringState.Moves false state cs last) (rest : List Char) :
    skipFrom (.inString isKey state) stack (cs ++ rest) =
      skipFrom (.inString isKey last) stack rest := by
  induction h with
  | nil => rfl
  | cons hstep _ ih =>
    rw [List.cons_append, skipFrom_move hstep]
    exact ih

/-- **The rest of a string** is passed over.

**Proof sketch.** Induction on how the text is made up. A plain character and an escaped letter give
a character and lead back to plain text. A unit of four digits is gone through digit by digit
(`StringState.moves_hex`), and since nothing is spelled here it is never looked at whether it is a
surrogate. The closing quote ends a key or a value. -/
lemma skipFrom_string {text : List Char} (h : IsStringBody text) (isKey : Bool)
    (stack : List Container) (rest : List Char) :
    skipFrom (.inString isKey .plain) stack (text ++ '"' :: rest) =
      skipOnString isKey stack rest := by
  induction h with
  | nil =>
    cases isKey with
    | true => exact skipFrom_more rfl
    | false => exact skipFrom_last rfl
  | plain hc _ ih =>
    rw [List.cons_append, skipFrom_give (StringState.step_plain hc)]
    exact ih
  | letter he _ ih =>
    rw [List.cons_append, List.cons_append, skipFrom_move rfl,
      skipFrom_give (StringState.step_letter he)]
    exact ih
  | @unit a b c d n text hunit _ ih =>
    obtain ⟨last, hdigits, hlast⟩ := StringState.moves_hex hunit false none
    rw [finishHex, if_neg Bool.false_ne_true] at hlast
    change skipFrom _ stack ('\\' :: 'u' :: ([a, b, c] ++ d :: (text ++ '"' :: rest))) = _
    rw [skipFrom_move rfl, skipFrom_move rfl, skipFrom_moves hdigits, skipFrom_move hlast]
    exact ih

end Strings

/-! ## Numbers -/

namespace NumberPart

/-- The part of a number that characters lead to. -/
def run? : NumberPart → List Char → Option NumberPart
  | part, [] => some part
  | part, c :: cs => (part.next? c).bind (·.run? cs)

variable {part part' : NumberPart} {cs : List Char}

/-- One list of characters after another. -/
lemma run?_append (part : NumberPart) (cs cs' : List Char) :
    part.run? (cs ++ cs') = (part.run? cs).bind (·.run? cs') := by
  induction cs generalizing part with
  | nil => rfl
  | cons c cs ih =>
    rw [List.cons_append, run?, run?]
    cases part.next? c with
    | none => rfl
    | some next => exact ih next

/-- Digits lead nowhere else if a single one does not. -/
lemma run?_loop (hloop : ∀ c, isDigit c = true → part.next? c = some part)
    (hcs : ∀ c ∈ cs, isDigit c = true) : part.run? cs = some part := by
  induction cs with
  | nil => rfl
  | cons c cs ih =>
    rw [run?, hloop c (hcs c List.mem_cons_self)]
    exact ih fun d hd => hcs d (List.mem_cons_of_mem _ hd)

/-- Digits lead to where the first one does, if further digits lead nowhere else. -/
lemma run?_digits (hfirst : ∀ c, isDigit c = true → part.next? c = some part')
    (hloop : ∀ c, isDigit c = true → part'.next? c = some part') (h : IsDigits cs) :
    part.run? cs = some part' := by
  obtain ⟨hne, hdigits⟩ := h
  cases cs with
  | nil => exact absurd rfl hne
  | cons c cs =>
    rw [run?, hfirst c (hdigits c List.mem_cons_self)]
    exact run?_loop hloop fun d hd => hdigits d (List.mem_cons_of_mem _ hd)

/-- A digit before the point is followed by others, unless it is a leading zero. -/
lemma next?_whole {c : Char} (h : isDigit c = true) : whole.next? c = some whole := by
  rw [next?, if_pos h]

/-- **The digits before the point**, from behind the sign. -/
lemma exists_run?_whole (h : cs = ['0'] ∨ IsDigits cs ∧ cs.head? ≠ some '0') :
    ∃ part, sign.run? cs = some part ∧ (part = zero ∨ part = whole) := by
  rcases h with rfl | ⟨⟨hne, hdigits⟩, hhead⟩
  · exact ⟨zero, rfl, .inl rfl⟩
  · cases cs with
    | nil => exact absurd rfl hne
    | cons c cs =>
      have hc : c ≠ '0' := fun hc => hhead (by rw [hc]; rfl)
      refine ⟨whole, ?_, .inr rfl⟩
      rw [run?, next?, if_neg hc, if_pos (hdigits c List.mem_cons_self)]
      exact run?_loop (fun _ => next?_whole) fun d hd => hdigits d (List.mem_cons_of_mem _ hd)

/-- The digits behind the point, if there are any. -/
lemma exists_run?_fraction (hpart : part = zero ∨ part = whole)
    (h : cs = [] ∨ ∃ digits, IsDigits digits ∧ cs = '.' :: digits) :
    ∃ part', part.run? cs = some part' ∧ (part' = zero ∨ part' = whole ∨ part' = fraction) := by
  rcases h with rfl | ⟨digits, hdigits, rfl⟩
  · rcases hpart with rfl | rfl
    · exact ⟨zero, rfl, .inl rfl⟩
    · exact ⟨whole, rfl, .inr (.inl rfl)⟩
  · have hpoint : part.next? '.' = some point := by
      rcases hpart with rfl | rfl <;> rfl
    refine ⟨fraction, ?_, .inr (.inr rfl)⟩
    rw [run?, hpoint]
    exact run?_digits (fun _ hc => by rw [next?, if_pos hc]) (fun _ hc => by rw [next?, if_pos hc])
      hdigits

/-- The exponent, if there is one.

**Proof sketch.** Without an exponent the part stays what it is, and all three are complete. With
one the letter leads to the mark of the exponent, an optional sign leads behind it, and from either
of these places one digit and then any further ones lead to the exponent, where a number is complete
(`run?_digits`). -/
lemma exists_run?_exponent (hpart : part = zero ∨ part = whole ∨ part = fraction)
    (h : cs = [] ∨ ∃ letter sign digits, (letter = 'e' ∨ letter = 'E') ∧
      (sign = [] ∨ sign = ['+'] ∨ sign = ['-']) ∧ IsDigits digits ∧
        cs = letter :: sign ++ digits) :
    ∃ part', part.run? cs = some part' ∧ part'.isComplete = true := by
  rcases h with rfl | ⟨letter, sign, digits, hletter, hsign, hdigits, rfl⟩
  · refine ⟨part, rfl, ?_⟩
    rcases hpart with rfl | rfl | rfl <;> rfl
  · have hmark : part.next? letter = some mark := by
      rcases hletter with rfl | rfl <;> rcases hpart with rfl | rfl | rfl <;> rfl
    have hexponent : ∀ c, isDigit c = true → exponent.next? c = some exponent := by
      intro c hc
      rw [next?, if_pos hc]
    refine ⟨exponent, ?_, rfl⟩
    rw [List.cons_append, run?, hmark, Option.bind_some, run?_append]
    have hmarkSign : ∀ c, isDigit c = true → markSign.next? c = some exponent := by
      intro c hc
      rw [next?, if_pos hc]
    rcases hsign with rfl | rfl | rfl
    · refine run?_digits (fun c hc => ?_) hexponent hdigits
      rw [next?, if_neg, if_pos hc]
      rintro (rfl | rfl) <;> cases hc
    · exact run?_digits hmarkSign hexponent hdigits
    · exact run?_digits hmarkSign hexponent hdigits

end NumberPart

section Numbers

variable {stack : List Container} {rest : List Char}

/-- Characters that a number goes on with. -/
lemma skipFrom_run? {part part' : NumberPart} {cs : List Char} (h : part.run? cs = some part')
    (stack : List Container) (rest : List Char) :
    skipFrom (.inNumber part) stack (cs ++ rest) = skipFrom (.inNumber part') stack rest := by
  induction cs generalizing part with
  | nil =>
    cases h
    rfl
  | cons c cs ih =>
    rw [NumberPart.run?] at h
    obtain ⟨next, hnext, hrest⟩ := Option.bind_eq_some_iff.mp h
    rw [List.cons_append, skipFrom_more (by rw [step, hnext])]
    exact ih hrest

/-- **A number ends** where what comes behind closes it.

**Proof sketch.** At the end of the input a complete number is closed there. Otherwise the next
character is neither a digit nor a point nor the mark of an exponent, so no complete part goes on
with it; the number ends and the character is looked at again, as it is when a value has just
ended. -/
lemma skipFrom_complete {part : NumberPart} (hcomplete : part.isComplete = true)
    (hclosed : Closed rest) : skipFrom (.inNumber part) stack rest = skipOn stack rest := by
  cases rest with
  | nil =>
    rw [skipFrom, atEnd, hcomplete]
    cases stack <;> rfl
  | cons c rest =>
    obtain ⟨hdigit, hpoint, he, hE⟩ := hclosed.head? rfl
    have hnext : part.next? c = none := by
      cases part <;> simp_all [NumberPart.next?, NumberPart.isComplete]
    rw [skipFrom, step, hnext]
    dsimp only
    rw [hcomplete, hdigit]
    cases stack with
    | nil => rfl
    | cons container stack =>
      rw [skipOn, skipFrom]
      rfl

/-- The first digit of a number without a sign. -/
lemma step_value_digit {c : Char} (h : isDigit c = true) {part : NumberPart}
    (hpart : NumberPart.sign.next? c = some part) (stack : List Container) :
    value.step stack c = .more (.inNumber part) stack := by
  have hne : ∀ d, isDigit d = false → c ≠ d := by
    rintro d hd rfl
    rw [h] at hd
    cases hd
  rw [NumberPart.next?] at hpart
  rw [step, stepValue, isBlank_of_starts (.inr h), if_neg Bool.false_ne_true,
    if_neg (hne 'n' rfl), if_neg (hne 't' rfl), if_neg (hne 'f' rfl), if_neg (hne '-' rfl)]
  split at hpart
  · rename_i hzero
    cases hpart
    rw [if_pos hzero]
  · rename_i hzero
    cases hpart
    rw [if_neg hzero, if_pos h]

/-- **A number is passed over** if what comes behind closes it.

**Proof sketch.** The whole part, the fraction and the exponent lead from one part of a number to
the next, and the last one is complete, so the number ends behind it (`skipFrom_complete`). With a
sign the walk starts behind the sign. Without one the first digit opens the value and leads to where
it would have led from behind a sign. -/
lemma skipFrom_number {t : Token} (h : IsNumber t) (hclosed : Closed rest) :
    skipFrom .value stack (t ++ rest) = skipOn stack rest := by
  obtain ⟨sign, whole, fraction, exponent, rfl, hsign, hwhole, hfraction, hexponent⟩ := h
  obtain ⟨part, hpart, hpart'⟩ := NumberPart.exists_run?_whole hwhole
  obtain ⟨part₂, hpart₂, hpart₂'⟩ := NumberPart.exists_run?_fraction hpart' hfraction
  obtain ⟨last, hlast, hcomplete⟩ := NumberPart.exists_run?_exponent hpart₂' hexponent
  have hrun : NumberPart.sign.run? (whole ++ fraction ++ exponent) = some last := by
    rw [NumberPart.run?_append, NumberPart.run?_append, hpart, Option.bind_some, hpart₂,
      Option.bind_some, hlast]
  rw [← skipFrom_complete hcomplete hclosed]
  rcases hsign with rfl | rfl
  · rw [List.nil_append]
    obtain ⟨c, cs, hcs, hc⟩ : ∃ c cs, whole = c :: cs ∧ isDigit c = true := by
      rcases hwhole with rfl | ⟨⟨hne, hdigits⟩, -⟩
      · exact ⟨'0', [], rfl, rfl⟩
      · obtain ⟨c, cs, rfl⟩ := List.exists_cons_of_ne_nil hne
        exact ⟨c, cs, rfl, hdigits c List.mem_cons_self⟩
    rw [hcs, List.cons_append, List.cons_append] at hrun ⊢
    rw [NumberPart.run?] at hrun
    obtain ⟨next, hnext, hrest⟩ := Option.bind_eq_some_iff.mp hrun
    rw [List.cons_append, skipFrom_more (step_value_digit hc hnext stack)]
    exact skipFrom_run? hrest stack rest
  · have hsign : value.step stack '-' = .more (.inNumber .sign) stack := rfl
    rw [List.append_assoc, List.append_assoc, List.append_assoc, List.singleton_append,
      skipFrom_more hsign, ← skipFrom_run? hrun stack rest]
    simp only [List.append_assoc]

end Numbers

/-! ## Values -/

/-- The first token starts with a character that is no blank, and not with a closing bracket. -/
def Opening (ts : List Token) : Prop :=
  ∃ c cs us, ts = (c :: cs) :: us ∧ isBlank c = false ∧ c ≠ ']'

/-- What comes before more tokens opens them. -/
lemma Opening.append {ts : List Token} (h : Opening ts) (us : List Token) : Opening (ts ++ us) := by
  obtain ⟨c, cs, rest, rfl, hc⟩ := h
  exact ⟨c, cs, rest ++ us, rfl, hc⟩

/-- A number starts with a digit or a minus sign. -/
lemma IsNumber.exists_cons {t : Token} (h : IsNumber t) :
    ∃ c cs, t = c :: cs ∧ (c = '-' ∨ isDigit c = true) := by
  obtain ⟨sign, whole, fraction, exponent, rfl, rfl | rfl, hwhole, -, -⟩ := h
  · rcases hwhole with rfl | ⟨⟨hne, hdigits⟩, -⟩
    · exact ⟨'0', _, rfl, .inr rfl⟩
    · obtain ⟨c, cs, rfl⟩ := List.exists_cons_of_ne_nil hne
      exact ⟨c, _, rfl, .inr (hdigits c List.mem_cons_self)⟩
  · exact ⟨'-', _, rfl, .inl rfl⟩

/-- What starts a number is no bracket. -/
lemma ne_of_starts {c : Char} (h : c = '-' ∨ isDigit c = true) : c ≠ ']' := by
  rintro rfl
  rcases h with h | h <;> cases h

/-- **A value or a list of items opens** the tokens, and members with a quote.

**Proof sketch.** By the kind of value. A literal name, a string and a bracket have their first
character written in the grammar, and a number has one that starts a number. A list of items opens
as its first item does, and a list of members as the string of its first key. -/
lemma IsJson.opening {part : Part} {ts : List Token} (h : IsJson part ts) :
    match part with
    | .value | .items => Opening ts
    | .members => ∃ cs us, ts = ('"' :: cs) :: us := by
  induction h with
  | null => exact ⟨_, _, _, rfl, rfl, by decide⟩
  | true => exact ⟨_, _, _, rfl, rfl, by decide⟩
  | false => exact ⟨_, _, _, rfl, rfl, by decide⟩
  | number h =>
    obtain ⟨c, cs, rfl, hc⟩ := h.exists_cons
    exact ⟨c, cs, _, rfl, isBlank_of_starts hc, ne_of_starts hc⟩
  | string h =>
    obtain ⟨text, -, rfl⟩ := h
    exact ⟨_, _, _, rfl, rfl, by decide⟩
  | emptyArray => exact ⟨_, _, _, rfl, rfl, by decide⟩
  | array => exact ⟨_, _, _, rfl, rfl, by decide⟩
  | emptyObject => exact ⟨_, _, _, rfl, rfl, by decide⟩
  | object => exact ⟨_, _, _, rfl, rfl, by decide⟩
  | lastItem _ ih => exact ih
  | item _ _ ih => exact ih.append _
  | lastMember hkey =>
    obtain ⟨text, -, rfl⟩ := hkey
    exact ⟨_, _, rfl⟩
  | member hkey =>
    obtain ⟨text, -, rfl⟩ := hkey
    exact ⟨_, _, rfl⟩

section Values

variable {stack : List Container} {text rest blanks : List Char} {ts : List Token}

/-- A token of one character that moves the machine. -/
lemma skipFrom_mark {mode mode' : SkipMode} {stack' : List Container} {c : Char}
    (hpause : mode.isPause = true) (hstep : mode.step stack c = .more mode' stack')
    (hlaid : Laid ([c] :: ts) text) :
    ∃ behind, Laid ts behind ∧ ∀ rest,
      skipFrom mode stack (text ++ rest) = skipFrom mode' stack' (behind ++ rest) := by
  obtain ⟨blanks, behind, hblank, hbehind, rfl⟩ := exists_of_laid_cons hlaid
  refine ⟨behind, hbehind, fun rest => ?_⟩
  rw [List.append_assoc, skipFrom_blanks hpause hblank]
  exact skipFrom_more hstep

/-- A token of one character that ends a value. -/
lemma skipFrom_end {mode : SkipMode} {stack' : List Container} {c : Char}
    (hpause : mode.isPause = true) (hstep : mode.step stack c = afterItem stack')
    (hlaid : Laid [[c]] text) (rest : List Char) :
    skipFrom mode stack (text ++ rest) = skipOn stack' rest := by
  obtain ⟨blanks, hblank, rfl⟩ := exists_of_laid_singleton hlaid
  rw [List.append_assoc, skipFrom_blanks hpause hblank]
  exact skipFrom_last hstep

/-- Behind the bracket of an array, the first item is passed over as any other one. -/
lemma skipFrom_opened_array (h : Opening ts) (hlaid : Laid ts text) (rest : List Char) :
    skipFrom .opened (.array :: stack) (text ++ rest) =
      skipFrom .value (.array :: stack) (text ++ rest) := by
  obtain ⟨c, cs, us, rfl, hc, hbracket⟩ := h
  obtain ⟨blanks, text, hblank, -, rfl⟩ := exists_of_laid_cons hlaid
  rw [List.append_assoc, skipFrom_blanks rfl hblank, skipFrom_blanks rfl hblank]
  change skipFrom _ _ (c :: (cs ++ text ++ rest)) = skipFrom _ _ (c :: (cs ++ text ++ rest))
  have hstep : opened.step (.array :: stack) c = value.step (.array :: stack) c := by
    rw [step, step]
    unfold stepOpened
    rw [hc, if_neg Bool.false_ne_true]
    exact if_neg hbracket
  rw [skipFrom, skipFrom, hstep]

/-- Behind the bracket of an object, the first key is passed over as any other one. -/
lemma skipFrom_opened_object {cs : List Char} {us : List Token}
    (hlaid : Laid (('"' :: cs) :: us) text) (rest : List Char) :
    skipFrom .opened (.object :: stack) (text ++ rest) =
      skipFrom .key (.object :: stack) (text ++ rest) := by
  obtain ⟨blanks, text, hblank, -, rfl⟩ := exists_of_laid_cons hlaid
  rw [List.append_assoc, skipFrom_blanks rfl hblank, skipFrom_blanks rfl hblank]
  rfl

/-- A key and its colon are passed over, and a value is to come. -/
lemma skipFrom_key {key : Token} (hkey : IsText key) (hlaid : Laid (key :: [':'] :: ts) text)
    (stack : List Container) :
    ∃ behind, Laid ts behind ∧ ∀ rest,
      skipFrom .key stack (text ++ rest) = skipFrom .value stack (behind ++ rest) := by
  obtain ⟨body, hbody, rfl⟩ := hkey
  obtain ⟨blanks, colon, hblank, hcolon, rfl⟩ := exists_of_laid_cons hlaid
  obtain ⟨behind, hbehind, hskip⟩ :=
    skipFrom_mark rfl (show SkipMode.colon.step stack ':' = .more .value stack from rfl) hcolon
  refine ⟨behind, hbehind, fun rest => ?_⟩
  have hquote : SkipMode.key.step stack '"' = .more (.inString true .plain) stack := rfl
  rw [← hskip, List.append_assoc, skipFrom_blanks rfl hblank]
  change skipFrom _ stack ('"' :: (body ++ ['"'] ++ colon ++ rest)) = _
  rw [skipFrom_more hquote, List.append_assoc, List.append_assoc]
  exact skipFrom_string hbody true stack (colon ++ rest)

/-- What is passed over in which mode: values up to what comes behind them, items and members up to
the end of their container. -/
def Passes (part : Part) (text : List Char) : Prop :=
  match part with
  | .value => ∀ stack rest, Closed rest → skipFrom .value stack (text ++ rest) = skipOn stack rest
  | .items => ∀ stack rest, Closed rest → skipFrom .value (.array :: stack) (text ++ rest) =
      skipFrom .between (.array :: stack) rest
  | .members => ∀ stack rest, Closed rest → skipFrom .key (.object :: stack) (text ++ rest) =
      skipFrom .between (.object :: stack) rest

/-- One of the three words is passed over as a value. -/
lemma passes_word {first c : Char} {cs : List Char}
    (hstep : ∀ stack, value.step stack first = .more (.inWord (c :: cs)) stack)
    (hlaid : Laid [first :: c :: cs] text) : Passes .value text := by
  intro stack rest _
  obtain ⟨blanks, hblank, rfl⟩ := exists_of_laid_singleton hlaid
  rw [List.append_assoc, skipFrom_blanks rfl hblank]
  change skipFrom _ stack (first :: (c :: cs ++ rest)) = _
  rw [skipFrom_more (hstep stack)]
  exact skipFrom_word c cs stack rest

/-- A number is passed over as a value, if what comes behind closes it. -/
lemma passes_number {t : Token} (hnumber : IsNumber t) (hlaid : Laid [t] text) :
    Passes .value text := by
  intro stack rest hclosed
  obtain ⟨blanks, hblank, rfl⟩ := exists_of_laid_singleton hlaid
  rw [List.append_assoc, skipFrom_blanks rfl hblank]
  exact skipFrom_number hnumber hclosed

/-- A string is passed over as a value, however it is spelled. -/
lemma passes_string {t : Token} (htext : IsText t) (hlaid : Laid [t] text) :
    Passes .value text := by
  intro stack rest _
  obtain ⟨body, hbody, rfl⟩ := htext
  obtain ⟨blanks, hblank, rfl⟩ := exists_of_laid_singleton hlaid
  have hquote : value.step stack '"' = .more (.inString false .plain) stack := rfl
  rw [List.append_assoc, skipFrom_blanks rfl hblank]
  change skipFrom _ stack ('"' :: (body ++ ['"'] ++ rest)) = _
  rw [skipFrom_more hquote, List.append_assoc]
  exact skipFrom_string hbody false stack rest

/-- A comma closes what comes before it. -/
lemma closing_comma (us : List Token) : Closing ([','] :: us) := ⟨',', [], us, rfl, rfl⟩

/-- **What is JSON is passed over.**

**Proof sketch.** Induction on the grammar. The stack is any, since a value is passed over inside
containers as it is outside of them. -/
lemma passes_of_isJson {part : Part} (h : IsJson part ts) (hlaid : Laid ts text) :
    Passes part text := by
  induction h generalizing text with
  | null => exact passes_word (fun _ => rfl) hlaid
  | true => exact passes_word (fun _ => rfl) hlaid
  | false => exact passes_word (fun _ => rfl) hlaid
  | number hnumber => exact passes_number hnumber hlaid
  | string htext => exact passes_string htext hlaid
  | emptyArray =>
    intro stack rest _
    obtain ⟨closer, hcloser, hskip⟩ := skipFrom_mark rfl
      (show value.step stack '[' = .more .opened (.array :: stack) from rfl) hlaid
    rw [hskip]
    exact skipFrom_end rfl rfl hcloser rest
  | emptyObject =>
    intro stack rest _
    obtain ⟨closer, hcloser, hskip⟩ := skipFrom_mark rfl
      (show value.step stack '\x7b' = .more .opened (.object :: stack) from rfl) hlaid
    rw [hskip]
    exact skipFrom_end rfl rfl hcloser rest
  | array hitems ih =>
    intro stack rest _
    obtain ⟨inside, hinside, hskip⟩ := skipFrom_mark rfl
      (show value.step stack '[' = .more .opened (.array :: stack) from rfl) hlaid
    obtain ⟨items, closer, hlist, hcloser, rfl⟩ := laid_append.mp hinside
    have hclosing : Closing [[']']] := ⟨']', [], [], rfl, rfl⟩
    rw [hskip, List.append_assoc, skipFrom_opened_array hitems.opening hlist,
      ih hlist stack _ (hclosing.closed hcloser rest)]
    exact skipFrom_end rfl rfl hcloser rest
  | object hmembers ih =>
    intro stack rest _
    obtain ⟨inside, hinside, hskip⟩ := skipFrom_mark rfl
      (show value.step stack '\x7b' = .more .opened (.object :: stack) from rfl) hlaid
    obtain ⟨members, closer, hlist, hcloser, rfl⟩ := laid_append.mp hinside
    have hclosing : Closing [['\x7d']] := ⟨'\x7d', [], [], rfl, rfl⟩
    obtain ⟨cs, us, rfl⟩ := hmembers.opening
    rw [hskip, List.append_assoc, skipFrom_opened_object hlist,
      ih hlist stack _ (hclosing.closed hcloser rest)]
    exact skipFrom_end rfl rfl hcloser rest
  | lastItem _ ih =>
    intro stack rest hclosed
    exact ih hlaid (.array :: stack) rest hclosed
  | item _ _ ih ih' =>
    intro stack rest hclosed
    obtain ⟨first, second, hfirst, hsecond, rfl⟩ := laid_append.mp hlaid
    obtain ⟨behind, hbehind, hskip⟩ := skipFrom_mark rfl
      (show between.step (.array :: stack) ',' = .more .value (.array :: stack) from rfl) hsecond
    rw [List.append_assoc, ih hfirst (.array :: stack) _ ((closing_comma _).closed hsecond rest)]
    exact (hskip rest).trans (ih' hbehind stack rest hclosed)
  | lastMember hkey _ ih =>
    intro stack rest hclosed
    obtain ⟨behind, hbehind, hskip⟩ := skipFrom_key hkey hlaid (.object :: stack)
    rw [hskip]
    exact ih hbehind (.object :: stack) rest hclosed
  | member hkey _ _ ih ih' =>
    intro stack rest hclosed
    obtain ⟨inside, hinside, hskip⟩ := skipFrom_key hkey hlaid (.object :: stack)
    obtain ⟨first, second, hfirst, hsecond, rfl⟩ := laid_append.mp hinside
    obtain ⟨behind, hbehind, hskip'⟩ := skipFrom_mark rfl
      (show between.step (.object :: stack) ',' = .more .key (.object :: stack) from rfl) hsecond
    rw [hskip, List.append_assoc,
      ih hfirst (.object :: stack) _ ((closing_comma _).closed hsecond rest)]
    exact (hskip' rest).trans (ih' hbehind stack rest hclosed)

/-- **What is not asked for** is passed over, if it is JSON. -/
lemma reads_skip (h : IsJson .value ts) : Reads skip ts () := fun _ rest hlaid hclosed =>
  passes_of_isJson h hlaid [] rest hclosed

end Values

end EditIdioms.Json
