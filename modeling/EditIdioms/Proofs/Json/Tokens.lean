import EditIdioms.Json.Shape
import EditIdioms.Json.Value
import EditIdioms.Numeric.Integer
import EditIdioms.Proofs.Json.Grammar

set_option relaxedAutoImplicit false
set_option autoImplicit false

/-!
# Reading tokens

A reader passes over the blanks before a token. It sees the end of a string, a word or a bracket by
itself, but that of a number only by what comes behind, which has to be a blank, a comma, a colon, a
closing bracket or the end.

## Main definitions

* `Closed` — what may come behind a number.
* `Takes`, `Reads` — a reader gives a value for tokens, whatever comes behind them, or if it closes
  them.
* `StringState.Moves` — characters that only move the machine for strings.

## Main results

* `Takes.bind`, `Reads.bind` — reading tokens one part after another.
* `takes_string`, `reads_integerWithin` — strings and integers.
-/

namespace EditIdioms.Json

/-! ## Readers and tokens -/

/-- Whether a character ends a number before it. -/
def isDelimiter (c : Char) : Bool := isBlank c || [',', ':', ']', '\x7d'].contains c

/-- What comes behind ends a number. -/
def Closed (rest : List Char) : Prop := ∀ c, rest.head? = some c → isDelimiter c = true

/-- The reader gives the value for the tokens, whatever comes behind them. -/
def Takes {α : Type} (read : Reader α) (ts : List Token) (a : α) : Prop :=
  ∀ text rest, Laid ts text → read.run (text ++ rest) = .ok (a, rest)

/-- The reader gives the value for the tokens, when what comes behind closes them. -/
def Reads {α : Type} (read : Reader α) (ts : List Token) (a : α) : Prop :=
  ∀ text rest, Laid ts text → Closed rest → read.run (text ++ rest) = .ok (a, rest)

/-- The tokens close what comes before them. -/
def Closing (ts : List Token) : Prop :=
  ∃ c cs us, ts = (c :: cs) :: us ∧ isDelimiter c = true

section Run

variable {α β : Type} {read : Reader α} {next : α → Reader β} {text rest blanks : List Char} {a : α}
  {b : β} {c : Char} {t : Token} {ts us : List Token}

/-- Reading on after something was read. -/
lemma run_bind_of_ok (h : read.run text = .ok (a, rest)) :
    (read >>= next).run text = (next a).run rest := by
  rw [StateT.run_bind, h]
  rfl

/-- Blanks are passed over up to the first other character. -/
lemma dropWhile_blanks (hblank : ∀ c ∈ blanks, isBlank c = true) (hc : isBlank c = false) :
    (blanks ++ c :: rest).dropWhile isBlank = c :: rest := by
  rw [List.dropWhile_append_of_pos hblank, List.dropWhile_cons_of_neg (by simp [hc])]

/-- Looking at the next character, if there is one. -/
lemma run_peek? (hblank : ∀ c ∈ blanks, isBlank c = true) (hc : isBlank c = false) :
    peek?.run (blanks ++ c :: rest) = .ok (some c, c :: rest) := by
  change Except.ok (((blanks ++ c :: rest).dropWhile isBlank).head?,
    (blanks ++ c :: rest).dropWhile isBlank) = _
  rw [dropWhile_blanks hblank hc]
  rfl

/-- Looking at the next character passes over the blanks before it and leaves it where it is. -/
lemma run_peek (hblank : ∀ c ∈ blanks, isBlank c = true) (hc : isBlank c = false) :
    peek.run (blanks ++ c :: rest) = .ok (c, c :: rest) := by
  unfold peek
  rw [run_bind_of_ok (run_peek? hblank hc)]
  rfl

/-- **The first character of a token**, blanks before it being passed over. -/
lemma run_peek_bind {next : Char → Reader β} (hblank : ∀ c ∈ blanks, isBlank c = true)
    (hc : isBlank c = false) :
    (peek >>= next).run (blanks ++ c :: rest) = (next c).run (c :: rest) :=
  run_bind_of_ok (run_peek hblank hc)

/-- Taking a character leaves what is behind it. -/
lemma run_advance_bind {next : Unit → Reader β} :
    (advance >>= next).run (c :: rest) = (next ()).run rest := rfl

/-- Asking for the rest of the text. -/
lemma run_get_bind {next : List Char → Reader β} : (get >>= next).run text = (next text).run text :=
  rfl

/-- What is read from a text does not depend on what comes behind it. -/
lemma Takes.reads (h : Takes read ts a) : Reads read ts a := fun text rest hlaid _ =>
  h text rest hlaid

/-- The rest of a word is taken, character by character. -/
lemma run_keyword (cs rest : List Char) : (keyword cs).run (cs ++ rest) = .ok ((), rest) := by
  induction cs with
  | nil => rfl
  | cons c cs ih =>
    change (if c = c then advance >>= fun _ => keyword cs else throw Fault.malformed).run
      (c :: (cs ++ rest)) = _
    rw [if_pos rfl, run_advance_bind]
    exact ih

/-- **Tokens that are told by their first character**, blanks before it being passed over. -/
lemma takes_of_first {next : Char → Reader β} {cs : List Char} (hc : isBlank c = false)
    (h : ∀ text rest, Laid ts text → (next c).run (c :: (cs ++ (text ++ rest))) = .ok (b, rest)) :
    Takes (peek >>= next) ((c :: cs) :: ts) b := by
  intro text rest hlaid
  obtain ⟨blanks, behind, hblank, hbehind, rfl⟩ := exists_of_laid_cons hlaid
  rw [List.append_assoc, List.append_assoc, List.cons_append, run_peek_bind hblank hc]
  exact h behind rest hbehind

/-- One token that is told by its first character. -/
lemma takes_of_peek {next : Char → Reader β} {cs : List Char} (hc : isBlank c = false)
    (h : ∀ rest, (next c).run (c :: (cs ++ rest)) = .ok (b, rest)) :
    Takes (peek >>= next) [c :: cs] b :=
  takes_of_first hc fun text rest hlaid => by
    cases hlaid
    exact h rest

/-- A given character that is no blank is taken. -/
lemma takes_expect (hc : isBlank c = false) : Takes (expect c) [[c]] () := by
  refine takes_of_peek hc fun rest => ?_
  rw [if_pos rfl]
  rfl

/-- The word for nothing is taken. -/
lemma takes_null : Takes null [Value.null.chars] () := by
  refine takes_of_peek rfl fun rest => ?_
  rw [if_pos rfl, run_advance_bind]
  exact run_keyword _ rest

/-- The words for truth values are taken, each for its value. -/
lemma takes_boolean (b : Bool) : Takes boolean [(Value.boolean b).chars] b := by
  cases b with
  | true =>
    refine takes_of_peek rfl fun rest => ?_
    rw [if_pos rfl, run_advance_bind, run_bind_of_ok (run_keyword _ rest)]
    rfl
  | false =>
    refine takes_of_peek rfl fun rest => ?_
    rw [if_neg (by decide), if_pos rfl, run_advance_bind, run_bind_of_ok (run_keyword _ rest)]
    rfl

/-- Where something may come, the word for nothing gives nothing. -/
lemma takes_optional_null : Takes (optional read) [Value.null.chars] none := by
  intro text rest hlaid
  obtain ⟨blanks, hblank, rfl⟩ := exists_of_laid_singleton hlaid
  have hnull := takes_null _ rest (laid_flatten [Value.null.chars])
  rw [List.append_assoc]
  change (optional read).run (blanks ++ 'n' :: (['u', 'l', 'l'] ++ rest)) = _
  unfold optional
  rw [run_bind_of_ok (run_peek? hblank rfl), if_pos rfl]
  exact run_bind_of_ok hnull

/-- Something, which does not start as the word for nothing. -/
lemma reads_optional {cs : List Char} (h : Reads read ((c :: cs) :: ts) a)
    (hc : isBlank c = false) (hsome : c ≠ 'n') :
    Reads (optional read) ((c :: cs) :: ts) (some a) := by
  intro text rest hlaid hclosed
  obtain ⟨blanks, behind, hblank, hbehind, rfl⟩ := exists_of_laid_cons hlaid
  have hbare : Laid ((c :: cs) :: ts) ([] ++ (c :: cs ++ behind)) :=
    .cons (List.forall_mem_nil _) hbehind
  have hrun := h _ rest hbare hclosed
  rw [List.append_assoc, List.cons_append, List.cons_append]
  unfold optional
  rw [run_bind_of_ok (run_peek? hblank hc), if_neg (by simpa using hsome)]
  exact run_bind_of_ok hrun

/-! ## Parts -/

/-- A blank, or a token that closes, closes what is before it. -/
lemma Closing.closed (h : Closing us) (hlaid : Laid us text) (rest : List Char) :
    Closed (text ++ rest) := by
  obtain ⟨c, cs, us, rfl, hc⟩ := h
  obtain ⟨blanks, text, hblank, -, rfl⟩ := exists_of_laid_cons hlaid
  intro d hd
  cases blanks with
  | nil =>
    cases hd
    exact hc
  | cons blank blanks =>
    cases hd
    rw [isDelimiter, hblank _ List.mem_cons_self, Bool.true_or]

/-- **Reading on** behind tokens that close by themselves. -/
lemma Takes.bind (h : Takes read ts a) (h' : Reads (next a) us b) :
    Reads (read >>= next) (ts ++ us) b := by
  intro text rest hlaid hclosed
  obtain ⟨first, second, hfirst, hsecond, rfl⟩ := laid_append.mp hlaid
  rw [List.append_assoc, run_bind_of_ok (h first _ hfirst)]
  exact h' second rest hsecond hclosed

/-- **Reading on** with tokens that close those before them. -/
lemma Reads.bind (h : Reads read ts a) (hclosing : Closing us) (h' : Takes (next a) us b) :
    Takes (read >>= next) (ts ++ us) b := by
  intro text rest hlaid
  obtain ⟨first, second, hfirst, hsecond, rfl⟩ := laid_append.mp hlaid
  rw [List.append_assoc, run_bind_of_ok (h first _ hfirst (hclosing.closed hsecond rest))]
  exact h' second rest hsecond

/-- What is read may be made into another value. -/
lemma Reads.map (h : Reads read ts a) (hnext : next a = pure b) : Reads (read >>= next) ts b := by
  intro text rest hlaid hclosed
  rw [run_bind_of_ok (h text rest hlaid hclosed), hnext]
  rfl

/-- What is taken may be made into another value. -/
lemma Takes.map (h : Takes read ts a) (hnext : next a = pure b) : Takes (read >>= next) ts b := by
  intro text rest hlaid
  rw [run_bind_of_ok (h text rest hlaid), hnext]
  rfl

end Run

/-! ## Strings -/

/-- A hexadecimal digit takes one byte.

**Proof sketch.** The three ranges of hexadecimal digits end below 128, which is where one byte
ends. -/
lemma utf8Size_of_hexValue? {c : Char} {x : ℕ} (h : hexValue? c = some x) : c.utf8Size = 1 := by
  have hsmall : c.toNat < 128 := by
    unfold hexValue? at h
    split at h
    · rename_i hc
      exact Nat.lt_of_le_of_lt (show c.toNat ≤ 57 from hc.2) (by decide)
    split at h
    · rename_i hc
      exact Nat.lt_of_le_of_lt (show c.toNat ≤ 102 from hc.2) (by decide)
    split at h
    · rename_i hc
      exact Nat.lt_of_le_of_lt (show c.toNat ≤ 70 from hc.2) (by decide)
    · cases h
  unfold Char.utf8Size
  rw [if_pos]
  change c.toNat ≤ 127
  omega

namespace StringState

variable {strict : Bool} {state state' : StringState} {cs : List Char} {c d : Char}

/-- The characters move the machine from a state to another one, and give nothing. -/
inductive Moves (strict : Bool) : StringState → List Char → StringState → Prop
  | nil (state : StringState) : Moves strict state [] state
  | cons {state next last : StringState} {c : Char} {cs : List Char}
    (h : state.step strict c = .more next) (rest : Moves strict next cs last) :
    Moves strict state (c :: cs) last

/-- A digit that is not the last one. -/
lemma step_hex {high? : Option ℕ} {x : ℕ} (h : hexValue? c = some x) (bytes value : ℕ) :
    (hex high? (bytes + 2) (some value)).step strict c =
      .more (hex high? (bytes + 1) (some (value * 16 + x))) := by
  rw [step, utf8Size_of_hexValue? h, h]
  rw [if_pos (by omega)]
  rfl

/-- The last of four hexadecimal digits ends the unit that they spell. -/
lemma step_hex_last {high? : Option ℕ} {x : ℕ} (h : hexValue? c = some x) (value : ℕ) :
    (hex high? 1 (some value)).step strict c = finishHex strict high? (some (value * 16 + x)) := by
  rw [step, utf8Size_of_hexValue? h, h]
  rw [if_neg (Nat.lt_irrefl 1)]
  rfl

/-- **Four digits** move the machine up to the last one, which finishes their unit. -/
lemma moves_hex {a b c d : Char} {n : ℕ} (h : hexUnit? a b c d = some n) (strict : Bool)
    (high? : Option ℕ) :
    ∃ last, Moves strict (hex high? 4 (some 0)) [a, b, c] last ∧
      last.step strict d = finishHex strict high? (some n) := by
  unfold hexUnit? at h
  simp only [bind, Option.bind_eq_some_iff, pure, Option.some.injEq] at h
  obtain ⟨va, ha, vb, hb, vc, hc, vd, hd, rfl⟩ := h
  refine ⟨_, .cons (step_hex ha 2 0) (.cons (step_hex hb 1 _) (.cons (step_hex hc 0 _) (.nil _))),
    ?_⟩
  rw [step_hex_last hd, Nat.zero_mul, Nat.zero_add]

/-- A character that stands for itself. -/
lemma step_plain (h : IsPlain c) : plain.step strict c = .give c := by
  obtain ⟨hquote, hbackslash, hcontrol⟩ := h
  rw [step, if_neg hquote, if_neg hbackslash, if_neg (Nat.not_lt_of_le hcontrol)]

/-- The letter of an escape gives the character that it stands for. -/
lemma step_letter (h : escaped? c = some d) : escape.step strict c = .give d := by
  rw [step]
  split
  · rename_i hc
    rw [hc] at h
    cases h
  · rw [h]

end StringState

open StringState

section Strings

variable {state next : StringState} {c d : Char} {taken rest : List Char}

/-- A character that gives one of the string. -/
lemma stringFrom_give (h : state.step true c = .give d) :
    stringFrom state taken (c :: rest) = stringFrom .plain (d :: taken) rest := by
  rw [stringFrom, h]

/-- A character that only moves the machine. -/
lemma stringFrom_more (h : state.step true c = .more next) :
    stringFrom state taken (c :: rest) = stringFrom next taken rest := by
  rw [stringFrom, h]

end Strings

/-- Characters that only move the machine. -/
lemma stringFrom_moves {state last : StringState} {cs : List Char} (h : Moves true state cs last)
    (taken rest : List Char) :
    stringFrom state taken (cs ++ rest) = stringFrom last taken rest := by
  induction h with
  | nil => rfl
  | cons hstep _ ih =>
    rw [List.cons_append, stringFrom_more hstep]
    exact ih

/-- **A string is read as what it spells.**

**Proof sketch.** Induction on how the text spells the characters, along with what has been taken. A
plain character, an escaped letter and a unit that is no surrogate give one character each. Of a
pair the first unit is kept until the second one has been gone through, and the two are joined to
one character. Each character is put in front of those that have been taken, which are turned round
in the end. -/
lemma stringFrom_spells {text cs : List Char} (h : Spells text cs) (taken rest : List Char) :
    stringFrom .plain taken (text ++ '"' :: rest) =
      .ok (String.ofList (taken.reverse ++ cs), rest) := by
  induction h generalizing taken with
  | nil => rw [List.nil_append, List.append_nil, stringFrom]; rfl
  | @plain c text cs hc _ ih =>
    rw [List.cons_append, stringFrom_give (step_plain hc), ih, List.reverse_cons, List.append_assoc]
    rfl
  | @letter e d text cs he _ ih =>
    rw [List.cons_append, List.cons_append, stringFrom_more rfl, stringFrom_give (step_letter he),
      ih, List.reverse_cons, List.append_assoc]
    rfl
  | @unit a b c d n text cs hunit hhigh hlow _ ih =>
    obtain ⟨last, hmoves, hlast⟩ := moves_hex hunit true none
    rw [finishHex, if_pos rfl, hhigh, hlow] at hlast
    change stringFrom .plain taken ('\\' :: 'u' :: ([a, b, c] ++ d :: (text ++ '"' :: rest))) = _
    rw [stringFrom_more rfl, stringFrom_more rfl, stringFrom_moves hmoves, stringFrom_give hlast,
      ih, List.reverse_cons, List.append_assoc]
    rfl
  | @pair a b c d a' b' c' d' n n' text cs hunit hhigh hunit' hlow _ ih =>
    obtain ⟨last, hmoves, hlast⟩ := moves_hex hunit true none
    obtain ⟨last', hmoves', hlast'⟩ := moves_hex hunit' true (some n)
    rw [finishHex, if_pos rfl, hhigh] at hlast
    rw [finishHex, if_pos rfl, hlow] at hlast'
    change stringFrom .plain taken ('\\' :: 'u' :: ([a, b, c] ++ d :: '\\' :: 'u' ::
      ([a', b', c'] ++ d' :: (text ++ '"' :: rest)))) = _
    rw [stringFrom_more rfl, stringFrom_more rfl, stringFrom_moves hmoves, stringFrom_more hlast,
      stringFrom_more rfl, stringFrom_more rfl, stringFrom_moves hmoves', stringFrom_give hlast',
      ih, List.reverse_cons, List.append_assoc]
    rfl

/-- A string whose opening quote was taken. -/
lemma run_stringBody {text cs : List Char} (h : Spells text cs) (rest : List Char) :
    stringBody.run (text ++ '"' :: rest) = .ok (String.ofList cs, rest) :=
  stringFrom_spells h [] rest

/-- **A string is read as what it spells.** -/
lemma takes_string {text : List Char} {s : String} (h : Spells text s.toList) :
    Takes string [inQuotes text] s := by
  refine takes_of_peek rfl fun rest => ?_
  have hbody := run_stringBody h rest
  rw [String.ofList_toList] at hbody
  rw [if_pos rfl, run_advance_bind]
  change stringBody.run (text ++ ['"'] ++ rest) = _
  rw [List.append_assoc]
  exact hbody

end EditIdioms.Json
