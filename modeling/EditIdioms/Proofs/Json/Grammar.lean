import EditIdioms.Json.Text
import EditIdioms.Json.Number
import Mathlib.Data.List.Basic
import Mathlib.Tactic.Lemma

set_option relaxedAutoImplicit false
set_option autoImplicit false

/-!
# JSON text

What JSON text is, apart from any reader: a list of tokens, with blanks before, between and behind
them. Numbers may be of any size, and an escape by number may stand for half a character; only where
a string has a value must both halves be there.

## Main definitions

* `Token`, `Laid`, `SpacedOut` — tokens, and tokens with blanks.
* `IsNumber`, `IsStringBody`, `IsText` — the tokens that are not fixed.
* `Spells` — the characters that a string stands for.
* `IsJson` — the tokens of a JSON value.

## Main results

* `laid_append`, `laid_flatten` — tokens laid out one part after another, and without blanks.
* `spells_quoted` — a string as it is written spells the string.
-/

namespace EditIdioms.Json

/-- The characters of one token. -/
abbrev Token := List Char

/-! ## Tokens with blanks -/

/-- The tokens one after another, with any blanks before each of them. -/
inductive Laid : List Token → List Char → Prop
  | nil : Laid [] []
  | cons {blanks text : List Char} {t : Token} {ts : List Token}
    (blank : ∀ c ∈ blanks, isBlank c = true) (rest : Laid ts text) :
    Laid (t :: ts) (blanks ++ (t ++ text))

/-- A text that is made of the tokens, and of blanks between them and at both ends. -/
def SpacedOut (ts : List Token) (text : List Char) : Prop :=
  ∃ front blanks, Laid ts front ∧ (∀ c ∈ blanks, isBlank c = true) ∧ text = front ++ blanks

/-- The first token stands behind some blanks, and the others are laid out behind it. -/
lemma exists_of_laid_cons {t : Token} {ts : List Token} {text : List Char}
    (h : Laid (t :: ts) text) :
    ∃ blanks rest, (∀ c ∈ blanks, isBlank c = true) ∧ Laid ts rest ∧
      text = blanks ++ (t ++ rest) := by
  cases h with
  | cons hblank hrest => exact ⟨_, _, hblank, hrest, rfl⟩

/-- The only token stands behind some blanks, and nothing is behind it. -/
lemma exists_of_laid_singleton {t : Token} {text : List Char} (h : Laid [t] text) :
    ∃ blanks, (∀ c ∈ blanks, isBlank c = true) ∧ text = blanks ++ t := by
  obtain ⟨blanks, rest, hblank, hnil, rfl⟩ := exists_of_laid_cons h
  cases hnil
  exact ⟨blanks, hblank, by rw [List.append_nil]⟩

/-- **One part of the tokens is laid out after another.**

**Proof sketch.** Induction on the first part. Its first token is laid out behind some blanks, and
so is the first token of both parts together; what is behind it is the hypothesis of the induction,
and the pieces are put together in another order of brackets. -/
lemma laid_append {ts us : List Token} {text : List Char} :
    Laid (ts ++ us) text ↔ ∃ first second, Laid ts first ∧ Laid us second ∧
      text = first ++ second := by
  induction ts generalizing text with
  | nil =>
    constructor
    · exact fun h => ⟨[], text, .nil, h, rfl⟩
    · rintro ⟨first, second, hfirst, hsecond, rfl⟩
      cases hfirst
      exact hsecond
  | cons t ts ih =>
    constructor
    · intro h
      obtain ⟨blanks, rest, hblank, hrest, rfl⟩ := exists_of_laid_cons h
      obtain ⟨first, second, hfirst, hsecond, rfl⟩ := ih.mp hrest
      exact ⟨_, second, .cons hblank hfirst, hsecond, by simp only [List.append_assoc]⟩
    · rintro ⟨first, second, hfirst, hsecond, rfl⟩
      obtain ⟨blanks, rest, hblank, hrest, rfl⟩ := exists_of_laid_cons hfirst
      have hall : Laid (t :: (ts ++ us)) (blanks ++ (t ++ (rest ++ second))) :=
        .cons hblank (ih.mpr ⟨rest, second, hrest, hsecond, rfl⟩)
      simpa only [List.cons_append, List.append_assoc] using hall

/-- No blanks are needed: tokens are laid out one right after another. -/
lemma laid_flatten (ts : List Token) : Laid ts ts.flatten := by
  induction ts with
  | nil => exact .nil
  | cons t ts ih =>
    have hall : Laid (t :: ts) ([] ++ (t ++ ts.flatten)) := .cons (fun c hc => nomatch hc) ih
    exact hall

/-! ## Strings -/

/-- The 16-bit unit of four hexadecimal digits. -/
def hexUnit? (a b c d : Char) : Option Nat := do
  return (((← hexValue? a) * 16 + (← hexValue? b)) * 16 + (← hexValue? c)) * 16 + (← hexValue? d)

/-- A character that stands for itself in a string. -/
def IsPlain (c : Char) : Prop := c ≠ '"' ∧ c ≠ '\\' ∧ 0x20 ≤ c.toNat

/-- What stands between the quotes of a string, if its value does not matter. -/
inductive IsStringBody : List Char → Prop
  | nil : IsStringBody []
  | plain {c : Char} {text : List Char} (h : IsPlain c) (rest : IsStringBody text) :
    IsStringBody (c :: text)
  | letter {e d : Char} {text : List Char} (h : escaped? e = some d) (rest : IsStringBody text) :
    IsStringBody ('\\' :: e :: text)
  | unit {a b c d : Char} {n : ℕ} {text : List Char} (h : hexUnit? a b c d = some n)
    (rest : IsStringBody text) : IsStringBody ('\\' :: 'u' :: a :: b :: c :: d :: text)

/-- What stands between the quotes of a string, and the characters that it stands for. -/
inductive Spells : List Char → List Char → Prop
  | nil : Spells [] []
  | plain {c : Char} {text cs : List Char} (h : IsPlain c) (rest : Spells text cs) :
    Spells (c :: text) (c :: cs)
  | letter {e d : Char} {text cs : List Char} (h : escaped? e = some d) (rest : Spells text cs) :
    Spells ('\\' :: e :: text) (d :: cs)
  | unit {a b c d : Char} {n : ℕ} {text cs : List Char} (h : hexUnit? a b c d = some n)
    (high : isHighSurrogate n = false) (low : isLowSurrogate n = false) (rest : Spells text cs) :
    Spells ('\\' :: 'u' :: a :: b :: c :: d :: text) (.ofNat n :: cs)
  | pair {a b c d a' b' c' d' : Char} {n n' : ℕ} {text cs : List Char}
    (h : hexUnit? a b c d = some n) (high : isHighSurrogate n = true)
    (h' : hexUnit? a' b' c' d' = some n') (low : isLowSurrogate n' = true)
    (rest : Spells text cs) :
    Spells ('\\' :: 'u' :: a :: b :: c :: d :: '\\' :: 'u' :: a' :: b' :: c' :: d' :: text)
      (joinSurrogates n n' :: cs)

/-- A text between quotes. -/
def inQuotes (text : List Char) : Token := '"' :: text ++ ['"']

/-- A token that is a string. -/
def IsText (t : Token) : Prop := ∃ text, IsStringBody text ∧ t = inQuotes text

/-! ## Numbers -/

/-- At least one digit, and nothing else. -/
def IsDigits (cs : List Char) : Prop := cs ≠ [] ∧ ∀ c ∈ cs, isDigit c = true

/-- A token that is a number, of whatever size. -/
def IsNumber (t : Token) : Prop :=
  ∃ sign whole fraction exponent : List Char,
    t = sign ++ whole ++ fraction ++ exponent ∧
    (sign = [] ∨ sign = ['-']) ∧
    (whole = ['0'] ∨ IsDigits whole ∧ whole.head? ≠ some '0') ∧
    (fraction = [] ∨ ∃ digits, IsDigits digits ∧ fraction = '.' :: digits) ∧
    (exponent = [] ∨ ∃ mark sign digits, (mark = 'e' ∨ mark = 'E') ∧
      (sign = [] ∨ sign = ['+'] ∨ sign = ['-']) ∧ IsDigits digits ∧
        exponent = mark :: sign ++ digits)

/-! ## Values -/

/-- What tokens can be: a value, or what stands inside an array or an object. -/
inductive Part where
  | value
  | items
  | members

/-- The tokens are JSON. -/
inductive IsJson : Part → List Token → Prop
  | null : IsJson .value [['n', 'u', 'l', 'l']]
  | true : IsJson .value [['t', 'r', 'u', 'e']]
  | false : IsJson .value [['f', 'a', 'l', 's', 'e']]
  | number {t : Token} (h : IsNumber t) : IsJson .value [t]
  | string {t : Token} (h : IsText t) : IsJson .value [t]
  | emptyArray : IsJson .value [['['], [']']]
  | array {ts : List Token} (h : IsJson .items ts) : IsJson .value (['['] :: ts ++ [[']']])
  | emptyObject : IsJson .value [['\x7b'], ['\x7d']]
  | object {ts : List Token} (h : IsJson .members ts) :
    IsJson .value (['\x7b'] :: ts ++ [['\x7d']])
  | lastItem {ts : List Token} (h : IsJson .value ts) : IsJson .items ts
  | item {ts us : List Token} (h : IsJson .value ts) (rest : IsJson .items us) :
    IsJson .items (ts ++ [','] :: us)
  | lastMember {key : Token} {ts : List Token} (hkey : IsText key) (h : IsJson .value ts) :
    IsJson .members (key :: [':'] :: ts)
  | member {key : Token} {ts us : List Token} (hkey : IsText key) (h : IsJson .value ts)
    (rest : IsJson .members us) : IsJson .members (key :: [':'] :: ts ++ [','] :: us)

/-! ## What is written -/

/-- The two digits of a control character. -/
lemma hexUnit?_control {n : ℕ} (h : n < 0x20) :
    hexUnit? '0' '0' (hexDigit (n / 16)) (hexDigit (n % 16)) = some n := by
  have hall : ∀ n : Fin 0x20,
      hexUnit? '0' '0' (hexDigit (n.val / 16)) (hexDigit (n.val % 16)) = some n.val := by decide
  exact hall ⟨n, h⟩

/-- **A character as it is written spells the character.** -/
lemma spells_escapeChar (c : Char) {text cs : List Char} (h : Spells text cs) :
    Spells (escapeChar c ++ text) (c :: cs) := by
  by_cases hletter : c ∈ ['"', '\\', '\x08', '\x0c', '\n', '\r', '\t']
  · simp only [List.mem_cons, List.not_mem_nil, or_false] at hletter
    rcases hletter with rfl | rfl | rfl | rfl | rfl | rfl | rfl <;> exact .letter rfl h
  simp only [List.mem_cons, List.not_mem_nil, or_false, not_or] at hletter
  obtain ⟨hquote, hbackslash, hb, hf, hn, hr, ht⟩ := hletter
  unfold escapeChar
  rw [if_neg hquote, if_neg hbackslash, if_neg hb, if_neg hf, if_neg hn, if_neg hr, if_neg ht]
  by_cases hcontrol : c.toNat < 0x20
  · rw [if_pos hcontrol]
    have hunit := Spells.unit (hexUnit?_control hcontrol)
      (by unfold isHighSurrogate; simp; omega) (by unfold isLowSurrogate; simp; omega) h
    rwa [Char.ofNat_toNat] at hunit
  · rw [if_neg hcontrol]
    exact .plain ⟨hquote, hbackslash, Nat.le_of_not_lt hcontrol⟩ h

/-- A string as it is written spells the string. -/
lemma spells_quoted (s : String) : ∃ text, quoted s = inQuotes text ∧ Spells text s.toList := by
  refine ⟨s.toList.flatMap escapeChar, rfl, ?_⟩
  induction s.toList with
  | nil => exact .nil
  | cons c cs ih =>
    rw [List.flatMap_cons]
    exact spells_escapeChar c ih

end EditIdioms.Json
