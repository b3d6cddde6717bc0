import EditIdioms.Proofs.Json.Tokens
import Mathlib.Data.Int.Notation

set_option relaxedAutoImplicit false
set_option autoImplicit false

/-!
# Reading integers

An integer that was written in decimal is read from its digits, as long as it fits 64 bits and what
comes behind it is no part of a number.

## Main results

* `gather_digits` — digits are gathered in a significand that has room for them.
* `run_number` — an integer is read from its digits.
* `reads_integerWithin` — an integer within bounds.
-/

namespace EditIdioms.Json

/-! ## Digits -/

/-- A decimal digit is told by its place among the characters. -/
lemma isDigit_iff {c : Char} : isDigit c = true ↔ 48 ≤ c.toNat ∧ c.toNat ≤ 57 := by
  unfold isDigit
  rw [Bool.and_eq_true, decide_eq_true_eq, decide_eq_true_eq]
  exact Iff.rfl

/-- What is written of a number are digits. -/
lemma isDigit_of_mem_decimalDigits {n : ℕ} {c : Char} (h : c ∈ decimalDigits n) :
    isDigit c = true := by
  have hdigit := Nat.isDigit_of_mem_toDigits (by decide) (by decide) h
  unfold Char.isDigit at hdigit
  rw [Bool.and_eq_true, decide_eq_true_eq, decide_eq_true_eq] at hdigit
  exact isDigit_iff.mpr hdigit

/-- The digits of a number that is not zero do not start with a zero. -/
lemma exists_decimalDigits {n : ℕ} (h : n ≠ 0) :
    ∃ c cs, decimalDigits n = c :: cs ∧ c ≠ '0' := by
  induction n using Nat.strongRecOn with
  | _ n ih =>
    unfold decimalDigits
    by_cases hsmall : n < 10
    · refine ⟨n.digitChar, [], Nat.toDigits_of_lt_base hsmall, ?_⟩
      have hall : ∀ n : Fin 10, n.val ≠ 0 → n.val.digitChar ≠ '0' := by decide
      exact hall ⟨n, hsmall⟩ h
    · obtain ⟨c, cs, hdigits, hc⟩ := ih (n / 10) (by omega) (by omega)
      unfold decimalDigits at hdigits
      refine ⟨c, cs ++ [(n % 10).digitChar], ?_, hc⟩
      rw [Nat.toDigits_of_base_le (by decide) (Nat.le_of_not_lt hsmall), hdigits, List.cons_append]

/-- More digits make a number larger. -/
lemma le_ofDigitChars (cs : List Char) (n : ℕ) : n ≤ Nat.ofDigitChars 10 cs n := by
  induction cs generalizing n with
  | nil => exact Nat.le_refl n
  | cons c cs ih =>
    rw [Nat.ofDigitChars_cons]
    exact Nat.le_trans (by omega) (ih _)

/-- **Digits are gathered** in a significand that has room for them.

**Proof sketch.** Induction on the digits. With each one the significand is ten times what it was
and the digit. It does not fall with further digits, so it fits now if it fits in the end, and the
digit is taken. Behind the last one there is no digit, where gathering stops. -/
lemma gather_digits {cs : List Char} (hdigits : ∀ c ∈ cs, isDigit c = true) {n : ℕ}
    (hfits : Nat.ofDigitChars 10 cs n ≤ significandLimit) {rest : List Char}
    (hrest : ∀ c, rest.head? = some c → isDigit c = false) :
    gather n (cs ++ rest) = (Nat.ofDigitChars 10 cs n, cs.length, rest) := by
  induction cs generalizing n with
  | nil =>
    cases rest with
    | nil => rfl
    | cons c rest =>
      rw [List.nil_append, gather, hrest c rfl]
      rfl
  | cons c cs ih =>
    rw [Nat.ofDigitChars_cons, Nat.mul_comm 10 n] at hfits ⊢
    change Nat.ofDigitChars 10 cs (n * 10 + digitValue c) ≤ significandLimit at hfits
    have hnext : n * 10 + digitValue c ≤ significandLimit :=
      Nat.le_trans (le_ofDigitChars cs _) hfits
    rw [List.cons_append, gather, hdigits c List.mem_cons_self, decide_eq_true hnext]
    dsimp only
    rw [ih (fun c hc => hdigits c (List.mem_cons_of_mem _ hc)) hfits]
    rfl

/-! ## Numbers -/

section Numbers

variable {n : ℕ} {rest : List Char}

/-- What closes a number is no part of it. -/
lemma Closed.head? (h : Closed rest) {c : Char} (hc : rest.head? = some c) :
    isDigit c = false ∧ c ≠ '.' ∧ c ≠ 'e' ∧ c ≠ 'E' := by
  have hdelimiter := h c hc
  unfold isDelimiter isBlank at hdelimiter
  simp only [List.contains_cons, List.contains_nil, Bool.or_eq_true, beq_iff_eq, Bool.false_eq_true,
    or_false] at hdelimiter
  rcases hdelimiter with ((((rfl | rfl) | rfl) | rfl) | rfl | rfl | rfl | rfl) <;> decide

/-- A number ends where what comes behind closes it.

**Proof sketch.** At the end of the input there is nothing more to take. Otherwise the next
character closes the number, so it is neither a point nor the mark of an exponent, and the number is
whole. -/
lemma run_numberFrom (negative : Bool) (n : ℕ) (hclosed : Closed rest) :
    (numberFrom negative n 0).run rest = .ok (wholeNumber negative n, rest) := by
  cases rest with
  | nil => rfl
  | cons c rest =>
    obtain ⟨-, hpoint, he, hE⟩ := hclosed.head? rfl
    have hexponent : atExponent.run (c :: rest) = .ok (false, c :: rest) := by
      change Except.ok (c == 'e' || c == 'E', c :: rest) = _
      rw [beq_false_of_ne he, beq_false_of_ne hE]
      rfl
    unfold numberFrom
    rw [run_bind_of_ok (show (get : Reader (List Char)).run (c :: rest) = _ from rfl)]
    split
    · rename_i hhead
      cases hhead
      exact absurd rfl hpoint
    · rw [run_bind_of_ok hexponent]
      rfl

/-- **The digits of a number** without its sign.

**Proof sketch.** What closes the number is no digit, so no digit is left behind it. Zero is a
single digit, and no further digit follows. Any other number starts with a digit that is not zero;
its digits are gathered (`gather_digits`), they have the number as their value, and none of them is
dropped for want of room. In both cases the number ends there (`run_numberFrom`). -/
lemma run_unsignedNumber (negative : Bool) (hn : n ≤ significandLimit) (hclosed : Closed rest) :
    (unsignedNumber negative).run (decimalDigits n ++ rest) =
      .ok (wholeNumber negative n, rest) := by
  have hrest : ∀ c, rest.head? = some c → isDigit c = false := fun c hc => (hclosed.head? hc).1
  have hdrop : rest.dropWhile isDigit = rest ∧ rest.takeWhile isDigit = [] := by
    cases rest with
    | nil => exact ⟨rfl, rfl⟩
    | cons c rest =>
      have hc : ¬ isDigit c = true := by simp [hrest c rfl]
      exact ⟨List.dropWhile_cons_of_neg hc, List.takeWhile_cons_of_neg hc⟩
  unfold unsignedNumber
  rw [run_bind_of_ok (show (get : Reader (List Char)).run (decimalDigits n ++ rest) = _ from rfl)]
  by_cases hzero : n = 0
  · subst hzero
    have hnone : rest.head?.any isDigit = false := by
      cases rest with
      | nil => rfl
      | cons c rest => exact hrest c rfl
    change (if rest.head?.any isDigit then throw Fault.malformed else
      set rest >>= fun _ => numberFrom negative 0 0 : Reader Number).run _ = _
    rw [hnone, if_neg Bool.false_ne_true]
    exact run_numberFrom negative 0 hclosed
  · obtain ⟨c, cs, hcs, hc⟩ := exists_decimalDigits hzero
    have hdigits : ∀ d ∈ c :: cs, isDigit d = true := fun d hd =>
      isDigit_of_mem_decimalDigits (hcs ▸ hd)
    have hvalue : Nat.ofDigitChars 10 (c :: cs) 0 = n := by
      rw [← hcs]
      exact Nat.ofDigitChars_toDigits (by decide) (by decide)
    have hgather := gather_digits hdigits (hvalue.symm ▸ hn) hrest
    rw [hcs, List.cons_append] at *
    split
    · rename_i hnil
      cases hnil
    · rename_i hhead
      cases hhead
      exact absurd rfl hc
    · rename_i hhead
      cases hhead
      rw [hdigits _ List.mem_cons_self, hgather]
      change (numberFrom negative (Nat.ofDigitChars 10 (c :: cs) 0)
        (rest.takeWhile isDigit).length).run (rest.dropWhile isDigit) = _
      rw [hdrop.1, hdrop.2, hvalue]
      exact run_numberFrom negative n hclosed

/-- The digits of a number do not start with a minus sign. -/
lemma head?_decimalDigits (n : ℕ) (rest : List Char) :
    ∃ c cs, decimalDigits n ++ rest = c :: cs ∧ isDigit c = true := by
  obtain ⟨c, cs, hcs⟩ := List.exists_cons_of_ne_nil (Nat.toDigits_ne_nil (b := 10) (n := n))
  have hdigits : decimalDigits n = c :: cs := hcs
  exact ⟨c, cs ++ rest, by rw [hdigits, List.cons_append],
    isDigit_of_mem_decimalDigits (hdigits ▸ List.mem_cons_self)⟩

/-- **An integer is read from its digits**, if it fits 64 bits with or without a sign.

**Proof sketch.** A negative integer is a minus sign and the digits of its absolute value, and any
other one is the digits of its absolute value, which do not start with a minus sign. The digits are
read (`run_unsignedNumber`), and the whole number they give with the sign is the integer, as it is
within the limits for that sign. -/
lemma run_number {n : ℤ} (hlow : -(negativeLimit : ℤ) ≤ n) (hhigh : n ≤ significandLimit)
    (hclosed : Closed rest) :
    number.run (integerDigits n ++ rest) = .ok (.integer n, rest) := by
  have hfits : n.natAbs ≤ significandLimit := by
    have hlimits : negativeLimit ≤ significandLimit := by decide
    omega
  unfold number integerDigits
  by_cases hnegative : n < 0
  · rw [if_pos hnegative]
    have hwhole : wholeNumber true n.natAbs = .integer n := by
      unfold wholeNumber
      rw [if_neg (by simp), if_neg (by omega)]
      congr
      omega
    rw [← hwhole]
    exact run_unsignedNumber true hfits hclosed
  · rw [if_neg hnegative]
    have hwhole : wholeNumber false n.natAbs = .integer n := by
      unfold wholeNumber
      rw [if_pos (by simp)]
      congr
      omega
    obtain ⟨c, cs, hcs, hc⟩ := head?_decimalDigits n.natAbs rest
    rw [← hwhole, ← run_unsignedNumber false hfits hclosed]
    change (if (decimalDigits n.natAbs ++ rest).head? = some '-' then
      advance >>= fun _ => unsignedNumber true else unsignedNumber false : Reader Number).run _ = _
    rw [if_neg]
    rw [hcs]
    rintro ⟨⟩
    cases hc

/-- A number starts with a digit or a minus sign. -/
lemma head?_integerDigits (n : ℤ) :
    ∃ c cs, integerDigits n = c :: cs ∧ (c = '-' ∨ isDigit c = true) := by
  unfold integerDigits
  split
  · exact ⟨'-', _, rfl, .inl rfl⟩
  · obtain ⟨c, cs, hcs, hc⟩ := head?_decimalDigits n.natAbs []
    rw [List.append_nil] at hcs
    exact ⟨c, cs, hcs, .inr hc⟩

/-- What starts a number is no blank. -/
lemma isBlank_of_starts {c : Char} (h : c = '-' ∨ isDigit c = true) : isBlank c = false := by
  rcases h with rfl | h
  · rfl
  · rw [Bool.eq_false_iff]
    intro hblank
    simp only [isBlank, Bool.or_eq_true, beq_iff_eq] at hblank
    rcases hblank with ((rfl | rfl) | rfl) | rfl <;> cases h

/-- **An integer within bounds** is read from its digits. -/
lemma reads_integerWithin {low high n : ℤ} (hlow : low ≤ n) (hhigh : n ≤ high)
    (hlow' : -(negativeLimit : ℤ) ≤ low) (hhigh' : high ≤ significandLimit) :
    Reads (integerWithin low high) [integerDigits n] n := by
  intro text rest hlaid hclosed
  obtain ⟨blanks, hblank, rfl⟩ := exists_of_laid_singleton hlaid
  obtain ⟨c, cs, hcs, hc⟩ := head?_integerDigits n
  have hrun := run_number (Int.le_trans hlow' hlow) (Int.le_trans hhigh hhigh') hclosed
  have hany : anyNumber.run (blanks ++ integerDigits n ++ rest) = .ok (.integer n, rest) := by
    rw [List.append_assoc]
    rw [hcs, List.cons_append] at hrun ⊢
    unfold anyNumber
    rw [run_peek_bind hblank (isBlank_of_starts hc), if_pos hc]
    exact hrun
  unfold integerWithin
  rw [run_bind_of_ok hany]
  dsimp only
  rw [if_pos ⟨hlow, hhigh⟩]
  rfl

end Numbers

end EditIdioms.Json
