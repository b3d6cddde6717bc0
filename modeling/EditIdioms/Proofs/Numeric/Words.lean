import EditIdioms.Numeric.Word
import Mathlib.Data.Nat.Notation
import Mathlib.Tactic.Lemma

set_option relaxedAutoImplicit false
set_option autoImplicit false

/-!
# Words and their bytes

Numbers below a power of 256 and lists of as many bytes are the same: storing a number as a word
and reading the word are inverse to each other.

## Main results

* `wordOfBytes_wordBytes` — a number that has room in a word is read from it.
* `wordBytes_wordOfBytes` — only the bytes of a word give its number.
-/

namespace EditIdioms

/-- A word has the number of bytes that was asked for. -/
@[simp] lemma length_wordBytes (count n : ℕ) : (wordBytes count n).length = count := by
  induction count generalizing n with
  | zero => rfl
  | succ count ih => rw [wordBytes, List.length_cons, ih]

/-- A number that has room in a word is read from the bytes of the word. -/
lemma wordOfBytes_wordBytes {count n : ℕ} (h : n < Nat.pow 256 count) :
    wordOfBytes (wordBytes count n) = n := by
  induction count generalizing n with
  | zero =>
    have hzero : n < 1 := h
    rw [wordBytes, wordOfBytes]
    omega
  | succ count ih =>
    have hpow : n < Nat.pow 256 count * 256 := h
    rw [wordBytes, wordOfBytes, ih (Nat.div_lt_of_lt_mul (by omega)), UInt8.toNat_ofNat']
    omega

/-- The word of some bytes has room in that many bytes. -/
lemma wordOfBytes_lt (b : List UInt8) : wordOfBytes b < Nat.pow 256 b.length := by
  induction b with
  | nil => exact Nat.one_pos
  | cons x b ih =>
    have hx : x.toNat < 256 := x.toNat_lt
    change x.toNat + 256 * wordOfBytes b < Nat.pow 256 b.length * 256
    omega

/-- Only the bytes of a word give it. -/
lemma wordBytes_wordOfBytes (b : List UInt8) : wordBytes b.length (wordOfBytes b) = b := by
  induction b with
  | nil => rfl
  | cons x b ih =>
    have hx : x.toNat < 256 := x.toNat_lt
    have hlow : UInt8.ofNat (x.toNat + 256 * wordOfBytes b) = x := by
      apply UInt8.toNat_inj.mp
      rw [UInt8.toNat_ofNat']
      omega
    have hhigh : (x.toNat + 256 * wordOfBytes b) / 256 = wordOfBytes b := by omega
    rw [List.length_cons, wordBytes, wordOfBytes, hlow, hhigh, ih]

end EditIdioms
