import EditIdioms.Proofs.Numeric.Words
import EditIdioms.RecordLog.Bytes
import Mathlib.Data.List.Nodup

set_option relaxedAutoImplicit false
set_option autoImplicit false

/-!
# What a reader of bytes accepts

A reader takes bytes from the front of a list. What it accepts is told by a relation between values
and bytes: `Reads read form` says that reading gives `a` and leaves `rest` exactly when the bytes
are some `front` with `form a front`, followed by `rest`. The one equivalence holds both directions
of a format, that what was written is read and that nothing else is, whatever bytes come after it;
and it is closed under sequences, so the form of a reader is put together from those of its parts.

## Main definitions

* `Reads` — what a reader accepts.
* `Text.Fits` — the number of bytes of a text is a word of eight bytes.

## Main results

* `reads_pure`, `reads_bind`, `Reads.map`, `Reads.congr` — how forms are put together.
* `reads_word`, `reads_text`, `reads_char`, `reads_flag`, `reads_option`, `reads_alternative` — the
  forms of the parts of a record.
-/

namespace EditIdioms

/-- The number of bytes of a text is a word of eight bytes. -/
def Text.Fits (s : String) : Prop := s.utf8ByteSize < UInt64.size

instance (s : String) : Decidable (Text.Fits s) :=
  inferInstanceAs (Decidable (s.utf8ByteSize < UInt64.size))

namespace RecordLog

variable {α β : Type}

/-! ## Forms -/

/-- Reading gives a value exactly when the value is in front in this form. -/
def Reads (read : ByteReader α) (form : α → List UInt8 → Prop) : Prop :=
  ∀ b a rest, read.run b = .ok (a, rest) ↔ ∃ front, b = front ++ rest ∧ form a front

/-- A form can be told in other words. -/
lemma Reads.congr {read : ByteReader α} {form form' : α → List UInt8 → Prop}
    (h : Reads read form) (hform : ∀ a front, form a front ↔ form' a front) :
    Reads read form' := by
  intro b a rest
  rw [h b a rest]
  simp only [hform]

/-- A reader that always fails accepts nothing. -/
lemma reads_throw (fault : FormatFault) :
    Reads (throw fault : ByteReader α) fun _ _ => False := by
  intro b a rest
  constructor
  · intro h
    cases h
  · rintro ⟨-, -, h⟩
    cases h

/-- A reader that gives a value accepts no bytes at all in its place. -/
lemma reads_pure (a : α) : Reads (pure a : ByteReader α) fun a' front => a' = a ∧ front = [] := by
  intro b a' rest
  constructor
  · intro h
    cases h
    exact ⟨[], rfl, rfl, rfl⟩
  · rintro ⟨front, rfl, rfl, rfl⟩
    rfl

/-- What a sequence of readers gives. -/
lemma run_bind_eq_ok {read : ByteReader α} {k : α → ByteReader β} {b rest : List UInt8} {x : β} :
    (read >>= k).run b = .ok (x, rest) ↔
      ∃ a middle, read.run b = .ok (a, middle) ∧ (k a).run middle = .ok (x, rest) := by
  rw [StateT.run_bind]
  cases hread : read.run b with
  | error fault =>
    constructor
    · intro h
      cases h
    · rintro ⟨a, middle, h, -⟩
      cases h
  | ok out =>
    obtain ⟨a, middle⟩ := out
    constructor
    · exact fun h => ⟨a, middle, rfl, h⟩
    · rintro ⟨a', middle', h, hk⟩
      cases h
      exact hk

/-- **Sequences.** One form after the other, the second one depending on what was read.

**Proof sketch.** The first reader leaves the bytes behind the first form, and the second one those
behind the form that goes with what was read. Both directions put the two pieces in front
together. -/
lemma reads_bind {read : ByteReader α} {form : α → List UInt8 → Prop} (h : Reads read form)
    {k : α → ByteReader β} {f : α → β → List UInt8 → Prop} (hk : ∀ a, Reads (k a) (f a)) :
    Reads (read >>= k) fun x front =>
      ∃ a first second, front = first ++ second ∧ form a first ∧ f a x second := by
  intro b x rest
  rw [run_bind_eq_ok]
  constructor
  · rintro ⟨a, middle, hread, hrest⟩
    obtain ⟨first, rfl, hfirst⟩ := (h _ _ _).mp hread
    obtain ⟨second, rfl, hsecond⟩ := (hk a _ _ _).mp hrest
    exact ⟨first ++ second, by rw [List.append_assoc], a, first, second, rfl, hfirst, hsecond⟩
  · rintro ⟨front, rfl, a, first, second, rfl, hfirst, hsecond⟩
    rw [List.append_assoc]
    exact ⟨a, second ++ rest, (h _ _ _).mpr ⟨first, rfl, hfirst⟩,
      (hk a _ _ _).mpr ⟨second, rfl, hsecond⟩⟩

/-- What a function makes of a value is accepted where the value is. -/
lemma Reads.map {read : ByteReader α} {form : α → List UInt8 → Prop} (h : Reads read form)
    (f : α → β) :
    Reads (do return f (← read)) fun x front => ∃ a, x = f a ∧ form a front := by
  refine (reads_bind h fun a => reads_pure (f a)).congr fun x front => ?_
  constructor
  · rintro ⟨a, first, second, rfl, hform, rfl, rfl⟩
    exact ⟨a, rfl, by rwa [List.append_nil]⟩
  · rintro ⟨a, rfl, hform⟩
    exact ⟨a, front, [], (List.append_nil _).symm, hform, rfl, rfl⟩

/-! ## Bytes and words -/

/-- One byte is read from the byte that stands in front.

**Proof sketch.** Without bytes there is none to read and none in front. Otherwise the first one is
read, and it is the one that stands in front of the others. -/
lemma reads_byte : Reads readByte fun x front => front = [x] := by
  intro b x rest
  cases b with
  | nil =>
    constructor
    · intro h
      cases h
    · rintro ⟨front, h, rfl⟩
      cases h
  | cons y b =>
    constructor
    · intro h
      cases h
      exact ⟨[x], rfl, rfl⟩
    · rintro ⟨front, h, rfl⟩
      cases h
      rfl

/-- A number of bytes is read from as many bytes in front, in order.

**Proof sketch.** Induction on the number. No bytes are read from nothing. One more is a byte and
then as many bytes as before. -/
lemma reads_takeBytes (count : ℕ) :
    Reads (takeBytes count) fun bytes front => front = bytes ∧ bytes.length = count := by
  induction count with
  | zero =>
    refine (reads_pure []).congr fun bytes front => ?_
    constructor
    · rintro ⟨rfl, rfl⟩
      exact ⟨rfl, rfl⟩
    · rintro ⟨rfl, h⟩
      exact ⟨List.eq_nil_of_length_eq_zero h, List.eq_nil_of_length_eq_zero h⟩
  | succ count ih =>
    refine (reads_bind reads_byte fun x => ih.map (x :: ·)).congr fun bytes front => ?_
    constructor
    · rintro ⟨x, -, -, rfl, rfl, bytes, rfl, rfl, rfl⟩
      exact ⟨rfl, rfl⟩
    · rintro ⟨rfl, hlength⟩
      cases front with
      | nil => cases hlength
      | cons x front =>
        exact ⟨x, [x], front, rfl, rfl, front, rfl, rfl, Nat.succ.inj hlength⟩

/-- A word is read from as many bytes as it has, the lowest one first. -/
lemma reads_word (count : ℕ) :
    Reads (readWord count) fun n front => n < Nat.pow 256 count ∧ front = wordBytes count n := by
  refine ((reads_takeBytes count).map wordOfBytes).congr fun n front => ?_
  constructor
  · rintro ⟨bytes, rfl, rfl, rfl⟩
    exact ⟨wordOfBytes_lt _, (wordBytes_wordOfBytes _).symm⟩
  · rintro ⟨hn, rfl⟩
    exact ⟨_, (wordOfBytes_wordBytes hn).symm, rfl, length_wordBytes count n⟩

/-- What is made of a value that is stored as its bits. -/
lemma reads_bits {count width : ℕ} (hwidth : Nat.pow 2 width = Nat.pow 256 count)
    {f : BitVec width → α} {g : α → BitVec width} (hfg : ∀ a, f (g a) = a)
    (hgf : ∀ v, g (f v) = v) (h : α → β) :
    Reads (do return h (f (.ofNat width (← readWord count))))
      fun x front => ∃ a, x = h a ∧ front = wordBytes count (g a).toNat := by
  refine ((reads_word count).map fun n => h (f (.ofNat width n))).congr fun x front => ?_
  constructor
  · rintro ⟨n, rfl, hn, rfl⟩
    have hroom : (BitVec.ofNat width n).toNat = n :=
      (BitVec.toNat_ofNat ..).trans (Nat.mod_eq_of_lt (Nat.lt_of_lt_of_eq hn hwidth.symm))
    exact ⟨_, rfl, by rw [hgf, hroom]⟩
  · rintro ⟨a, rfl, rfl⟩
    refine ⟨(g a).toNat, ?_, Nat.lt_of_lt_of_eq (g a).isLt hwidth, rfl⟩
    rw [BitVec.ofNat_toNat, BitVec.setWidth_eq, hfg]

/-! ## Texts and characters -/

/-- **A text** is read from its length and its bytes, if the length fits.

**Proof sketch.** A text is its length in eight bytes and as many bytes behind it, which must be
those of a text. The bytes of a text give the text back, and bytes that give a text are the bytes of
that text, so the length that was read is the length of the text. -/
lemma reads_text : Reads readText fun s front => Text.Fits s ∧ front = textBytes s := by
  unfold readText
  refine (reads_bind (f := fun count s front => front = Text.bytes s ∧ s.utf8ByteSize = count)
    (reads_word 8) fun count => ?_).congr fun s front => ?_
  · refine (reads_bind (f := fun bytes s front => Text.ofBytes? bytes = some s ∧ front = [])
      (reads_takeBytes count) fun bytes => ?_).congr fun s front => ?_
    · cases Text.ofBytes? bytes with
      | none => exact (reads_throw _).congr fun s front => by simp
      | some s' => exact (reads_pure s').congr fun s front => by simp [eq_comm]
    constructor
    · rintro ⟨bytes, first, second, rfl, ⟨rfl, hlength⟩, hs, rfl⟩
      have hbytes := Text.bytes_of_ofBytes? hs
      exact ⟨by rw [List.append_nil, hbytes], by rw [← hlength, ← hbytes]; rfl⟩
    · rintro ⟨rfl, hlength⟩
      exact ⟨Text.bytes s, Text.bytes s, [], (List.append_nil _).symm, ⟨rfl, hlength⟩,
        Text.ofBytes?_bytes s, rfl⟩
  constructor
  · rintro ⟨n, first, second, rfl, ⟨hn, rfl⟩, rfl, rfl⟩
    exact ⟨hn, rfl⟩
  · rintro ⟨hfits, rfl⟩
    exact ⟨s.utf8ByteSize, _, _, rfl, ⟨hfits, rfl⟩, rfl, rfl⟩

/-- The character in front of some bytes. -/
lemma run_readChar_cons (first : UInt8) (tail : List UInt8) :
    readChar.run (first :: tail) =
      match charLength? first with
      | none => .error .character
      | some count =>
        match (Text.ofBytes? ((first :: tail).take count)).map String.toList with
        | some [c] => .ok (c, (first :: tail).drop count)
        | _ => .error .character := by
  unfold readChar
  change (match charLength? first with
      | none => throw .character
      | some count =>
        match (Text.ofBytes? ((first :: tail).take count)).map String.toList with
        | some [c] => do
          set ((first :: tail).drop count)
          return c
        | _ => throw .character : ByteReader Char).run (first :: tail) = _
  cases charLength? first with
  | none => rfl
  | some count =>
    dsimp only
    split <;> rfl

/-- The bytes of a character are those of its UTF-8 encoding. -/
lemma charBytes_eq (c : Char) : charBytes c = String.utf8EncodeChar c := by
  simp [charBytes, Text.bytes, List.utf8Encode]

/-- The number of bytes by the number of the first byte. -/
lemma charLength?_ofNat {n : ℕ} (h : n < 256) :
    charLength? (.ofNat n) =
      if n < 0x80 then some 1 else if n < 0xC2 then none else if n < 0xE0 then some 2
      else if n < 0xF0 then some 3 else if n < 0xF5 then some 4 else none := by
  have hn : (UInt8.ofNat n).toNat = n := by
    rw [UInt8.toNat_ofNat', Nat.mod_eq_of_lt h]
  simp [charLength?, UInt8.lt_iff_toNat_lt, hn]

/-- The first byte of a character tells how many bytes it has.

**Proof sketch.** A character of one byte is below 128. Otherwise its first byte holds the highest
bits of its number, over 192, 224 or 240 for two, three or four bytes, and as a character has no
more bytes than it needs, these bits are not too few. -/
lemma charBytes_eq_cons (c : Char) :
    ∃ first tail, charBytes c = first :: tail ∧
      charLength? first = some (charBytes c).length := by
  have hlt : c.val.toNat < 0x110000 := by
    rcases c.valid with h | ⟨-, h⟩ <;> omega
  rw [charBytes_eq, String.utf8EncodeChar]
  generalize c.val.toNat = v at hlt
  -- the first byte by the number of bytes, which the size of the character tells
  by_cases h₁ : v ≤ 0x7f
  · refine ⟨_, _, if_pos h₁, ?_⟩
    rw [if_pos h₁, charLength?_ofNat (by omega), if_pos (by omega)]
    rfl
  by_cases h₂ : v ≤ 0x7ff
  · refine ⟨_, _, (if_neg h₁).trans (if_pos h₂), ?_⟩
    rw [if_neg h₁, if_pos h₂, charLength?_ofNat (by omega), if_neg (by omega), if_neg (by omega),
      if_pos (by omega)]
    rfl
  by_cases h₃ : v ≤ 0xffff
  · refine ⟨_, _, (if_neg h₁).trans ((if_neg h₂).trans (if_pos h₃)), ?_⟩
    rw [if_neg h₁, if_neg h₂, if_pos h₃, charLength?_ofNat (by omega), if_neg (by omega),
      if_neg (by omega), if_neg (by omega), if_pos (by omega)]
    rfl
  · refine ⟨_, _, (if_neg h₁).trans ((if_neg h₂).trans (if_neg h₃)), ?_⟩
    rw [if_neg h₁, if_neg h₂, if_neg h₃, charLength?_ofNat (by omega), if_neg (by omega),
      if_neg (by omega), if_neg (by omega), if_neg (by omega), if_pos (by omega)]
    rfl

/-- **A character** is read from its encoding, which tells its length by the first byte.

**Proof sketch.** The first byte says how many bytes the character takes. Reading them as a text
must give one character, and then they are the bytes of the text that consists of it. The other way
round the first byte of a character says how many bytes it has, and these give the character
back. -/
lemma reads_char : Reads readChar fun c front => front = charBytes c := by
  intro b c rest
  constructor
  · intro h
    cases b with
    | nil => cases h
    | cons first tail =>
      rw [run_readChar_cons] at h
      split at h
      · cases h
      · rename_i count _
        split at h
        · rename_i _ c' hchars
          cases h
          obtain ⟨s, htext, hs⟩ := Option.map_eq_some_iff.mp hchars
          obtain rfl : s = .singleton c := by
            rw [← String.toList_inj, hs, String.toList_singleton]
          exact ⟨_, (List.take_append_drop count _).symm, (Text.bytes_of_ofBytes? htext).symm⟩
        · cases h
  · rintro ⟨front, rfl, rfl⟩
    obtain ⟨first, tail, hcons, hlength⟩ := charBytes_eq_cons c
    have htext : Text.ofBytes? (charBytes c) = some (.singleton c) := Text.ofBytes?_bytes _
    rw [hcons] at hlength htext ⊢
    rw [List.cons_append, run_readChar_cons, hlength]
    dsimp only
    rw [← List.cons_append, List.take_left, List.drop_left, htext]
    dsimp only [Option.map_some]
    rw [String.toList_singleton]

/-- A flag is read from the one byte that stands for it.

**Proof sketch.** A byte is read, and zero and one are the two that stand for a flag; any other one
is a fault. -/
lemma reads_flag : Reads readFlag fun x front => front = flagBytes x := by
  unfold readFlag
  refine (reads_bind (f := fun y x front => [y] = flagBytes x ∧ front = []) reads_byte
    fun y => ?_).congr fun x front => ?_
  · split
    · exact (reads_pure false).congr fun x front => by cases x <;> simp [flagBytes]
    · exact (reads_pure true).congr fun x front => by cases x <;> simp [flagBytes]
    · rename_i h₀ h₁
      exact (reads_throw _).congr fun x front => by
        cases x <;> simp [flagBytes]
        · exact fun h => absurd h h₀
        · exact fun h => absurd h h₁
  constructor
  · rintro ⟨y, first, second, rfl, rfl, hy, rfl⟩
    exact hy
  · rintro rfl
    exact ⟨_, _, [], (List.append_nil _).symm, rfl, rfl, rfl⟩

/-- Something or nothing is read from a byte that says which, and from what is there behind it.

**Proof sketch.** A byte is read. Zero stands for nothing, one for something that is read behind it,
and any other one is a fault. -/
lemma reads_option {read : ByteReader α} {form : α → List UInt8 → Prop} (h : Reads read form) :
    Reads (readOption read) fun x front =>
      (x = none ∧ front = [0]) ∨ ∃ a tail, x = some a ∧ front = 1 :: tail ∧ form a tail := by
  unfold readOption
  refine (reads_bind (f := fun y x tail =>
    (y = 0 ∧ x = none ∧ tail = []) ∨ (y = 1 ∧ ∃ a, x = some a ∧ form a tail)) reads_byte
    fun y => ?_).congr fun x front => ?_
  · split
    · exact (reads_pure none).congr fun x tail => by simp
    · exact (h.map some).congr fun x tail => by simp
    · rename_i h₀ h₁
      exact (reads_throw _).congr fun x tail => by
        simp [show y ≠ 0 from h₀, show y ≠ 1 from h₁]
  constructor
  · rintro ⟨y, first, tail, rfl, rfl, ⟨rfl, rfl, rfl⟩ | ⟨rfl, a, rfl, ha⟩⟩
    · exact .inl ⟨rfl, rfl⟩
    · exact .inr ⟨a, tail, rfl, rfl, ha⟩
  · rintro (⟨rfl, rfl⟩ | ⟨a, tail, rfl, rfl, ha⟩)
    · exact ⟨0, [0], [], rfl, rfl, .inl ⟨rfl, rfl, rfl⟩⟩
    · exact ⟨1, [1], tail, rfl, rfl, .inr ⟨rfl, a, rfl, ha⟩⟩

/-- An alternative of a list in which none stands twice.

**Proof sketch.** A word is read and the element at that index is looked up; there is a fault if the
list is shorter. The index of an element of a list without repeats is the one it was written with,
and it fits the word, as the list is no longer than that. -/
lemma reads_alternative [DecidableEq α] {l : List α} (hnodup : l.Nodup)
    (hlength : l.length ≤ Nat.pow 256 4) :
    Reads (readAlternative l) fun a front => a ∈ l ∧ front = wordBytes 4 (l.idxOf a) := by
  unfold readAlternative
  refine (reads_bind (f := fun n a front => l[n]? = some a ∧ front = []) (reads_word 4)
    fun n => ?_).congr fun a front => ?_
  · cases l[n]? with
    | none => exact (reads_throw _).congr fun a front => by simp
    | some a' => exact (reads_pure a').congr fun a front => by simp [eq_comm]
  constructor
  · rintro ⟨n, first, second, rfl, ⟨-, rfl⟩, hget, rfl⟩
    obtain ⟨hn, rfl⟩ := List.getElem?_eq_some_iff.mp hget
    exact ⟨List.getElem_mem hn, by rw [hnodup.idxOf_getElem, List.append_nil]⟩
  · rintro ⟨hmem, rfl⟩
    have hlt := List.idxOf_lt_length_of_mem hmem
    refine ⟨l.idxOf a, _, [], (List.append_nil _).symm, ⟨by omega, rfl⟩, ?_, rfl⟩
    rw [List.getElem?_eq_getElem hlt, List.getElem_idxOf]

end RecordLog

end EditIdioms