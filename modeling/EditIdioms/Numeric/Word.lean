/-!
# Words

A word of several bytes is stored with its least significant byte first.

## Main definitions

* `wordBytes` — the bytes of a number.
* `wordOfBytes` — the number with the given bytes.
-/

set_option autoImplicit false

namespace EditIdioms

/-- The low `count` bytes of a number, least significant first. -/
def wordBytes : (count : Nat) → (n : Nat) → List UInt8
  | 0, _ => []
  | count + 1, n => UInt8.ofNat n :: wordBytes count (n / 256)

/-- The number with the given bytes, least significant first. -/
def wordOfBytes : List UInt8 → Nat
  | [] => 0
  | b :: rest => b.toNat + 256 * wordOfBytes rest

end EditIdioms
