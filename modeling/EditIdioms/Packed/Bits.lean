import EditIdioms.Packed.Fault

/-!
# Streams of bits

Bytes are read bit by bit in one of two directions. Forward, the lowest bit of the first byte comes
first, and a number starts with its lowest bit. Backward, the highest bit of the last byte comes
first, and a number starts with its highest bit; above the first bit that counts there is a mark, a
bit that is one, with zeros above it.

## Main definitions

* `BitReader` — a computation that takes bits from the front of a list.
* `forwardBits`, `readForward` — bits and numbers in the forward direction.
* `backwardBits`, `readBackward` — bits and numbers in the backward direction.
-/

set_option autoImplicit false

namespace EditIdioms.Packed

/-- A computation that takes bits from the front of a list. -/
abbrev BitReader (α : Type) := StateT (List Bool) (Except StreamFault) α

/-- Reads one bit. -/
def readBit : BitReader Bool := do
  match ← get with
  | [] => throw .corrupted
  | bit :: rest =>
    set rest
    return bit

/-- The bits of a byte, lowest first. -/
def bitsOf (b : UInt8) : List Bool := (List.range 8).map b.toNat.testBit

/-- The bits of bytes in the forward direction. -/
def forwardBits (bytes : List UInt8) : List Bool := bytes.flatMap bitsOf

/-- Reads a number of `count` bits, lowest first. -/
def readForward : (count : Nat) → BitReader Nat
  | 0 => return 0
  | count + 1 => do
    let bit ← readBit
    return bit.toNat + 2 * (← readForward count)

/-- The bits of bytes in the backward direction, below the mark. -/
def backwardBits (bytes : List UInt8) : Except StreamFault (List Bool) :=
  match bytes.reverse with
  | [] => throw .corrupted
  | last :: before =>
    match (bitsOf last).reverse.dropWhile (!·) with
    | [] => throw .corrupted
    | _ :: bits => return bits ++ before.flatMap fun b => (bitsOf b).reverse

/-- The bits of bytes in the backward direction, below the mark if there is one in the last byte. -/
def looseBits (bytes : List UInt8) : List Bool :=
  match backwardBits bytes with
  | .ok bits => bits
  | .error _ => (forwardBits bytes).reverse

/-- Reads `count` more bits, highest first, of a number whose higher bits are those of `high`. -/
def readBelow : (high : Nat) → (count : Nat) → BitReader Nat
  | high, 0 => return high
  | high, count + 1 => do readBelow (2 * high + (← readBit).toNat) count

/-- Reads a number of `count` bits, highest first. -/
def readBackward (count : Nat) : BitReader Nat := readBelow 0 count

end EditIdioms.Packed
