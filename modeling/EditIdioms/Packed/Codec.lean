import EditIdioms.Packed.Fault

/-!
# Codecs

A compressed log is packed and unpacked by a codec, of which only the operations are fixed. What is
known of them are two laws, and a theorem about logs names those it needs.

## Main definitions

* `Unpacked` — what a stream contains, and why it ends too early if it does.
* `Codec` — packing at a level, and unpacking.
* `StartsFrame` — whether a stream starts as one of the format does.
* `Codec.Inverts` — what was packed is unpacked.
* `Codec.RefusesUnframed` — nothing is unpacked where no frame starts.

## Implementation notes

The codec is a class with operations only. A program has one codec, so whatever reads or writes logs
takes it from its surroundings, and the laws are no fields of it, so what does not depend on them
holds for any codec. A packer can always be set up, at any level, and packs the content as a whole:
the pieces in which it was written make no difference to a reader. A stream that fails half way is
told by the content before the fault and by the fault.
-/

set_option autoImplicit false

namespace EditIdioms.Packed

/-- What a stream contains, and why it ends too early if it does. -/
structure Unpacked where
  content : List UInt8
  fault? : Option StreamFault := none
deriving DecidableEq

/-- How content is packed into streams at a level, and streams are unpacked. -/
class Codec where
  pack (level : Int32) (content : List UInt8) : List UInt8
  unpack (stream : List UInt8) : Unpacked

/-! ## The starts of frames -/

/-- The bytes that a frame starts with. -/
def magic : List UInt8 := [0x28, 0xb5, 0x2f, 0xfd]

/-- Whether four bytes start a frame that is skipped; there are sixteen such numbers. -/
def isSkipMagic (b : List UInt8) : Bool :=
  match b with
  | first :: rest => first.toNat / 16 = 5 && rest == [0x2a, 0x4d, 0x18]
  | [] => false

/-- Whether four bytes start a frame of an earlier version of the format; there are seven such
numbers. -/
def isOldMagic (b : List UInt8) : Bool :=
  match b with
  | first :: rest =>
    b == [0xfd, 0x2f, 0xb5, 0x1e] || (0x22 ≤ first && first ≤ 0x27 && rest == magic.drop 1)
  | [] => false

/-- The stream starts with the number of a frame, be it skipped or of an earlier version. -/
def StartsFrame (stream : List UInt8) : Prop :=
  stream.take 4 = magic ∨ isSkipMagic (stream.take 4) = true ∨ isOldMagic (stream.take 4) = true

/-! ## Laws -/

/-- Content that was packed, at whatever level, is unpacked as it was, and nothing is wrong. -/
def Codec.Inverts (codec : Codec) : Prop :=
  ∀ level content, codec.unpack (codec.pack level content) = ⟨content, none⟩

/-- Where no frame starts nothing is unpacked but a fault. -/
def Codec.RefusesUnframed (codec : Codec) : Prop :=
  ∀ stream, ¬ StartsFrame stream → ∃ fault, codec.unpack stream = ⟨[], some fault⟩

end EditIdioms.Packed
