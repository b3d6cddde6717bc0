import EditIdioms.Packed.Stream

/-!
# A codec that stores

A frame is written with blocks that store the content as it is, without its size and without a
checksum. Any reader of the format accepts such a frame.

## Main definitions

* `frame` — one frame with the given content.
* `storing` — the codec that writes such frames and reads any.

## Implementation notes

The level makes no difference to `storing`, which saves no room. It stands for other codecs of the
format in so far as it keeps the laws of a codec; what it writes is not what they write, but can be
read by them.
-/

set_option autoImplicit false

namespace EditIdioms.Packed

/-- The header of a block that stores bytes as they are. -/
def storedHeader (isLast : Bool) (size : Nat) : List UInt8 :=
  wordBytes 3 ((if isLast then 1 else 0) + 8 * size)

/-- Blocks that store the content as it is, all but the last of full size. -/
def storedBlocks (content : List UInt8) : List UInt8 :=
  if content.length ≤ blockLimit then storedHeader true content.length ++ content
  else
    storedHeader false blockLimit ++ content.take blockLimit ++
      storedBlocks (content.drop blockLimit)
termination_by content.length
decreasing_by simp [List.length_drop]; unfold blockLimit at *; omega

/-- One frame with the given content and a window of 128 KiB. -/
def frame (content : List UInt8) : List UInt8 := magic ++ [0x00, 0x38] ++ storedBlocks content

/-- The codec that packs into frames of stored blocks, at every level, and unpacks any stream. -/
instance storing : Codec where
  pack _ := frame
  unpack := unpack

end EditIdioms.Packed
