import EditIdioms.Numeric.Word
import EditIdioms.Packed.Block
import EditIdioms.Packed.Codec

/-!
# Frame headers

A frame starts with a magic number and a header, which tells how far back the frame looks and, if it
is known, the size of its content. Between frames there may be others that only hold bytes to be
skipped.

## Main definitions

* `FrameHeader`, `FrameHeader.read` — the header of a frame.
* `FrameStart`, `FrameStart.read` — the start of a frame of any kind.
-/

set_option autoImplicit false

namespace EditIdioms.Packed

/-- What a frame tells about itself. -/
structure FrameHeader where
  /-- How many bytes the frame looks back over. -/
  window : Nat
  /-- The size of the content. -/
  contentSize? : Option Nat
  /-- The number of a dictionary, zero for none. -/
  dictionary : Nat
  /-- Whether a checksum follows the last block. -/
  hasChecksum : Bool
deriving DecidableEq

namespace FrameHeader

/-- The most bytes a block of the frame may have. -/
def blockLimit (h : FrameHeader) : Nat := min h.window Packed.blockLimit

/-- Whether the window is the whole content, so that it need not be given. -/
def isSingle (descriptor : Nat) : Bool := descriptor / 32 % 2 = 1

/-- How many bytes the number of a dictionary has. -/
def dictionaryLength (descriptor : Nat) : Nat :=
  match descriptor % 4 with
  | 0 => 0
  | 1 => 1
  | 2 => 2
  | _ => 4

/-- How many bytes the size of the content has. -/
def sizeLength (descriptor : Nat) : Nat :=
  match descriptor / 64 with
  | 0 => if isSingle descriptor then 1 else 0
  | 1 => 2
  | 2 => 4
  | _ => 8

/-- How many bytes there are behind the descriptor. -/
def length (descriptor : Nat) : Nat :=
  (if isSingle descriptor then 0 else 1) + dictionaryLength descriptor + sizeLength descriptor

/-- The size of the content, given by its bytes. A size of two bytes is counted from 256 on, and the
greatest one of eight bytes stands for none. -/
def sizeOfBytes (b : List UInt8) : Option Nat :=
  let n := wordOfBytes b
  match b.length with
  | 0 => none
  | 2 => some (n + 256)
  | 8 => if n = 0xFFFFFFFFFFFFFFFF then none else some n
  | _ => some n

/-- The window given by a byte: a power of two, and so many eighths of it. Powers above the
thirty-first are too large. -/
def windowOfByte (b : Nat) : Except StreamFault Nat :=
  let log := b / 8 + 10
  if 31 < log then throw .windowTooLarge
  else return Nat.pow 2 log + Nat.pow 2 log / 8 * (b % 8)

/-- Reads a header, which starts with its descriptor, and gives what stands behind it. -/
def read (b : List UInt8) : Except StreamFault (FrameHeader × List UInt8) := do
  match b with
  | [] => throw .incomplete
  | descriptor :: rest =>
    let d := descriptor.toNat
    if rest.length < length d then throw .incomplete
    if d / 8 % 2 = 1 then throw .unknownParameter
    let fields := if isSingle d then rest else rest.drop 1
    let contentSize? := sizeOfBytes ((fields.drop (dictionaryLength d)).take (sizeLength d))
    let window ←
      if isSingle d then pure (contentSize?.getD 0xFFFFFFFFFFFFFFFF)
      else windowOfByte (wordOfBytes (rest.take 1))
    let header : FrameHeader := {
      window, contentSize?
      dictionary := wordOfBytes (fields.take (dictionaryLength d))
      hasChecksum := d / 4 % 2 = 1 }
    return (header, rest.drop (length d))

end FrameHeader

/-- The start of a frame. -/
inductive FrameStart where
  | content (header : FrameHeader)
  /-- So many bytes are to be skipped. -/
  | skipped (size : Nat)
deriving DecidableEq

namespace FrameStart

/-- Whether a frame may start with the given bytes, of which there are at most four. -/
def mayStart (b : List UInt8) : Bool :=
  b.isPrefixOf magic || b.isEmpty || isSkipMagic (b ++ [0x2a, 0x4d, 0x18].drop (b.length - 1))

/-- Why a frame that starts with other bytes than these kinds cannot be unpacked. The first versions
of the format, which have magic numbers of their own, are refused; a frame of one of those after
them is taken up, but its end is never found. -/
def otherFault (b : List UInt8) : StreamFault :=
  match b with
  | first :: rest =>
    if b = [0xfd, 0x2f, 0xb5, 0x1e] then .oldFrame
    else if rest ≠ magic.drop 1 then .unknownFrame
    else if first = 0x22 ∨ first = 0x23 then .oldFrame
    else if 0x24 ≤ first ∧ first ≤ 0x27 then .incomplete
    else .unknownFrame
  | [] => .unknownFrame

/-- Reads the start of a frame and gives what stands behind it. -/
def read (b : List UInt8) : Except StreamFault (FrameStart × List UInt8) := do
  if b.length < 5 then throw (if mayStart b then .incomplete else .unknownFrame)
  if b.take 4 = magic then
    let (header, rest) ← FrameHeader.read (b.drop 4)
    return (.content header, rest)
  if isSkipMagic (b.take 4) then
    if b.length < 8 then throw .incomplete
    return (.skipped (wordOfBytes ((b.drop 4).take 4)), b.drop 8)
  throw (otherFault (b.take 4))

end FrameStart

end EditIdioms.Packed
