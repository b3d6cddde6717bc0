import EditIdioms.Packed.Sequences

/-!
# Blocks

The content of a frame is cut into blocks, the last of which is marked. A block stores its bytes as
they are, or one byte that is repeated, or is packed: its bytes then tell how to make the content
from literals and from the content before it.

## Main definitions

* `Block`, `splitBlocks` — the blocks of a frame.
* `Memory` — what packed blocks know from earlier ones.
* `unpackBlock` — the content of a packed block.
-/

set_option autoImplicit false

namespace EditIdioms.Packed

/-- The most bytes a block may have. -/
def blockLimit : Nat := 128 * 1024

/-- The kinds of blocks. -/
inductive BlockKind where
  /-- The bytes of the content. -/
  | stored
  /-- One byte that is repeated. -/
  | repeated
  | packed
  /-- No such blocks are in use. -/
  | reserved
deriving DecidableEq

/-- A block with its body, of which the last bytes may be missing. -/
structure Block where
  kind : BlockKind
  isLast : Bool
  /-- How many bytes there are, in the body or of a byte that is repeated. -/
  size : Nat
  body : List UInt8

namespace Block

/-- How many bytes the body of a block has. -/
def bodySize (b : Block) : Nat := if b.kind = .repeated then 1 else b.size

/-- Whether no byte of the body is missing. -/
def isWhole (b : Block) : Bool := b.body.length = b.bodySize

/-- A block with the given header, whose body is at the front of bytes. -/
def ofHeader (header : Nat) (bytes : List UInt8) : Block :=
  let kind : BlockKind :=
    match header / 2 % 4 with
    | 0 => .stored
    | 1 => .repeated
    | 2 => .packed
    | _ => .reserved
  let block : Block := { kind, isLast := header % 2 = 1, size := header / 8, body := [] }
  { block with body := bytes.take block.bodySize }

end Block

/-- The blocks at the front of bytes, and what stands behind the last of them. There is nothing
behind a block with missing bytes or of a kind not in use. Every block takes bytes, so `bound` must
be as large as their number. -/
def splitBlocks : (bound : Nat) → List UInt8 → List Block × Option (List UInt8)
  | bound + 1, h₀ :: h₁ :: h₂ :: rest =>
    let block := Block.ofHeader (wordOfBytes [h₀, h₁, h₂]) rest
    if block.kind = .reserved ∨ !block.isWhole then ([block], none)
    else
      let rest := rest.drop block.bodySize
      if block.isLast then ([block], some rest)
      else
        let (blocks, rest?) := splitBlocks bound rest
        (block :: blocks, rest?)
  | _, _ => ([], none)

/-- What packed blocks know from earlier ones: a code for literals, machines for sequences, and the
last distances. -/
structure Memory where
  code? : Option PrefixCode := none
  machines? : Option Machines := none
  distances : Distances := {}

/-- The content of a frame with that of one more packed block, and what is known from there on. The
block makes at most `bounds.room` bytes; when `tight` it may be stopped earlier, shortly behind the
largest size of a block, because its literals wait there. -/
def unpackBlock (bounds : Bounds) (tight : Bool) (horizon : Nat) (m : Memory)
    (content : Array UInt8) (b : List UInt8) : Except StreamFault (Array UInt8 × Memory) := do
  let (literals, b) ← Literals.read bounds m.code? b
  let m := { m with code? := literals.code? }
  let (count, b) ← readSequenceCount b
  let waits := tight && !literals.inPlace &&
    bounds.blockLimit + literals.content.length + 64 < bounds.room
  let limit := content.size + if waits then bounds.blockLimit + 32 else bounds.room
  let start : Production := { literals := literals.content, content, distances := m.distances }
  let (m, p) ←
    if count = 0 then
      if b.isEmpty then pure (m, start) else throw .corrupted
    else do
      let (machines, b) ← Machines.read m.machines? b
      if bounds.room = 0 then throw .noRoom
      let p ← runSequences machines limit horizon count b start
      pure ({ m with machines? := some machines, distances := p.distances }, p)
  if limit < p.content.size + p.literals.length then throw .noRoom
  return (p.literals.foldl Array.push p.content, m)

end EditIdioms.Packed
