import EditIdioms.Numeric.Word
import EditIdioms.Packed.StateTable

/-!
# Prefix codes

Literals are spelt by words of bits none of which begins another one. A code is given by a weight
for each byte: the word of a byte is the shorter the heavier the byte is, by one bit for each step
of its weight, and a byte of weight zero has no word. The weight of the last byte is not stored,
because the words must fill the tree that they form.

The words of lighter bytes come first in the tree, and of bytes of equal weight those of smaller
ones.

## Main definitions

* `PrefixCode` — a code, as the tree of its words.
* `PrefixCode.read` — a code at the front of bytes.
* `PrefixCode.spell` — the literals spelt by bytes.
-/

set_option autoImplicit false

namespace EditIdioms.Packed

/-- A code, as the tree of its words. -/
inductive PrefixCode where
  | leaf (byte : UInt8)
  | node (zero one : PrefixCode)

/-- The most bits a word of a code may have. -/
def wordLimit : Nat := 12

/-- Takes the next symbol from two machines that take turns, the first of which is in state `a`; at
most `limit` times. A symbol is there when its state is entered, so the bits end where they do not
suffice for the state after it. -/
def readInTurn (t : StateTable) : (limit : Nat) → (a b : State) → BitReader (List Nat)
  | 0, _, _ => throw .corrupted
  | limit + 1, a, b => do
    if (← get).length < a.width then return [a.symbol, b.symbol]
    else
      let next ← t.next a
      return a.symbol :: (← readInTurn t limit b next)

/-- Whether the machine of a distribution fits into the space there is for the machine of
weights. -/
def Distribution.fitsWeights (d : Distribution) : Bool :=
  d.log ≤ 6 && d.size + (2 * d.counts.length + d.size + 11) / 4 ≤ 88

/-- The weights spelt by bytes, which hold a distribution and the bits of two machines. -/
def spelledWeights (bytes : List UInt8) : Except StreamFault (List Nat) := do
  let (d, rest) ← Distribution.read 256 bytes
  if d.fitsWeights then
    let t := StateTable.ofDistribution d
    let weights : BitReader (List Nat) := do readInTurn t 254 (← t.start) (← t.start)
    return (← weights.run (← backwardBits rest)).1
  else throw .corrupted

/-- The weights at the front of bytes, and the bytes behind them. A first byte below 128 is the
number of bytes that spell them, another one tells how many of them follow, each in half a byte. -/
def readWeights : List UInt8 → Except StreamFault (List Nat × List UInt8)
  | [] => throw .corrupted
  | head :: rest => do
    let spelled := head.toNat < 128
    let count := head.toNat - 127
    let size := if spelled then head.toNat else (count + 1) / 2
    if rest.length < size then throw .corrupted
    let body := rest.take size
    let weights ←
      if spelled then spelledWeights body
      else pure ((body.flatMap fun b => [b.toNat / 16, b.toNat % 16]).take count)
    return (weights, rest.drop size)

/-- How many of the deepest leaves there are below a word of the given weight. -/
def leavesOf (weight : Nat) : Nat := if weight = 0 then 0 else Nat.pow 2 (weight - 1)

/-- The weights with that of the last byte, and the number of bits of the longest word. -/
def completeWeights (weights : List Nat) : Except StreamFault (List Nat × Nat) := do
  if weights.any (wordLimit < ·) then throw .corrupted
  let total := weights.foldr (leavesOf · + ·) 0
  let depth := total.log2 + 1
  if total = 0 ∨ wordLimit < depth then throw .corrupted
  let missing := Nat.pow 2 depth - total
  let last := missing.log2 + 1
  if leavesOf last ≠ missing then throw .corrupted
  let all := weights ++ [last]
  if all.count 1 < 2 ∨ all.count 1 % 2 = 1 then throw .corrupted
  return (all, depth)

namespace PrefixCode

/-- The tree of the given depth over the first of the bytes, each with its weight, and the bytes
that are left. -/
def ofWeights : (depth : Nat) → List (UInt8 × Nat) → PrefixCode × List (UInt8 × Nat)
  | _, [] => (leaf 0, [])
  | 0, (byte, _) :: rest => (leaf byte, rest)
  | depth + 1, (byte, weight) :: rest =>
    if depth + 1 < weight then (leaf byte, rest)
    else
      let (zero, others) := ofWeights depth ((byte, weight) :: rest)
      let (one, others) := ofWeights depth others
      (node zero one, others)

/-- The bytes that have a word, with their weights, the lightest ones first. -/
def inOrder (weights : List Nat) : List (UInt8 × Nat) :=
  let bytes := weights.zipIdx.map fun (weight, byte) => (UInt8.ofNat byte, weight)
  (List.range wordLimit).flatMap fun below => bytes.filter (·.2 = below + 1)

/-- A code at the front of bytes, and the bytes behind it. -/
def read (bytes : List UInt8) : Except StreamFault (PrefixCode × List UInt8) := do
  let (weights, rest) ← readWeights bytes
  let (weights, depth) ← completeWeights weights
  return ((ofWeights depth (inOrder weights)).1, rest)

/-- Reads one word. -/
def readWord : PrefixCode → BitReader UInt8
  | leaf byte => return byte
  | node zero one => do if ← readBit then one.readWord else zero.readWord

/-- Reads `count` more words, behind those for the bytes read already. -/
def readWords (code : PrefixCode) : (count : Nat) → (before : Array UInt8) →
    BitReader (Array UInt8)
  | 0, before => return before
  | count + 1, before => do code.readWords count (before.push (← code.readWord))

/-- The literals spelt by bytes, which hold `count` words and nothing else. -/
def spellOne (code : PrefixCode) (count : Nat) (bytes : List UInt8) :
    Except StreamFault (List UInt8) := do
  let (literals, rest) ← (code.readWords count #[]).run (← backwardBits bytes)
  if rest.isEmpty then return literals.toList else throw .corrupted

/-- The number of bits of the longest word. -/
def depth : PrefixCode → Nat
  | leaf _ => 0
  | node zero one => max zero.depth one.depth + 1

/-- The literals spelt by bytes, which hold at least `count` words. -/
def spellAtLeast (code : PrefixCode) (count : Nat) (bytes : List UInt8) :
    Except StreamFault (List UInt8) :=
  return (← (code.readWords count #[]).run (looseBits bytes)).1.toList

/-- The literals spelt by bytes that hold four streams of words, behind the lengths of the first
three. The streams spell equally many literals, but for the last one. Where all four are long enough
they are read side by side, and it is not checked that they end with their last words: bits may be
left, and up to eight bytes before a stream are read as well. -/
def spellFour (code : PrefixCode) (count : Nat) (bytes : List UInt8) :
    Except StreamFault (List UInt8) := do
  if bytes.length < 10 then throw .corrupted
  let length (i : Nat) := wordOfBytes ((bytes.drop (2 * i)).take 2)
  let second := 6 + length 0
  let third := second + length 1
  let fourth := third + length 2
  if bytes.length < fourth then throw .corrupted
  let quarter := (count + 3) / 4
  let streams := [(quarter, 6, second), (quarter, second, third), (quarter, third, fourth),
    (count - 3 * quarter, fourth, bytes.length)]
  let sideBySide := code.depth ≤ 11 && 3 * quarter < count &&
    streams.all fun (_, start, stop) => 8 ≤ stop - start
  let parts ← streams.mapM fun (count, start, stop) =>
    if sideBySide then code.spellAtLeast count ((bytes.take stop).drop (start - 8))
    else code.spellOne count ((bytes.take stop).drop start)
  return parts.flatten

end PrefixCode

end EditIdioms.Packed
