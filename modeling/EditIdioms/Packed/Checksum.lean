import EditIdioms.Numeric.Word

/-!
# Checksums

A checksum of 64 bits. The content is taken in stripes of four words, each of which goes into a lane
of its own; the lanes are then mixed with what is left of the content.

## Main definitions

* `checksum` — the checksum of a content.
-/

set_option autoImplicit false

namespace EditIdioms.Packed

/-- The first of the five constants of the checksum. -/
def prime₁ : UInt64 := 0x9E3779B185EBCA87

/-- The second constant. -/
def prime₂ : UInt64 := 0xC2B2AE3D27D4EB4F

/-- The third constant. -/
def prime₃ : UInt64 := 0x165667B19E3779F9

/-- The fourth constant. -/
def prime₄ : UInt64 := 0x85EBCA77C2B2AE63

/-- The fifth constant. -/
def prime₅ : UInt64 := 0x27D4EB2F165667C5

/-- The word turned left by `count` bits, fewer than 64 and more than none. -/
def turnLeft (word count : UInt64) : UInt64 := word <<< count ||| word >>> (64 - count)

/-- The word of the given bytes. -/
def wordOf (bytes : List UInt8) : UInt64 := .ofNat (wordOfBytes bytes)

/-- A lane after one more word. -/
def stir (lane word : UInt64) : UInt64 := turnLeft (lane + word * prime₂) 31 * prime₁

/-- The four lanes. -/
structure Lanes where
  a : UInt64 := prime₁ + prime₂
  b : UInt64 := prime₂
  c : UInt64 := 0
  d : UInt64 := 0 - prime₁

/-- The lanes after one more stripe, which is at the front of the bytes. -/
def Lanes.add (l : Lanes) (bytes : List UInt8) : Lanes where
  a := stir l.a (wordOf (bytes.take 8))
  b := stir l.b (wordOf ((bytes.drop 8).take 8))
  c := stir l.c (wordOf ((bytes.drop 16).take 8))
  d := stir l.d (wordOf ((bytes.drop 24).take 8))

/-- The lanes after `count` more stripes. -/
def Lanes.addAll : (count : Nat) → Lanes → List UInt8 → Lanes
  | 0, l, _ => l
  | count + 1, l, bytes => addAll count (l.add bytes) (bytes.drop 32)

/-- The lanes in one word. -/
def Lanes.mix (l : Lanes) : UInt64 :=
  let start := turnLeft l.a 1 + turnLeft l.b 7 + turnLeft l.c 12 + turnLeft l.d 18
  [l.a, l.b, l.c, l.d].foldl (fun h lane => (h ^^^ stir 0 lane) * prime₁ + prime₄) start

/-- Mixes in `count` words of eight bytes. -/
def mixWords : (count : Nat) → UInt64 → List UInt8 → UInt64
  | 0, h, _ => h
  | count + 1, h, bytes =>
    let h := turnLeft (h ^^^ stir 0 (wordOf (bytes.take 8))) 27 * prime₁ + prime₄
    mixWords count h (bytes.drop 8)

/-- Mixes in a word of four bytes. -/
def mixHalf (h : UInt64) (bytes : List UInt8) : UInt64 :=
  turnLeft (h ^^^ wordOf bytes * prime₁) 23 * prime₂ + prime₃

/-- Mixes in a byte. -/
def mixByte (h : UInt64) (b : UInt8) : UInt64 := turnLeft (h ^^^ b.toUInt64 * prime₅) 11 * prime₁

/-- Spreads every bit over the whole word. -/
def spread (h : UInt64) : UInt64 :=
  let h := (h ^^^ h >>> 33) * prime₂
  let h := (h ^^^ h >>> 29) * prime₃
  h ^^^ h >>> 32

/-- The checksum of a content. -/
def checksum (content : List UInt8) : UInt64 :=
  let stripes := content.length / 32
  let start := if stripes = 0 then prime₅ else (Lanes.addAll stripes {} content).mix
  let rest := content.drop (32 * stripes)
  let words := rest.length / 8
  let h := mixWords words (start + .ofNat content.length) rest
  let rest := rest.drop (8 * words)
  let h := if 4 ≤ rest.length then mixHalf h (rest.take 4) else h
  let rest := if 4 ≤ rest.length then rest.drop 4 else rest
  spread (rest.foldl mixByte h)

end EditIdioms.Packed
