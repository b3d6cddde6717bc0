/-!
# Binary interchange formats

A floating-point number is kept as its bits, so that two zeros, the payload of a NaN and the value
of a number are all there to be compared, stored and reasoned about. Arithmetic is exact: a bit
pattern is read as a significand times a power of two, the operation is carried out on natural
numbers, and the exact result is rounded once, to the nearest number of the format, a half to the
even neighbour.

## Main definitions

* `BinaryFormat` — how many bits the fraction and the exponent have; `BinaryFormat.single` and
  `BinaryFormat.double` are the two formats in use.
* `BinaryFormat.Reading`, `BinaryFormat.read` — what a bit pattern stands for.
* `BinaryFormat.round` — the bit pattern nearest to a ratio.
* `Floating`, `Single`, `Double` — bit patterns of a format, with comparison and arithmetic.
-/

set_option autoImplicit false

namespace EditIdioms

/-- A binary floating-point format: a sign bit, an exponent field and a fraction field. -/
structure BinaryFormat where
  fractionBits : Nat
  exponentBits : Nat

namespace BinaryFormat

/-- The format of 32 bits. -/
def single : BinaryFormat := ⟨23, 8⟩

/-- The format of 64 bits. -/
def double : BinaryFormat := ⟨52, 11⟩

variable (fmt : BinaryFormat)

/-- Bits in all. -/
abbrev width : Nat := 1 + fmt.exponentBits + fmt.fractionBits

/-- What is added to an exponent to store it. -/
def bias : Nat := Nat.pow 2 (fmt.exponentBits - 1) - 1

/-- The power of two that the last bit of the smallest numbers stands for. -/
def leastUnit : Int := 1 - (fmt.bias : Int) - (fmt.fractionBits : Int)

/-- The bits of positive infinity: all ones in the exponent, no fraction. -/
def infinityBits : Nat := (Nat.pow 2 fmt.exponentBits - 1) * Nat.pow 2 fmt.fractionBits

/-- The bits of the quiet NaN without sign or payload. -/
def nanBits : Nat := fmt.infinityBits + Nat.pow 2 (fmt.fractionBits - 1)

/-- The sign bit alone. -/
def signBit : Nat := Nat.pow 2 (fmt.exponentBits + fmt.fractionBits)

/-- What a bit pattern stands for; a finite one is `± significand * 2 ^ unit`. -/
inductive Reading where
  | nan
  | infinite (negative : Bool)
  | finite (negative : Bool) (significand : Nat) (unit : Int)

/-- Reads a bit pattern. An exponent field of zero has no hidden bit, one of all ones no number. -/
def read (bits : Nat) : Reading :=
  let negative := bits / fmt.signBit % 2 == 1
  let stored := bits / Nat.pow 2 fmt.fractionBits % Nat.pow 2 fmt.exponentBits
  let fraction := bits % Nat.pow 2 fmt.fractionBits
  if stored = Nat.pow 2 fmt.exponentBits - 1 then
    if fraction = 0 then .infinite negative else .nan
  else if stored = 0 then
    .finite negative fraction fmt.leastUnit
  else
    .finite negative (Nat.pow 2 fmt.fractionBits + fraction) (fmt.leastUnit + stored - 1)

/-- The ratio `num / den * 2 ^ e`, again as a ratio of natural numbers. -/
def scale (num den : Nat) (e : Int) : Nat × Nat :=
  if 0 ≤ e then (num * Nat.pow 2 e.toNat, den) else (num, den * Nat.pow 2 (-e).toNat)

/-- The natural number nearest to a ratio, a half going to the even neighbour. -/
def roundHalfEven (num den : Nat) : Nat :=
  let whole := num / den
  let rest := num % den
  if 2 * rest < den then whole
  else if den < 2 * rest then whole + 1
  else whole + whole % 2

/-- The bits of the number nearest to `± num / den`. The unit is the power of two that leaves a
significand of full length, or the least unit there is; a significand rounded up to the next power
of two carries into the exponent field by itself, and what is too large becomes infinity. -/
def round (negative : Bool) (num den : Nat) : Nat :=
  let sign := if negative then fmt.signBit else 0
  if num = 0 then sign else
    let guess : Int := (num.log2 : Int) - (den.log2 : Int)
    let (n, d) := scale num den (-guess)
    let magnitude := if n < d then guess - 1 else guess
    let unit := max (magnitude - fmt.fractionBits) fmt.leastUnit
    let (n, d) := scale num den (-unit)
    let field := (unit - fmt.leastUnit).toNat * Nat.pow 2 fmt.fractionBits + roundHalfEven n d
    sign + min field fmt.infinityBits

end BinaryFormat

/-- A number of a binary format, as its bits. -/
structure Floating (fmt : BinaryFormat) where
  bits : BitVec fmt.width
deriving DecidableEq

/-- Numbers of the 32-bit format. -/
abbrev Single := Floating .single

/-- Numbers of the 64-bit format. -/
abbrev Double := Floating .double

namespace Floating

variable {fmt : BinaryFormat}

/-- The bit pattern with the given number. -/
def ofBits (bits : Nat) : Floating fmt := ⟨BitVec.ofNat _ bits⟩

/-- What the number stands for. -/
def reading (x : Floating fmt) : BinaryFormat.Reading := fmt.read x.bits.toNat

/-- The quiet NaN without sign or payload. -/
def nan : Floating fmt := ofBits fmt.nanBits

/-- Positive or negative infinity. -/
def infinity (negative : Bool) : Floating fmt :=
  ofBits ((if negative then fmt.signBit else 0) + fmt.infinityBits)

/-- The number nearest to `± num / den * 2 ^ e`. -/
def ofRatio (negative : Bool) (num den : Nat) (e : Int) : Floating fmt :=
  let (n, d) := BinaryFormat.scale num den e
  ofBits (fmt.round negative n d)

/-- The number nearest to a natural number, or to its negative. -/
def ofNat (negative : Bool) (n : Nat) : Floating fmt := ofRatio negative n 1 0

/-- The number one. -/
def one : Floating fmt := ofNat false 1

/-- The number with the other sign. -/
def neg (x : Floating fmt) : Floating fmt := ofBits (x.bits.toNat ^^^ fmt.signBit)

/-- Whether the number is a NaN. -/
def isNaN (x : Floating fmt) : Bool :=
  match x.reading with
  | .nan => true
  | _ => false

/-- Whether the number is one of the two zeros. -/
def isZero (x : Floating fmt) : Bool := x.bits.toNat % fmt.signBit == 0

/-- Whether the number is one of the two infinities. -/
def isInfinite (x : Floating fmt) : Bool :=
  match x.reading with
  | .infinite _ => true
  | _ => false

/-- Numerical equality: a NaN equals nothing, and the two zeros equal each other. -/
def equal (x y : Floating fmt) : Bool :=
  !x.isNaN && !y.isNaN && (x == y || (x.isZero && y.isZero))

/-- The sum of the number and one. The exact sum is a signed whole number of units no larger than
one, so it is rounded once. -/
def plusOne (x : Floating fmt) : Floating fmt :=
  match x.reading with
  | .nan => x
  | .infinite _ => x
  | .finite negative significand unit =>
    let (m, o) := BinaryFormat.scale significand 1 unit
    let e := min unit 0
    if negative then
      if o < m then ofRatio true (m - o) 1 e else ofRatio false (o - m) 1 e
    else ofRatio false (m + o) 1 e

/-- The product of two finite numbers; a NaN unless both are finite. -/
def mulFinite (x y : Floating fmt) : Floating fmt :=
  match x.reading, y.reading with
  | .finite s m e, .finite t n f => ofRatio (s != t) (m * n) 1 (e + f)
  | _, _ => nan

/-- The quotient of two finite numbers; a NaN unless both are finite and the divisor is not zero. -/
def divFinite (x y : Floating fmt) : Floating fmt :=
  match x.reading, y.reading with
  | .finite s m e, .finite t n f => if n = 0 then nan else ofRatio (s != t) m n (e - f)
  | _, _ => nan

/-- The number of another format nearest to this one. -/
def convert {other : BinaryFormat} (x : Floating fmt) : Floating other :=
  match x.reading with
  | .nan => nan
  | .infinite s => infinity s
  | .finite s m e => ofRatio s m 1 e

end Floating

end EditIdioms
