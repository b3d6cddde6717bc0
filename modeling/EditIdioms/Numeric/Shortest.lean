import EditIdioms.Numeric.Binary
import EditIdioms.Numeric.Integer

/-!
# The fewest digits that read back

A finite binary number owns an interval of reals, those that round to it. Of the decimal numbers in
that interval the ones with the fewest digits are wanted, and of those the nearest. If a decimal
grid `10 ^ k` has a point in the interval, then one of the two neighbours of the number on that grid
is in it; so it is enough to try those two on one grid after the other, from coarse to fine.

## Main definitions

* `Tie` — which of two equally near neighbours is taken.
* `Decimal` — digits as a coefficient, and the power of ten of the last digit.
* `Floating.shortest` — the decimal chosen for a finite number other than zero.
-/

set_option autoImplicit false

namespace EditIdioms

/-- Which of two equally near decimal neighbours is taken. -/
inductive Tie where
  | up
  | toEven
deriving DecidableEq

/-- The number `coefficient * 10 ^ exponent`. -/
structure Decimal where
  coefficient : Nat
  exponent : Int

namespace Decimal

/-- The same number without trailing zeroes in the coefficient. -/
def normalize (coefficient : Nat) (exponent : Int) : Decimal :=
  if h : coefficient ≠ 0 ∧ coefficient % 10 = 0 then
    normalize (coefficient / 10) (exponent + 1)
  else
    ⟨coefficient, exponent⟩
termination_by coefficient
decreasing_by exact Nat.div_lt_self (Nat.pos_of_ne_zero h.1) (by decide)

/-- The digits of the coefficient. -/
def digits (d : Decimal) : List Char := decimalDigits d.coefficient

/-- The power of ten of the first digit. -/
def leadingExponent (d : Decimal) : Int := d.exponent + d.digits.length - 1

end Decimal

/-- The reals that round to a number, over a common denominator: from `low / den` to `high / den`
around `value / den`, with the ends when `closed`. -/
structure RoundingInterval where
  low : Nat
  value : Nat
  high : Nat
  den : Nat
  closed : Bool

namespace RoundingInterval

/-- The interval of `significand * 2 ^ unit`. The neighbour below a power of two is half as far away
as the one above it; the ends belong to the interval when the significand is even. -/
def ofSignificand (fmt : BinaryFormat) (significand : Nat) (unit : Int) : RoundingInterval :=
  let narrow := significand = Nat.pow 2 fmt.fractionBits ∧ fmt.leastUnit < unit
  let (scale, den) := BinaryFormat.scale 1 1 (unit - 2)
  { low := (4 * significand - if narrow then 1 else 2) * scale
    value := 4 * significand * scale
    high := (4 * significand + 2) * scale
    den := den
    closed := significand % 2 == 0 }

/-- Whether `n / d` lies in the interval. -/
def contains (i : RoundingInterval) (n d : Nat) : Bool :=
  if i.closed then i.low * d ≤ n * i.den && n * i.den ≤ i.high * d
  else i.low * d < n * i.den && n * i.den < i.high * d

/-- The multiple of `10 ^ k` that is nearest to the value among those of its two neighbours on that
grid that lie in the interval. -/
def onGrid? (i : RoundingInterval) (tie : Tie) (k : Int) : Option Nat :=
  let (up, down) := if 0 ≤ k then (Nat.pow 10 k.toNat, 1) else (1, Nat.pow 10 (-k).toNat)
  -- the value is `num / den` grid steps
  let num := i.value * down
  let den := i.den * up
  let below := num / den
  let above := below + 1
  match i.contains (below * up) down, i.contains (above * up) down with
  | true, true =>
    let rest := num % den
    if 2 * rest < den then some below
    else if den < 2 * rest then some above
    else match tie with
      | .up => some above
      | .toEven => some (if below % 2 = 0 then below else above)
  | true, false => some below
  | false, true => some above
  | false, false => none

/-- Tries `count` grids, from `10 ^ k` downwards. -/
def search (i : RoundingInterval) (tie : Tie) : (count : Nat) → (k : Int) → Decimal
  | 0, k => ⟨i.value * Nat.pow 10 (-k).toNat / i.den, k⟩
  | count + 1, k =>
    match i.onGrid? tie k with
    | some n => Decimal.normalize n k
    | none => i.search tie count (k - 1)

/-- The power of ten of the first digit of `n / d`. -/
def magnitude (n d : Nat) : Int :=
  let guess : Int := (decimalDigits n).length - (decimalDigits d).length
  let below :=
    if 0 ≤ guess then n < d * Nat.pow 10 guess.toNat else n * Nat.pow 10 (-guess).toNat < d
  if below then guess - 1 else guess

end RoundingInterval

/-- The shortest decimal that reads back as `significand * 2 ^ unit`, and of those the nearest. The
coarsest grid that can matter is that of the number's first digit; twenty grids further down any
number of the formats in use is alone in its interval. -/
def BinaryFormat.shortest (fmt : BinaryFormat) (tie : Tie) (significand : Nat) (unit : Int) :
    Decimal :=
  let i := RoundingInterval.ofSignificand fmt significand unit
  i.search tie 20 (RoundingInterval.magnitude i.value i.den)

end EditIdioms
