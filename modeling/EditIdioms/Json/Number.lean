import EditIdioms.Json.Reader
import EditIdioms.Numeric.Binary

/-!
# Numbers in JSON text

A number without point and exponent is an integer as long as it fits 64 bits; every other number is
real. Digits are gathered in a significand of 64 bits, those that no longer fit only move the
decimal point or are dropped, and the significand is then multiplied or divided by a power of ten.

## Main definitions

* `Number` — an integer or a real number.
* `number` — reads a number.
* `scaled?` — significand and power of ten as a real number.
-/

set_option autoImplicit false

namespace EditIdioms.Json

/-- A number as it was written. -/
inductive Number where
  | integer (value : Int)
  | real (value : Double)
deriving DecidableEq

/-- Whether a character is a decimal digit. -/
def isDigit (c : Char) : Bool := '0' ≤ c && c ≤ '9'

/-- The value of a decimal digit. -/
def digitValue (c : Char) : Nat := c.toNat - '0'.toNat

/-- The largest significand. -/
def significandLimit : Nat := UInt64.size - 1

/-- The largest significand of a negative integer. -/
def negativeLimit : Nat := Int64.minValue.toInt.natAbs

/-- Takes digits into a significand as long as it stays within the limit; gives the significand, how
many digits it took, and what is left. -/
def gather (significand : Nat) : List Char → Nat × Nat × List Char
  | [] => (significand, 0, [])
  | c :: rest =>
    let next := significand * 10 + digitValue c
    if isDigit c && next ≤ significandLimit then
      let (n, count, rest) := gather next rest
      (n, count + 1, rest)
    else (significand, 0, c :: rest)

/-- The power of ten nearest to `10 ^ n`. -/
def powerOfTen (n : Nat) : Double := .ofNat false (Nat.pow 10 n)

/-- The largest power of ten that is a number. -/
def largestPower : Nat := 308

/-- Divides by the largest power of ten `count` times, or until nothing is left. -/
def divideByLargest : (count : Nat) → Double → Double
  | 0, x => x
  | count + 1, x =>
    if x.isZero then x else divideByLargest count (x.divFinite (powerOfTen largestPower))

/-- The number `± significand * 10 ^ exponent`, unless it is too large. -/
def scaled? (negative : Bool) (significand : Nat) (exponent : Int) : Option Double :=
  let x : Double := .ofNat false significand
  let n := exponent.natAbs
  let result? :=
    if n ≤ largestPower then
      if 0 ≤ exponent then
        let y := x.mulFinite (powerOfTen n)
        if y.isInfinite then none else some y
      else some (x.divFinite (powerOfTen n))
    else if x.isZero then some x
    else if 0 ≤ exponent then none
    else
      let rounds := (n - 1) / largestPower
      some ((divideByLargest rounds x).divFinite (powerOfTen (n - rounds * largestPower)))
  result?.map fun y => if negative then y.neg else y

/-- The real number with the given parts. -/
def finishReal (negative : Bool) (significand : Nat) (exponent : Int) : Reader Number :=
  match scaled? negative significand exponent with
  | some x => return .real x
  | none => throw .malformed

/-- Takes digits and gives their value, starting from `value`. -/
def digitsFrom (value : Nat) : List Char → Nat × List Char
  | [] => (value, [])
  | c :: rest =>
    if isDigit c then digitsFrom (value * 10 + digitValue c) rest else (value, c :: rest)

/-- Takes one digit at least, and gives the value of all that follow. -/
def someDigits : Reader Nat := do
  match (← get).head? with
  | none => throw .truncated
  | some c => if isDigit c then modifyGet (digitsFrom 0) else throw .malformed

/-- Reads the exponent, whose letter has been taken. -/
def exponentPart : Reader Int := do
  match (← get).head? with
  | some '+' => advance; return ((← someDigits) : Nat)
  | some '-' => advance; return -((← someDigits) : Nat)
  | _ => return ((← someDigits) : Nat)

/-- Whether the next character starts an exponent. -/
def atExponent : Reader Bool := do
  match (← get).head? with
  | some c => return c == 'e' || c == 'E'
  | none => return false

/-- Reads an exponent if one comes, and finishes the number. -/
def realFrom (negative : Bool) (significand : Nat) (exponent : Int) : Reader Number := do
  if ← atExponent then
    advance
    let shift ← exponentPart
    finishReal negative significand (exponent + shift)
  else finishReal negative significand exponent

/-- Reads the digits after the point and what follows them. -/
def fractionFrom (negative : Bool) (significand : Nat) (exponent : Int) : Reader Number := do
  let (n, count, rest) := gather significand (← get)
  match rest with
  | c :: _ =>
    if isDigit c then set (rest.dropWhile isDigit)
    else if count = 0 then throw .malformed
    else set rest
  | [] => if count = 0 then throw .truncated else set rest
  realFrom negative n (exponent - count)

/-- The number without point or exponent: minus zero and what is below the integers is real. -/
def wholeNumber (negative : Bool) (significand : Nat) : Number :=
  if !negative then .integer significand
  else if significand = 0 ∨ negativeLimit < significand then .real (.ofNat true significand)
  else .integer (-(significand : Int))

/-- Reads what follows the digits before the point; `dropped` of them did not fit. -/
def numberFrom (negative : Bool) (significand dropped : Nat) : Reader Number := do
  match (← get).head? with
  | some '.' =>
    advance
    fractionFrom negative significand dropped
  | _ =>
    if (← atExponent) || dropped != 0 then realFrom negative significand dropped
    else return wholeNumber negative significand

/-- Reads a number whose sign has been taken. A leading zero stands alone. -/
def unsignedNumber (negative : Bool) : Reader Number := do
  match ← get with
  | [] => throw .truncated
  | '0' :: rest =>
    if rest.head?.any isDigit then throw .malformed
    set rest
    numberFrom negative 0 0
  | c :: rest =>
    if !isDigit c then throw .malformed
    let (n, _, rest) := gather 0 (c :: rest)
    set (rest.dropWhile isDigit)
    numberFrom negative n (rest.takeWhile isDigit).length

/-- Reads a number that starts with a digit or a minus sign. -/
def number : Reader Number := do
  if (← get).head? = some '-' then
    advance
    unsignedNumber true
  else unsignedNumber false

end EditIdioms.Json
