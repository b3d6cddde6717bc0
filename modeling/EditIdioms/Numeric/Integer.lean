/-!
# Integers in decimal

## Main definitions

* `decimalDigits` — the digits of a natural number.
* `integerDigits` — an integer with its sign.
-/

set_option autoImplicit false

namespace EditIdioms

/-- The decimal digits of a natural number. -/
def decimalDigits (n : Nat) : List Char := Nat.toDigits 10 n

/-- An integer in decimal, a negative one after a minus sign. -/
def integerDigits (n : Int) : List Char :=
  if n < 0 then '-' :: decimalDigits n.natAbs else decimalDigits n.natAbs

/-- A natural number in decimal. -/
def decimalText (n : Nat) : String := String.ofList (decimalDigits n)

/-- An integer in decimal. -/
def integerText (n : Int) : String := String.ofList (integerDigits n)

end EditIdioms
