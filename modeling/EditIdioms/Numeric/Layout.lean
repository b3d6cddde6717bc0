import EditIdioms.Numeric.Shortest

/-!
# How a floating-point number is written

The digits of a number are fixed by `BinaryFormat.shortest`; what is left to a format is where the
point goes, from which size on an exponent is written, and what stands for the values that are no
numbers. These decisions are collected in one record, `NumberLayout`.

## Main definitions

* `NumberLayout` — the decisions.
* `Floating.write` — the text of a number under a layout.
-/

set_option autoImplicit false

namespace EditIdioms

/-- The decisions a number format takes once the digits are known. -/
structure NumberLayout where
  /-- Which of two equally near digit strings is taken. -/
  tie : Tie
  /-- For which powers of ten of the first digit the number is written without an exponent. -/
  isPlain : Int → Bool
  /-- What follows a whole number written without an exponent. -/
  wholeMark : String
  /-- The text of a NaN. -/
  nanText : String
  /-- The text of positive infinity. -/
  infinityText : String
  /-- The text of negative infinity. -/
  minusInfinityText : String

namespace NumberLayout

/-- Digits with a point and no exponent; `e` is the power of ten of the first digit. -/
def plain (layout : NumberLayout) (digits : List Char) (e : Int) : List Char :=
  if e < 0 then
    '0' :: '.' :: (List.replicate (-e - 1).toNat '0' ++ digits)
  else if digits.length ≤ e.toNat + 1 then
    digits ++ List.replicate (e.toNat + 1 - digits.length) '0' ++ layout.wholeMark.toList
  else
    digits.take (e.toNat + 1) ++ '.' :: digits.drop (e.toNat + 1)

/-- Digits with an exponent, whose sign is always written. -/
def scientific (digits : List Char) (e : Int) : List Char :=
  let mantissa := match digits with
    | [] => []
    | [d] => [d]
    | d :: ds => d :: '.' :: ds
  mantissa ++ 'e' :: (if e < 0 then '-' else '+') :: decimalDigits e.natAbs

/-- The text of a finite number. -/
def finite (layout : NumberLayout) (fmt : BinaryFormat) (negative : Bool) (significand : Nat)
    (unit : Int) : List Char :=
  let sign := if negative then ['-'] else []
  if significand = 0 then
    sign ++ '0' :: layout.wholeMark.toList
  else
    let d := fmt.shortest layout.tie significand unit
    let e := d.leadingExponent
    sign ++ if layout.isPlain e then layout.plain d.digits e else scientific d.digits e

end NumberLayout

/-- The text of a number under a layout. -/
def Floating.write {fmt : BinaryFormat} (layout : NumberLayout) (x : Floating fmt) : String :=
  match x.reading with
  | .nan => layout.nanText
  | .infinite negative => if negative then layout.minusInfinityText else layout.infinityText
  | .finite negative significand unit =>
    String.ofList (layout.finite fmt negative significand unit)

end EditIdioms
