import EditIdioms.Numeric.Layout

/-!
# Literals

Typed constants of source code. Integers keep their width and floating-point numbers their bits.

## Main definitions

* `Literal` — a typed constant.
* `Literal.equal` — equality as source code understands it: floating-point numbers are compared by
  value, so that a NaN differs from itself and the two zeros agree.
* `Literal.text` — a literal as labels and rules show it.

## Main results

* `Literal.equal_iff_eq` — away from floating-point numbers, `Literal.equal` is equality.
-/

set_option autoImplicit false

namespace EditIdioms

/-- A typed constant. -/
inductive Literal where
  | byte (value : Int8)
  | short (value : Int16)
  | int (value : Int32)
  | long (value : Int64)
  | float (value : Single)
  | double (value : Double)
  | char (value : Char)
  | boolean (value : Bool)
  | string (value : String)
  | null
deriving DecidableEq

namespace Literal

/-- Labels show all digits and no exponent, and take the upper of two equally near decimals. -/
def labelLayout : NumberLayout where
  tie := .up
  isPlain := fun _ => true
  wholeMark := ""
  nanText := "NaN"
  infinityText := "inf"
  minusInfinityText := "-inf"

/-- Whether the literal is a number. -/
def isNumeric : Literal → Bool
  | byte _ | short _ | int _ | long _ | float _ | double _ => true
  | _ => false

/-- Whether the literal is the null reference. -/
def isNull : Literal → Bool
  | null => true
  | _ => false

/-- Equality as source code understands it. -/
def equal : Literal → Literal → Bool
  | float x, float y => x.equal y
  | double x, double y => x.equal y
  | a, b => a == b

/-- Whether the literal is a floating-point number. -/
def isFloating : Literal → Bool
  | float _ | double _ => true
  | _ => false

theorem equal_iff_eq {a b : Literal} (h : a.isFloating = false) : a.equal b = true ↔ a = b := by
  cases a <;> cases b <;> simp_all [equal, isFloating]

/-- The literal as labels and rules show it: the type is marked, and text is not escaped. -/
def text : Literal → String
  | byte n => "(byte)" ++ integerText n.toInt
  | short n => "(short)" ++ integerText n.toInt
  | int n => integerText n.toInt
  | long n => integerText n.toInt ++ "L"
  | float x => x.write labelLayout ++ "f"
  | double x => x.write labelLayout ++ "d"
  | char c => "'" ++ String.singleton c ++ "'"
  | boolean b => if b then "true" else "false"
  | string s => "\"" ++ s ++ "\""
  | null => "null"

end Literal

end EditIdioms
