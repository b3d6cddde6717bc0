import EditIdioms.Rule

/-!
# Refining rules

A base rule that carries enough of what an edit changed can be narrowed to a specialized rule. Each
refiner is one row of tables on payloads; the first one that applies, in a fixed order, decides.

## Main definitions

* `Refiner` — a name and the rules it narrows.
* `Refiner.standard` — the eight refiners in order. Two of them apply to the four shifts of a
  boundary such as `<` to `<=`: the one for boundaries stands before the one for comparisons at
  large.
* `Rule.refine?` — the specialized rule of a base rule; a specialized rule is not narrowed again.
-/

set_option autoImplicit false

namespace EditIdioms

/-- One way to narrow base rules. -/
structure Refiner where
  name : String
  /-- The specialized rule, if this refiner applies. -/
  narrow? : Rule → Option Rule

namespace Refiner

/-- A refiner that gives one specialized rule whenever a condition on the base rule holds. -/
def when (name : String) (result : Rule) (applies : Rule → Bool) : Refiner :=
  ⟨name, fun base => if applies base then some result else none⟩

/-- An arithmetic operation was deleted. -/
def arithmeticOperatorDeleted : Refiner :=
  when "arithmetic-operator-deleted" .arithmeticOperatorDeleted fun
    | .binaryOperatorDeleted op => op.isArithmetic
    | _ => false

/-- An arithmetic operator gave way to another one. -/
def arithmeticOperatorReplaced : Refiner :=
  when "arithmetic-operator-replaced" .arithmeticOperatorReplaced fun
    | .binaryOperatorReplaced src dst => src.isArithmetic && dst.isArithmetic
    | _ => false

/-- Whether two comparisons differ in the boundary alone: `<` and `<=`, or `>` and `>=`. -/
def isBoundaryShift : BinaryOperator → BinaryOperator → Bool
  | .lessEqual, .lessThan | .lessThan, .lessEqual => true
  | .greaterEqual, .greaterThan | .greaterThan, .greaterEqual => true
  | _, _ => false

/-- A comparison gained or lost its boundary. -/
def conditionalBoundary : Refiner :=
  when "conditional-boundary" .conditionalBoundary fun
    | .binaryOperatorReplaced src dst => isBoundaryShift src dst
    | _ => false

/-- A condition was negated, or a comparison gave way to its negation. -/
def negatedConditional : Refiner :=
  when "negated-conditional" .negatedConditional fun
    | .conditionalNegated => true
    | .binaryOperatorReplaced src dst => src.negation? == some dst
    | _ => false

/-- A comparison gave way to one that is not its negation. -/
def relationalOperatorReplaced : Refiner :=
  when "relational-operator-replaced" .relationalOperatorReplaced fun
    | .binaryOperatorReplaced src dst =>
      src.isComparison && dst.isComparison && src.negation? != some dst
    | _ => false

/-- Whether a floating-point constant was replaced by its successor or reset to one. -/
def isFloatingStep {fmt : BinaryFormat} (src dst : Floating fmt) : Bool :=
  !src.equal dst && (dst.equal src.plusOne || dst.equal .one)

/-- Whether a constant was replaced by its successor or reset. Bytes and shorts go from their
largest to their smallest value, the wider integers do not, and integers are reset from one to
zero. -/
def isConstantStep : Literal → Literal → Bool
  | .byte src, .byte dst => dst == src + 1 || (src == 1 && dst == 0)
  | .short src, .short dst => dst == src + 1 || (src == 1 && dst == 0)
  | .int src, .int dst => dst.toInt == src.toInt + 1 || (src == 1 && dst == 0)
  | .long src, .long dst => dst.toInt == src.toInt + 1 || (src == 1 && dst == 0)
  | .float src, .float dst => isFloatingStep src dst
  | .double src, .double dst => isFloatingStep src dst
  | _, _ => false

/-- A constant was moved by one or reset. -/
def inlineConstant : Refiner :=
  when "inline-constant" .inlineConstant fun
    | .literalReplaced src (some dst) => isConstantStep src dst
    | _ => false

/-- A number gave way to something that is no literal. -/
def invertNegatives : Refiner :=
  when "invert-negatives" .invertNegatives fun
    | .literalReplaced src none => src.isNumeric
    | _ => false

/-- A call gave way to its receiver. -/
def nakedReceiver : Refiner :=
  when "naked-receiver" .nakedReceiver fun
    | .argumentPropagated index => index == 0
    | _ => false

/-- The refiners in the order in which they are tried. -/
def standard : List Refiner :=
  [arithmeticOperatorDeleted, arithmeticOperatorReplaced, conditionalBoundary, negatedConditional,
    relationalOperatorReplaced, inlineConstant, invertNegatives, nakedReceiver]

end Refiner

/-- The specialized rule of a base rule: the result of the first refiner that applies. -/
def Rule.refine? (base : Rule) : Option Rule :=
  match base.tier with
  | .specialized => none
  | .base => Refiner.standard.findSome? (·.narrow? base)

end EditIdioms
