import EditIdioms.Code.Search
import EditIdioms.Detector.Basic

/-!
# Idioms of changed, deleted and moved code

These detectors name the raw shape of an edit and record what was there before and after.

## Main definitions

* `operatorReplaced`, `operatorDeleted` — a binary operator gave way to another or went.
* `literalReplaced` — a literal gave way to something else.
* `argumentPropagated` — a call gave way to one of its operands.
-/

set_option autoImplicit false

namespace EditIdioms

/-- A binary operator updated to another one. -/
def operatorReplaced : Detector :=
  .onPair "binary-operator-replaced" .update fun before after =>
    match before.kind, after.kind with
    | .binary src, .binary dst =>
      .ok (if src = dst then none else some (.binaryOperatorReplaced src dst))
    | _, _ => .ok none

/-- A deleted binary operation. -/
def operatorDeleted : Detector :=
  .onDelete "binary-operator-deleted" fun node =>
    match node.kind with
    | .binary op => .ok (some (.binaryOperatorDeleted op))
    | _ => .ok none

/-- A literal updated to another literal or to something that is none. -/
def literalReplaced : Detector :=
  .onPair "literal-replaced" .update fun before after =>
    match before.kind, after.kind with
    | .literal src, .literal dst =>
      .ok (if dst.equal src then none else some (.literalReplaced src (some dst)))
    | .literal src, _ => .ok (some (.literalReplaced src none))
    | _, _ => .ok none

/-- A receiver or argument of a call moved to a place where it belongs to no call. -/
def argumentPropagated : Detector :=
  .onPair "argument-propagated" .move fun before after =>
    let operand := Pattern.childOf .invocation
    if operand.holds before && operand.not.holds after then do
      return (← before.indexInParent).map fun index => .argumentPropagated (.ofNat index)
    else .ok none

end EditIdioms
