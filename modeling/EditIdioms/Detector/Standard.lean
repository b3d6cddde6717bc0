import EditIdioms.Detector.Insertions
import EditIdioms.Detector.Replacements

/-!
# The standard chain

## Main definitions

* `Chain.standard` — the eight detectors, special idioms before raw shapes of edits. The guard for a
  parameter stands before the guard for a dereference, since one `if` may be both.
-/

set_option autoImplicit false

namespace EditIdioms

/-- The detectors in their usual order. -/
def Chain.standard : Chain :=
  [caseFallthrough, preconditionGuard, nullDereferenceGuard, negatedCondition, operatorReplaced,
    operatorDeleted, literalReplaced, argumentPropagated]

end EditIdioms
