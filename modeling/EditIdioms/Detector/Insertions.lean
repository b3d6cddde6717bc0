import EditIdioms.Code.NullGuard
import EditIdioms.Detector.Basic

/-!
# Idioms of inserted code

An inserted `break`, an inserted guard, an inserted negation.

## Main definitions

* `caseFallthrough` — a `break` or `return` that ends an arm of a `switch`.
* `InsertedIf` — an inserted `if` taken apart.
* `preconditionGuard` — `if (parameter == null) return …;`.
* `nullDereferenceGuard` — a null test one branch of which returns, while the tested expression is
  dereferenced where execution goes on.
* `negatedCondition` — a `!` in front of a condition.
-/

set_option autoImplicit false

namespace EditIdioms

/-- A `break` or `return` directly in an arm of a `switch`, so that the arm no longer falls through
into the next. -/
def caseFallthrough : Detector :=
  .onInsert "case-fallthrough" fun node =>
    let exitInArm := Pattern.all (.any .breakStatement .returnStatement) (.childOf .caseArm)
    if exitInArm.holds node then
      match node.kind with
      | .breakStatement => .ok (some .missingBreakInCase)
      | _ => .ok (some .missingReturnInCase)
    else .ok none

/-- An inserted `if` with its condition and branches. -/
structure InsertedIf where
  node : Site
  condition : Site
  thenBranch : Site
  elseBranch? : Option Site

/-- Takes an `if` apart; nothing for any other node, or when the condition or the first branch is
missing. -/
def Site.insertedIf? (node : Site) : Option InsertedIf :=
  if Pattern.ifStatement.holds node then do
    return { node
             condition := ← node.child? 0
             thenBranch := ← node.child? 1
             elseBranch? := node.child? 2 }
  else none

namespace InsertedIf

/-- The parameter a guard protects: the variable compared by `==` with `null`, when it is a
parameter of the executable around the guard and the guard returns. -/
def guardedParameter? (guard : InsertedIf) : Option String := do
  let (tested, op) ← guard.condition.nullTest?
  if op = .equal ∧ guard.thenBranch.reachesReturn then
    match tested.kind with
    | .variableRead name =>
      let executable ← guard.node.enclosingExecutable?
      if name ∈ executable.kind.parameters then some name else none
    | _ => none
  else none

/-- Whether the second branch returns; a missing one does not. -/
def elseReturns (guard : InsertedIf) : Bool := guard.elseBranch?.any (·.reachesReturn)

/-- When exactly one branch returns: the other one, as far as there is one. -/
def openBranch? (guard : InsertedIf) : Option (Option Site) :=
  match guard.thenBranch.reachesReturn, guard.elseReturns with
  | true, false => some guard.elseBranch?
  | false, true => some (some guard.thenBranch)
  | _, _ => none

/-- The first dereference of the tested expression where execution goes on: in the siblings that
follow the guard, else in the branch that does not return. Nothing unless the condition is a null
test and exactly one branch returns. -/
def guardedDereference (guard : InsertedIf) : Except ArenaFault (Option Dereference) :=
  match guard.condition.nullTest?, guard.openBranch? with
  | some (tested, _), some branch? => do
    match ← guard.node.dereferenceAfter tested with
    | some found => return some found
    | none => return branch?.bind (·.dereference? tested)
  | _, _ => .ok none

end InsertedIf

/-- A guard that returns when a parameter is `null`. -/
def preconditionGuard : Detector :=
  .onInsert "precondition-guard" fun node =>
    .ok ((node.insertedIf?.bind (·.guardedParameter?)).map .preconditionGuardInserted)

/-- The rule for a guard in front of a dereference. -/
def Dereference.guardRule : Dereference → Rule
  | fieldRead field => .nullGuardBeforeFieldRead field
  | invocation signature => .nullGuardBeforeInvocation signature

/-- A null test that keeps execution away from a dereference of the tested expression. -/
def nullDereferenceGuard : Detector :=
  .onInsert "null-dereference-guard" fun node =>
    match node.insertedIf? with
    | none => .ok none
    | some guard => do return (← guard.guardedDereference).map (·.guardRule)

/-- A negation that has become the condition of an `if` or a `while`, that is, its first child. -/
def negatedCondition : Detector :=
  .onInsert "negated-condition" fun node =>
    if node.kind = .unary .not ∧ (Pattern.childOf (.any .ifStatement .whileLoop)).holds node then do
      return if (← node.indexInParent) = some 0 then some .conditionalNegated else none
    else .ok none

end EditIdioms
