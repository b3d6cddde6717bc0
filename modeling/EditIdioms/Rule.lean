import EditIdioms.Code.Literal
import EditIdioms.Code.Operator

/-!
# Rules

The taxonomy of recognised idioms. A base rule comes from an edit and carries what the edit changed;
a specialized rule is a bare tag, derived from one base rule.

## Main definitions

* `Rule` — the rules; `Rule.tag` names a rule without its payload.
* `RuleTag`, `RuleTag.all` — the eighteen rules, in the order that numbers them.
* `RuleTag.id`, `RuleTag.tier` — the stable identifier, on which statistics are kept, and the tier.
* `Rule.text` — a rule with its payload.
* `Record` — a rule found in a project.

## Main results

* `RuleTag.mem_all` — the list of tags is complete.
-/

set_option autoImplicit false

namespace EditIdioms

/-- The two tiers of the taxonomy. -/
inductive RuleTier where
  | base
  | specialized
deriving DecidableEq

/-- The name of a tier. -/
def RuleTier.text : RuleTier → String
  | base => "Base"
  | specialized => "Specialized"

/-- A rule without its payload. -/
inductive RuleTag where
  | missingBreakInCase
  | missingReturnInCase
  | preconditionGuardInserted
  | nullGuardBeforeFieldRead
  | nullGuardBeforeInvocation
  | conditionalNegated
  | binaryOperatorReplaced
  | binaryOperatorDeleted
  | literalReplaced
  | argumentPropagated
  | arithmeticOperatorDeleted
  | arithmeticOperatorReplaced
  | conditionalBoundary
  | relationalOperatorReplaced
  | negatedConditional
  | inlineConstant
  | invertNegatives
  | nakedReceiver
deriving DecidableEq

namespace RuleTag

/-- Every rule, base rules first. -/
def all : List RuleTag :=
  [missingBreakInCase, missingReturnInCase, preconditionGuardInserted, nullGuardBeforeFieldRead,
    nullGuardBeforeInvocation, conditionalNegated, binaryOperatorReplaced, binaryOperatorDeleted,
    literalReplaced, argumentPropagated, arithmeticOperatorDeleted, arithmeticOperatorReplaced,
    conditionalBoundary, relationalOperatorReplaced, negatedConditional, inlineConstant,
    invertNegatives, nakedReceiver]

theorem mem_all (tag : RuleTag) : tag ∈ all := by
  cases tag <;> decide

/-- The stable identifier of the rule. -/
def id : RuleTag → String
  | missingBreakInCase => "missing-break-in-case"
  | missingReturnInCase => "missing-return-in-case"
  | preconditionGuardInserted => "precondition-guard-inserted"
  | nullGuardBeforeFieldRead => "null-guard-before-field-read"
  | nullGuardBeforeInvocation => "null-guard-before-invocation"
  | conditionalNegated => "conditional-negated"
  | binaryOperatorReplaced => "binary-operator-replaced"
  | binaryOperatorDeleted => "binary-operator-deleted"
  | literalReplaced => "literal-replaced"
  | argumentPropagated => "argument-propagated"
  | arithmeticOperatorDeleted => "arithmetic-operator-deleted"
  | arithmeticOperatorReplaced => "arithmetic-operator-replaced"
  | conditionalBoundary => "conditional-boundary"
  | relationalOperatorReplaced => "relational-operator-replaced"
  | negatedConditional => "negated-conditional"
  | inlineConstant => "inline-constant"
  | invertNegatives => "invert-negatives"
  | nakedReceiver => "naked-receiver"

/-- The rule's name in documents. -/
def name : RuleTag → String
  | missingBreakInCase => "MissingBreakInCase"
  | missingReturnInCase => "MissingReturnInCase"
  | preconditionGuardInserted => "PreconditionGuardInserted"
  | nullGuardBeforeFieldRead => "NullGuardBeforeFieldRead"
  | nullGuardBeforeInvocation => "NullGuardBeforeInvocation"
  | conditionalNegated => "ConditionalNegated"
  | binaryOperatorReplaced => "BinaryOperatorReplaced"
  | binaryOperatorDeleted => "BinaryOperatorDeleted"
  | literalReplaced => "LiteralReplaced"
  | argumentPropagated => "ArgumentPropagated"
  | arithmeticOperatorDeleted => "ArithmeticOperatorDeleted"
  | arithmeticOperatorReplaced => "ArithmeticOperatorReplaced"
  | conditionalBoundary => "ConditionalBoundary"
  | relationalOperatorReplaced => "RelationalOperatorReplaced"
  | negatedConditional => "NegatedConditional"
  | inlineConstant => "InlineConstant"
  | invertNegatives => "InvertNegatives"
  | nakedReceiver => "NakedReceiver"

/-- The tier of the rule. -/
def tier : RuleTag → RuleTier
  | arithmeticOperatorDeleted | arithmeticOperatorReplaced | conditionalBoundary
  | relationalOperatorReplaced | negatedConditional | inlineConstant | invertNegatives
  | nakedReceiver => .specialized
  | _ => .base

end RuleTag

/-- A recognised idiom with what the edit changed. -/
inductive Rule where
  | missingBreakInCase
  | missingReturnInCase
  | preconditionGuardInserted (parameter : String)
  | nullGuardBeforeFieldRead (field : String)
  | nullGuardBeforeInvocation (signature : String)
  | conditionalNegated
  | binaryOperatorReplaced (src dst : BinaryOperator)
  | binaryOperatorDeleted (op : BinaryOperator)
  | literalReplaced (src : Literal) (dst : Option Literal)
  | argumentPropagated (index : UInt64)
  | arithmeticOperatorDeleted
  | arithmeticOperatorReplaced
  | conditionalBoundary
  | relationalOperatorReplaced
  | negatedConditional
  | inlineConstant
  | invertNegatives
  | nakedReceiver
deriving DecidableEq

namespace Rule

/-- The rule without its payload. -/
def tag : Rule → RuleTag
  | missingBreakInCase => .missingBreakInCase
  | missingReturnInCase => .missingReturnInCase
  | preconditionGuardInserted _ => .preconditionGuardInserted
  | nullGuardBeforeFieldRead _ => .nullGuardBeforeFieldRead
  | nullGuardBeforeInvocation _ => .nullGuardBeforeInvocation
  | conditionalNegated => .conditionalNegated
  | binaryOperatorReplaced _ _ => .binaryOperatorReplaced
  | binaryOperatorDeleted _ => .binaryOperatorDeleted
  | literalReplaced _ _ => .literalReplaced
  | argumentPropagated _ => .argumentPropagated
  | arithmeticOperatorDeleted => .arithmeticOperatorDeleted
  | arithmeticOperatorReplaced => .arithmeticOperatorReplaced
  | conditionalBoundary => .conditionalBoundary
  | relationalOperatorReplaced => .relationalOperatorReplaced
  | negatedConditional => .negatedConditional
  | inlineConstant => .inlineConstant
  | invertNegatives => .invertNegatives
  | nakedReceiver => .nakedReceiver

/-- The stable identifier, which does not depend on the payload. -/
def id (r : Rule) : String := r.tag.id

/-- The tier of the rule. -/
def tier (r : Rule) : RuleTier := r.tag.tier

/-- The payload as it is shown, for the rules that have one. -/
def payload? : Rule → Option String
  | preconditionGuardInserted parameter => some parameter
  | nullGuardBeforeFieldRead field => some field
  | nullGuardBeforeInvocation signature => some signature
  | binaryOperatorReplaced src dst => some (src.symbol ++ " -> " ++ dst.symbol)
  | binaryOperatorDeleted op => some op.symbol
  | literalReplaced src (some dst) => some (src.text ++ " -> " ++ dst.text)
  | literalReplaced src none => some (src.text ++ " -> _")
  | argumentPropagated index => some (decimalText index.toNat)
  | _ => none

/-- The rule with its payload. -/
def text (r : Rule) : String :=
  match r.payload? with
  | some payload => r.id ++ "(" ++ payload ++ ")"
  | none => r.id

end Rule

/-- A rule found in a project. -/
structure Record where
  rule : Rule
  project : String
deriving DecidableEq

end EditIdioms
