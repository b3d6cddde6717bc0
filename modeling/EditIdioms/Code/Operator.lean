/-!
# Operators

The unary and binary operators an expression can apply, as the differencer reports them.

## Main definitions

* `BinaryOperator`, `UnaryOperator` — the operators; `name` is how documents spell them and
  `BinaryOperator.symbol` how source code does.
* `BinaryOperator.isArithmetic`, `BinaryOperator.isComparison` — two classes of operators.
* `BinaryOperator.negation?` — the comparison that holds exactly when the given one does not.

## Main results

* `BinaryOperator.negation?_involutive` — negating twice gives the operator back.
* `BinaryOperator.isSome_negation?` — exactly the comparisons can be negated.
-/

set_option autoImplicit false

namespace EditIdioms

/-- A binary operator. -/
inductive BinaryOperator where
  | add
  | subtract
  | multiply
  | divide
  | modulo
  | lessThan
  | lessEqual
  | greaterThan
  | greaterEqual
  | equal
  | notEqual
  | and
  | or
  | bitAnd
  | bitOr
  | bitXor
  | shiftLeft
  | shiftRight
  | unsignedShiftRight
  | instanceOf
deriving DecidableEq

/-- A unary operator. -/
inductive UnaryOperator where
  | not
  | negate
  | complement
  | preIncrement
  | preDecrement
  | postIncrement
  | postDecrement
deriving DecidableEq

namespace BinaryOperator

/-- Every binary operator, in the order that numbers them in record logs. -/
def all : List BinaryOperator :=
  [add, subtract, multiply, divide, modulo, lessThan, lessEqual, greaterThan, greaterEqual, equal,
    notEqual, and, or, bitAnd, bitOr, bitXor, shiftLeft, shiftRight, unsignedShiftRight, instanceOf]

/-- The operator's name in documents. -/
def name : BinaryOperator → String
  | add => "Add"
  | subtract => "Subtract"
  | multiply => "Multiply"
  | divide => "Divide"
  | modulo => "Modulo"
  | lessThan => "LessThan"
  | lessEqual => "LessEqual"
  | greaterThan => "GreaterThan"
  | greaterEqual => "GreaterEqual"
  | equal => "Equal"
  | notEqual => "NotEqual"
  | and => "And"
  | or => "Or"
  | bitAnd => "BitAnd"
  | bitOr => "BitOr"
  | bitXor => "BitXor"
  | shiftLeft => "ShiftLeft"
  | shiftRight => "ShiftRight"
  | unsignedShiftRight => "UnsignedShiftRight"
  | instanceOf => "InstanceOf"

/-- The operator as source code spells it. -/
def symbol : BinaryOperator → String
  | add => "+"
  | subtract => "-"
  | multiply => "*"
  | divide => "/"
  | modulo => "%"
  | lessThan => "<"
  | lessEqual => "<="
  | greaterThan => ">"
  | greaterEqual => ">="
  | equal => "=="
  | notEqual => "!="
  | and => "&&"
  | or => "||"
  | bitAnd => "&"
  | bitOr => "|"
  | bitXor => "^"
  | shiftLeft => "<<"
  | shiftRight => ">>"
  | unsignedShiftRight => ">>>"
  | instanceOf => "instanceof"

/-- Whether the operator is one of `+ - * / %`. -/
def isArithmetic : BinaryOperator → Bool
  | add | subtract | multiply | divide | modulo => true
  | _ => false

/-- Whether the operator is one of `< <= > >= == !=`. -/
def isComparison : BinaryOperator → Bool
  | lessThan | lessEqual | greaterThan | greaterEqual | equal | notEqual => true
  | _ => false

/-- The comparison that holds exactly when this one does not. -/
def negation? : BinaryOperator → Option BinaryOperator
  | lessThan => some greaterEqual
  | greaterEqual => some lessThan
  | lessEqual => some greaterThan
  | greaterThan => some lessEqual
  | equal => some notEqual
  | notEqual => some equal
  | _ => none

theorem negation?_involutive {op neg : BinaryOperator} (h : op.negation? = some neg) :
    neg.negation? = some op := by
  cases op <;> simp_all [negation?] <;> subst h <;> rfl

theorem isSome_negation? (op : BinaryOperator) : op.negation?.isSome = op.isComparison := by
  cases op <;> rfl

end BinaryOperator

namespace UnaryOperator

/-- Every unary operator. -/
def all : List UnaryOperator :=
  [not, negate, complement, preIncrement, preDecrement, postIncrement, postDecrement]

/-- The operator's name in documents and labels. -/
def name : UnaryOperator → String
  | not => "Not"
  | negate => "Negate"
  | complement => "Complement"
  | preIncrement => "PreIncrement"
  | preDecrement => "PreDecrement"
  | postIncrement => "PostIncrement"
  | postDecrement => "PostDecrement"

end UnaryOperator

end EditIdioms
