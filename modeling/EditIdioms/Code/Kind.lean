import EditIdioms.Code.Operator
import EditIdioms.Code.Literal
import EditIdioms.Text.Quoted

/-!
# Kinds of syntax nodes

What a node of a syntax tree is, with the attributes that belong to its kind. The rest of the
structure is in the order of the children: an `if` has a condition, a branch and perhaps another; a
binary operator has its operands; a field access or a call has its receiver first.

## Main definitions

* `NodeKind` — the kinds.
* `NodeKind.isExecutable`, `NodeKind.parameters`, `NodeKind.isExit`, `NodeKind.isNullLiteral` — what
  the detectors ask of a kind.
* `NodeKind.equal` — equality of kinds, with literals compared as source code compares them.
* `NodeKind.label` — a short text for people.
-/

set_option autoImplicit false

namespace EditIdioms

/-- What a node of a syntax tree is. -/
inductive NodeKind where
  | compilationUnit
  | classDeclaration (name : String)
  | method (name : String) (parameters : List String)
  | initializer (parameters : List String)
  | lambda (parameters : List String)
  | localVariable (name : String)
  | block
  | ifStatement
  | switchStatement
  | caseArm
  | whileLoop
  | forLoop
  | returnStatement
  | breakStatement
  | continueStatement
  | throwStatement
  | assignment
  | binary (op : BinaryOperator)
  | unary (op : UnaryOperator)
  | literal (value : Literal)
  | variableRead (name : String)
  | fieldRead (field : String)
  | fieldWrite (field : String)
  | invocation (signature : String)
  | thisAccess
  | typeAccess (name : String)
  | other (label : String)
deriving DecidableEq

namespace NodeKind

/-- Whether the node has a body of its own that runs when it is called. -/
def isExecutable : NodeKind → Bool
  | method _ _ | initializer _ | lambda _ => true
  | _ => false

/-- The parameter names of an executable; nothing else has any. -/
def parameters : NodeKind → List String
  | method _ ps | initializer ps | lambda ps => ps
  | _ => []

/-- Whether the node is the literal `null`. -/
def isNullLiteral : NodeKind → Bool
  | literal value => value.isNull
  | _ => false

/-- Whether the node is a statement that leaves the executable around it. -/
def isExit : NodeKind → Bool
  | returnStatement | throwStatement => true
  | _ => false

/-- Whether the node declares a class. -/
def isClass : NodeKind → Bool
  | classDeclaration _ => true
  | _ => false

/-- Equality of kinds and their attributes, literals compared as source code compares them. -/
def equal : NodeKind → NodeKind → Bool
  | literal a, literal b => a.equal b
  | a, b => a == b

/-- A short text that names the kind and its attributes. -/
def label : NodeKind → String
  | compilationUnit => "CompilationUnit"
  | classDeclaration name => "class " ++ name
  | method name _ => "method " ++ name
  | initializer ps => "Constructor \x7b parameters: " ++ Text.quoteList ps ++ " \x7d"
  | lambda ps => "Lambda \x7b parameters: " ++ Text.quoteList ps ++ " \x7d"
  | localVariable name => "local " ++ name
  | block => "Block"
  | ifStatement => "If"
  | switchStatement => "Switch"
  | caseArm => "Case"
  | whileLoop => "While"
  | forLoop => "For"
  | returnStatement => "Return"
  | breakStatement => "Break"
  | continueStatement => "Continue"
  | throwStatement => "Throw"
  | assignment => "Assignment"
  | binary op => "binop " ++ op.symbol
  | unary op => "unop " ++ op.name
  | literal value => "literal " ++ value.text
  | variableRead name => "read " ++ name
  | fieldRead field => "field-read " ++ field
  | fieldWrite field => "field-write " ++ field
  | invocation signature => "call " ++ signature
  | thisAccess => "ThisAccess"
  | typeAccess name => "type " ++ name
  | other label => label

end NodeKind

end EditIdioms
