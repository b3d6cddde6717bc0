import EditIdioms.RecordLog.Bytes
import EditIdioms.Rule

/-!
# Records as bytes

A record is stored as its rule and its project. Alternatives are numbered in the order of their
lists, by a word of four bytes; integers and floating-point numbers are stored as their bits. There
is nothing between the parts, and nothing between one record and the next.

## Main definitions

* `literalBytes`, `readLiteral` — literals.
* `ruleBytes`, `readRule` — rules.
* `recordBytes`, `readRecord` — records.
-/

set_option autoImplicit false

namespace EditIdioms.RecordLog

/-- The word that numbers an alternative. -/
def alternativeBytes (n : Nat) : List UInt8 := wordBytes 4 n

/-- A binary operator. -/
def operatorBytes (op : BinaryOperator) : List UInt8 :=
  alternativeBytes (BinaryOperator.all.idxOf op)

/-- Reads a binary operator. -/
def readOperator : ByteReader BinaryOperator := readAlternative BinaryOperator.all

/-- The types of literals, in the order that numbers them. -/
inductive LiteralType where
  | byte
  | short
  | int
  | long
  | float
  | double
  | char
  | boolean
  | string
  | null
deriving DecidableEq

/-- Every type of literal. -/
def LiteralType.all : List LiteralType :=
  [byte, short, int, long, float, double, char, boolean, string, null]

/-- The type of a literal. -/
def literalType : Literal → LiteralType
  | .byte _ => .byte
  | .short _ => .short
  | .int _ => .int
  | .long _ => .long
  | .float _ => .float
  | .double _ => .double
  | .char _ => .char
  | .boolean _ => .boolean
  | .string _ => .string
  | .null => .null

/-- The value of a literal, without its type. -/
def literalValueBytes : Literal → List UInt8
  | .byte n => wordBytes 1 n.toBitVec.toNat
  | .short n => wordBytes 2 n.toBitVec.toNat
  | .int n => wordBytes 4 n.toBitVec.toNat
  | .long n => wordBytes 8 n.toBitVec.toNat
  | .float x => wordBytes 4 x.bits.toNat
  | .double x => wordBytes 8 x.bits.toNat
  | .char c => charBytes c
  | .boolean b => flagBytes b
  | .string s => textBytes s
  | .null => []

/-- A literal. -/
def literalBytes (l : Literal) : List UInt8 :=
  alternativeBytes (LiteralType.all.idxOf (literalType l)) ++ literalValueBytes l

/-- Reads the value of a literal of known type. -/
def readLiteralValue : LiteralType → ByteReader Literal
  | .byte => return .byte (.ofBitVec (.ofNat 8 (← readWord 1)))
  | .short => return .short (.ofBitVec (.ofNat 16 (← readWord 2)))
  | .int => return .int (.ofBitVec (.ofNat 32 (← readWord 4)))
  | .long => return .long (.ofBitVec (.ofNat 64 (← readWord 8)))
  | .float => return .float (.ofBits (← readWord 4))
  | .double => return .double (.ofBits (← readWord 8))
  | .char => return .char (← readChar)
  | .boolean => return .boolean (← readFlag)
  | .string => return .string (← readText)
  | .null => return .null

/-- Reads a literal. -/
def readLiteral : ByteReader Literal := do readLiteralValue (← readAlternative LiteralType.all)

/-- The payload of a rule. -/
def payloadBytes : Rule → List UInt8
  | .preconditionGuardInserted parameter => textBytes parameter
  | .nullGuardBeforeFieldRead field => textBytes field
  | .nullGuardBeforeInvocation signature => textBytes signature
  | .binaryOperatorReplaced src dst => operatorBytes src ++ operatorBytes dst
  | .binaryOperatorDeleted op => operatorBytes op
  | .literalReplaced src dst => literalBytes src ++ optionBytes literalBytes dst
  | .argumentPropagated index => wordBytes 8 index.toNat
  | _ => []

/-- A rule. -/
def ruleBytes (r : Rule) : List UInt8 :=
  alternativeBytes (RuleTag.all.idxOf r.tag) ++ payloadBytes r

/-- Reads the payload of a rule of known tag. -/
def readPayload : RuleTag → ByteReader Rule
  | .missingBreakInCase => return .missingBreakInCase
  | .missingReturnInCase => return .missingReturnInCase
  | .preconditionGuardInserted => return .preconditionGuardInserted (← readText)
  | .nullGuardBeforeFieldRead => return .nullGuardBeforeFieldRead (← readText)
  | .nullGuardBeforeInvocation => return .nullGuardBeforeInvocation (← readText)
  | .conditionalNegated => return .conditionalNegated
  | .binaryOperatorReplaced => return .binaryOperatorReplaced (← readOperator) (← readOperator)
  | .binaryOperatorDeleted => return .binaryOperatorDeleted (← readOperator)
  | .literalReplaced => return .literalReplaced (← readLiteral) (← readOption readLiteral)
  | .argumentPropagated => return .argumentPropagated (.ofNat (← readWord 8))
  | .arithmeticOperatorDeleted => return .arithmeticOperatorDeleted
  | .arithmeticOperatorReplaced => return .arithmeticOperatorReplaced
  | .conditionalBoundary => return .conditionalBoundary
  | .relationalOperatorReplaced => return .relationalOperatorReplaced
  | .negatedConditional => return .negatedConditional
  | .inlineConstant => return .inlineConstant
  | .invertNegatives => return .invertNegatives
  | .nakedReceiver => return .nakedReceiver

/-- Reads a rule. -/
def readRule : ByteReader Rule := do readPayload (← readAlternative RuleTag.all)

/-- A record. -/
def recordBytes (r : Record) : List UInt8 := ruleBytes r.rule ++ textBytes r.project

/-- Reads a record. -/
def readRecord : ByteReader Record := return ⟨← readRule, ← readText⟩

end EditIdioms.RecordLog
