import EditIdioms.Diff.FileDiff
import EditIdioms.Json.Shape
import EditIdioms.Rule
import EditIdioms.Settings

/-!
# Reading documents

The JSON form of everything that is exchanged: trees and edit scripts from the differencer, rules
and records, settings. An alternative is named in capitals and has its attributes behind it.

## Main definitions

* `readLiteral`, `readKind`, `readNode`, `readTree` — syntax trees.
* `readEdit`, `readFileDiff` — compared files.
* `readRule`, `readRecord` — results.
* `readCompression`, `readSettings` — settings.
* `decode` — reads a whole text.
-/

set_option autoImplicit false

namespace EditIdioms.Document

open Json

/-- A record of one field. -/
def oneField {α β : Type} (name : String) (read : Reader α) (make : α → β) : Reader β := do
  let (value, ()) ← record (.required name read .done)
  return make value

/-- A record of two fields. -/
def twoFields {α β γ : Type} (first : String) (readFirst : Reader α) (second : String)
    (readSecond : Reader β) (make : α → β → γ) : Reader γ := do
  let (a, b, ()) ← record (.required first readFirst (.required second readSecond .done))
  return make a b

/-- An integer that fits a word of so many bits, one of them for the sign. -/
def signedInteger (bits : Nat) : Reader Int :=
  let half : Int := Nat.pow 2 (bits - 1)
  integerWithin (-half) (half - 1)

/-- An integer that fits a word of so many bits without a sign. -/
def unsignedInteger (bits : Nat) : Reader Nat := do
  return (← integerWithin 0 (Nat.pow 2 bits - 1)).toNat

/-! ## Syntax trees -/

/-- A binary operator by its name. -/
def readBinaryOperator : Reader BinaryOperator :=
  oneOf (BinaryOperator.all.map fun op => .bare op.name op)

/-- A unary operator by its name. -/
def readUnaryOperator : Reader UnaryOperator :=
  oneOf (UnaryOperator.all.map fun op => .bare op.name op)

/-- A number of the 64-bit format. -/
def readDouble : Reader Double := do
  match ← anyNumber with
  | .integer n => return .ofNat (n < 0) n.natAbs
  | .real x => return x

/-- A number of the 32-bit format; a real number is rounded a second time. -/
def readSingle : Reader Single := do
  match ← anyNumber with
  | .integer n => return .ofNat (n < 0) n.natAbs
  | .real x => return x.convert

/-- A literal. -/
def readLiteral : Reader Literal :=
  oneOf [
    .containing "Byte" do return .byte (.ofInt (← signedInteger 8)),
    .containing "Short" do return .short (.ofInt (← signedInteger 16)),
    .containing "Int" do return .int (.ofInt (← signedInteger 32)),
    .containing "Long" do return .long (.ofInt (← signedInteger 64)),
    .containing "Float" do return .float (← readSingle),
    .containing "Double" do return .double (← readDouble),
    .containing "Char" do return .char (← character),
    .containing "Boolean" do return .boolean (← boolean),
    .containing "String" do return .string (← string),
    .bare "Null" .null]

/-- What a node is. -/
def readKind : Reader NodeKind :=
  oneOf [
    .bare "CompilationUnit" .compilationUnit,
    .containing "Class" (oneField "name" string .classDeclaration),
    .containing "Method" (twoFields "name" string "parameters" (list string) .method),
    .containing "Constructor" (oneField "parameters" (list string) .initializer),
    .containing "Lambda" (oneField "parameters" (list string) .lambda),
    .containing "LocalVariable" (oneField "name" string .localVariable),
    .bare "Block" .block,
    .bare "If" .ifStatement,
    .bare "Switch" .switchStatement,
    .bare "Case" .caseArm,
    .bare "While" .whileLoop,
    .bare "For" .forLoop,
    .bare "Return" .returnStatement,
    .bare "Break" .breakStatement,
    .bare "Continue" .continueStatement,
    .bare "Throw" .throwStatement,
    .bare "Assignment" .assignment,
    .containing "BinaryOperator" (oneField "op" readBinaryOperator .binary),
    .containing "UnaryOperator" (oneField "op" readUnaryOperator .unary),
    .containing "Literal" (oneField "value" readLiteral .literal),
    .containing "VariableRead" (oneField "name" string .variableRead),
    .containing "FieldRead" (oneField "field" string .fieldRead),
    .containing "FieldWrite" (oneField "field" string .fieldWrite),
    .containing "Invocation" (oneField "signature" string .invocation),
    .bare "ThisAccess" .thisAccess,
    .containing "TypeAccess" (oneField "name" string .typeAccess),
    .containing "Other" (oneField "label" string .other)]

/-- The number of a node. -/
def readNodeId : Reader NodeId := do
  return .ofIndex (← unsignedInteger 32)

/-- A node; the links may be left out. -/
def readNode : Reader Node := do
  let (kind, parent, children, ()) ← record <|
    .required "kind" readKind <|
    .withDefault "parent" (optional readNodeId) none <|
    .withDefault "children" (list readNodeId) [] .done
  return { kind, parent, children }

/-- A tree. -/
def readTree : Reader Tree := oneField "nodes" (list readNode) fun nodes => ⟨nodes.toArray⟩

/-! ## Compared files -/

/-- An edit of a script. -/
def readEdit : Reader (Edit NodeId) :=
  oneOf [
    .containing "Insert" (oneField "node" readNodeId .insert),
    .containing "Delete" (oneField "node" readNodeId .delete),
    .containing "Update" (twoFields "before" readNodeId "after" readNodeId .update),
    .containing "Move" (twoFields "before" readNodeId "after" readNodeId .move)]

/-- A compared file; the path may be left out. -/
def readFileDiff : Reader FileDiff := do
  let (path, before, after, operations, ()) ← record <|
    .withDefault "path" string "" <|
    .required "before" readTree <|
    .required "after" readTree <|
    .required "operations" (list readEdit) .done
  return { path, before, after, operations }

/-! ## Results -/

/-- The rule of a tag, behind its name. -/
def readRuleVariant (tag : RuleTag) : Variant Rule :=
  match tag with
  | .missingBreakInCase => .bare tag.name .missingBreakInCase
  | .missingReturnInCase => .bare tag.name .missingReturnInCase
  | .preconditionGuardInserted =>
    .containing tag.name (oneField "parameter" string .preconditionGuardInserted)
  | .nullGuardBeforeFieldRead =>
    .containing tag.name (oneField "field" string .nullGuardBeforeFieldRead)
  | .nullGuardBeforeInvocation =>
    .containing tag.name (oneField "signature" string .nullGuardBeforeInvocation)
  | .conditionalNegated => .bare tag.name .conditionalNegated
  | .binaryOperatorReplaced =>
    .containing tag.name
      (twoFields "src" readBinaryOperator "dst" readBinaryOperator .binaryOperatorReplaced)
  | .binaryOperatorDeleted =>
    .containing tag.name (oneField "op" readBinaryOperator .binaryOperatorDeleted)
  | .literalReplaced =>
    .containing tag.name do
      let (src, dst, ()) ← record (.required "src" readLiteral (.nullable "dst" readLiteral .done))
      return .literalReplaced src dst
  | .argumentPropagated =>
    .containing tag.name <|
      oneField "index" (unsignedInteger 64) fun n => .argumentPropagated (.ofNat n)
  | .arithmeticOperatorDeleted => .bare tag.name .arithmeticOperatorDeleted
  | .arithmeticOperatorReplaced => .bare tag.name .arithmeticOperatorReplaced
  | .conditionalBoundary => .bare tag.name .conditionalBoundary
  | .relationalOperatorReplaced => .bare tag.name .relationalOperatorReplaced
  | .negatedConditional => .bare tag.name .negatedConditional
  | .inlineConstant => .bare tag.name .inlineConstant
  | .invertNegatives => .bare tag.name .invertNegatives
  | .nakedReceiver => .bare tag.name .nakedReceiver

/-- A rule. -/
def readRule : Reader Rule := oneOf (RuleTag.all.map readRuleVariant)

/-- A record. -/
def readRecord : Reader Record := twoFields "rule" readRule "project" string Record.mk

/-! ## Settings -/

/-- How a record log is stored. -/
def readCompression : Reader Compression :=
  oneOf [
    .bare "None" .plain,
    .containing "Zstd" <|
      oneField "level" (signedInteger 32) fun n => .zstd (.ofInt n)]

/-- Settings; what is left out keeps its usual value. -/
def readSettings : Reader Settings := do
  let usual : Settings := {}
  let (datasetRoot, outputDirectory, recordLog, compression, specialize, diffSuffix, ()) ← record <|
    .withDefault "dataset_root" string usual.datasetRoot <|
    .withDefault "output_dir" string usual.outputDirectory <|
    .withDefault "record_log" string usual.recordLog <|
    .withDefault "compression" readCompression usual.compression <|
    .withDefault "specialize" boolean usual.specialize <|
    .withDefault "diff_suffix" string usual.diffSuffix .done
  return { datasetRoot, outputDirectory, recordLog, compression, specialize, diffSuffix }

/-- Reads a text that holds one value. -/
def decode {α : Type} (read : Reader α) (text : String) : Except Fault α :=
  readWhole read text.toList

end EditIdioms.Document
