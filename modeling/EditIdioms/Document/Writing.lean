import EditIdioms.Diff.FileDiff
import EditIdioms.Json.Value
import EditIdioms.Rule
import EditIdioms.Settings

/-!
# Writing documents

The JSON form of trees, compared files, results and settings, with all fields in their order.

## Main definitions

* `singleLayout`, `doubleLayout` — how floating-point numbers are written.
* `writeLiteral`, `writeKind`, `writeNode`, `writeTree` — syntax trees.
* `writeEdit`, `writeFileDiff` — compared files.
* `writeRule`, `writeRecord` — results.
* `writeCompression`, `writeSettings` — settings.
-/

set_option autoImplicit false

namespace EditIdioms.Document

open Json

/-- A layout that writes numbers between two powers of ten without exponent. Of two equally near
decimals the even one is taken. -/
def documentLayout (low high : Int) : NumberLayout where
  tie := .toEven
  isPlain e := low ≤ e ∧ e ≤ high
  wholeMark := ".0"
  nanText := "null"
  infinityText := "null"
  minusInfinityText := "null"

/-- How numbers of the 32-bit format are written. -/
def singleLayout : NumberLayout := documentLayout (-6) 12

/-- How numbers of the 64-bit format are written. -/
def doubleLayout : NumberLayout := documentLayout (-5) 15

/-- An integer. -/
def writeInteger (n : Int) : Value := .number (integerText n)

/-- An alternative with contents. -/
def tagged (name : String) (contents : Value) : Value := .object [(name, contents)]

/-- An alternative with fields. -/
def fields (name : String) (members : List (String × Value)) : Value :=
  tagged name (.object members)

/-- A list of strings. -/
def writeStrings (l : List String) : Value := .array (l.map .string)

/-- Nothing as `null`. -/
def writeOption {α : Type} (write : α → Value) : Option α → Value
  | none => .null
  | some a => write a

/-- A literal. -/
def writeLiteral : Literal → Value
  | .byte n => tagged "Byte" (writeInteger n.toInt)
  | .short n => tagged "Short" (writeInteger n.toInt)
  | .int n => tagged "Int" (writeInteger n.toInt)
  | .long n => tagged "Long" (writeInteger n.toInt)
  | .float x => tagged "Float" (.number (x.write singleLayout))
  | .double x => tagged "Double" (.number (x.write doubleLayout))
  | .char c => tagged "Char" (.string (String.singleton c))
  | .boolean b => tagged "Boolean" (.boolean b)
  | .string s => tagged "String" (.string s)
  | .null => .string "Null"

/-- What a node is. -/
def writeKind : NodeKind → Value
  | .compilationUnit => .string "CompilationUnit"
  | .classDeclaration name => fields "Class" [("name", .string name)]
  | .method name ps => fields "Method" [("name", .string name), ("parameters", writeStrings ps)]
  | .initializer ps => fields "Constructor" [("parameters", writeStrings ps)]
  | .lambda ps => fields "Lambda" [("parameters", writeStrings ps)]
  | .localVariable name => fields "LocalVariable" [("name", .string name)]
  | .block => .string "Block"
  | .ifStatement => .string "If"
  | .switchStatement => .string "Switch"
  | .caseArm => .string "Case"
  | .whileLoop => .string "While"
  | .forLoop => .string "For"
  | .returnStatement => .string "Return"
  | .breakStatement => .string "Break"
  | .continueStatement => .string "Continue"
  | .throwStatement => .string "Throw"
  | .assignment => .string "Assignment"
  | .binary op => fields "BinaryOperator" [("op", .string op.name)]
  | .unary op => fields "UnaryOperator" [("op", .string op.name)]
  | .literal value => fields "Literal" [("value", writeLiteral value)]
  | .variableRead name => fields "VariableRead" [("name", .string name)]
  | .fieldRead field => fields "FieldRead" [("field", .string field)]
  | .fieldWrite field => fields "FieldWrite" [("field", .string field)]
  | .invocation signature => fields "Invocation" [("signature", .string signature)]
  | .thisAccess => .string "ThisAccess"
  | .typeAccess name => fields "TypeAccess" [("name", .string name)]
  | .other label => fields "Other" [("label", .string label)]

/-- The number of a node. -/
def writeNodeId (id : NodeId) : Value := writeInteger id.index

/-- A node with its links. -/
def writeNode (n : Node) : Value :=
  .object [
    ("kind", writeKind n.kind),
    ("parent", writeOption writeNodeId n.parent),
    ("children", .array (n.children.map writeNodeId))]

/-- A tree. -/
def writeTree (t : Tree) : Value := .object [("nodes", .array (t.nodes.toList.map writeNode))]

/-- An edit of a script. -/
def writeEdit : Edit NodeId → Value
  | .insert node => fields "Insert" [("node", writeNodeId node)]
  | .delete node => fields "Delete" [("node", writeNodeId node)]
  | .update before after =>
    fields "Update" [("before", writeNodeId before), ("after", writeNodeId after)]
  | .move before after =>
    fields "Move" [("before", writeNodeId before), ("after", writeNodeId after)]

/-- A compared file. -/
def writeFileDiff (d : FileDiff) : Value :=
  .object [
    ("path", .string d.path),
    ("before", writeTree d.before),
    ("after", writeTree d.after),
    ("operations", .array (d.operations.map writeEdit))]

/-- The fields of a rule. -/
def ruleFields : Rule → List (String × Value)
  | .preconditionGuardInserted parameter => [("parameter", .string parameter)]
  | .nullGuardBeforeFieldRead field => [("field", .string field)]
  | .nullGuardBeforeInvocation signature => [("signature", .string signature)]
  | .binaryOperatorReplaced src dst => [("src", .string src.name), ("dst", .string dst.name)]
  | .binaryOperatorDeleted op => [("op", .string op.name)]
  | .literalReplaced src dst => [("src", writeLiteral src), ("dst", writeOption writeLiteral dst)]
  | .argumentPropagated index => [("index", writeInteger index.toNat)]
  | _ => []

/-- A rule. -/
def writeRule (r : Rule) : Value :=
  match ruleFields r with
  | [] => .string r.tag.name
  | members => fields r.tag.name members

/-- A record. -/
def writeRecord (r : Record) : Value :=
  .object [("rule", writeRule r.rule), ("project", .string r.project)]

/-- How a record log is stored. -/
def writeCompression : Compression → Value
  | .plain => .string "None"
  | .zstd level => fields "Zstd" [("level", writeInteger level.toInt)]

/-- Settings. -/
def writeSettings (s : Settings) : Value :=
  .object [
    ("dataset_root", .string s.datasetRoot),
    ("output_dir", .string s.outputDirectory),
    ("record_log", .string s.recordLog),
    ("compression", writeCompression s.compression),
    ("specialize", .boolean s.specialize),
    ("diff_suffix", .string s.diffSuffix)]

end EditIdioms.Document
