import EditIdioms.Json.Skip

/-!
# Reading values of known shape

A value is read straight into its type. A record may be written as an object, whose keys come in any
order and may be joined by unknown ones, or as an array of its fields in their order. An alternative
is written as its name alone, or as an object with its name as the only key and its contents behind
it.

## Main definitions

* `wrongType` — refuses a value; scalars are read to their end first, so bad JSON is found first.
* `word`, `wordOrNull`, `list`, `string`, `boolean` — simple shapes.
* `Fields`, `record` — the fields of a record, and reading one.
* `Variant`, `oneOf` — the alternatives of a type, and reading one.
-/

set_option autoImplicit false

namespace EditIdioms.Json

/-- Refuses the value that comes next. What follows the first character of an array or object is not
looked at. -/
def wrongType {α : Type} : Reader α := do
  let c ← peek
  if c = 'n' then
    advance
    keyword ['u', 'l', 'l']
  else if c = 't' then
    advance
    keyword ['r', 'u', 'e']
  else if c = 'f' then
    advance
    keyword ['a', 'l', 's', 'e']
  else if c = '-' ∨ isDigit c then
    let _ ← number
  else if c = '"' then
    advance
    let _ ← stringBody
  else if c = '[' ∨ c = '\x7b' then
    return ← throw .mismatched
  else
    return ← throw .malformed
  throw .mismatched

/-- A string. -/
def string : Reader String := do
  if (← peek) = '"' then
    advance
    stringBody
  else wrongType

/-- `true` or `false`. -/
def boolean : Reader Bool := do
  let c ← peek
  if c = 't' then
    advance
    keyword ['r', 'u', 'e']
    return true
  else if c = 'f' then
    advance
    keyword ['a', 'l', 's', 'e']
    return false
  else wrongType

/-- `null`. -/
def null : Reader Unit := do
  if (← peek) = 'n' then
    advance
    keyword ['u', 'l', 'l']
  else wrongType

/-- `null` for nothing, or a value. -/
def optional {α : Type} (read : Reader α) : Reader (Option α) := do
  if (← peek?) = some 'n' then
    null
    return none
  else return some (← read)

/-- A number. -/
def anyNumber : Reader Number := do
  let c ← peek
  if c = '-' ∨ isDigit c then number else wrongType

/-- An integer within bounds. -/
def integerWithin (low high : Int) : Reader Int := do
  match ← anyNumber with
  | .integer n => if low ≤ n ∧ n ≤ high then return n else throw .mismatched
  | .real _ => throw .mismatched

/-- A string of exactly one character. -/
def character : Reader Char := do
  match (← string).toList with
  | [c] => return c
  | _ => throw .mismatched

/-! ## Sequences -/

/-- Whether another item of an array comes; the comma before it is taken, the closing bracket is
not. -/
def moreItems (isFirst : Bool) : Reader Bool := do
  let c ← peek
  if c = ']' then return false
  else if isFirst then return true
  else if c = ',' then
    advance
    if (← peek) = ']' then throw .malformed else return true
  else throw .malformed

/-- At most `bound` items of an array. -/
def itemsWithin {α : Type} (read : Reader α) : (bound : Nat) → (isFirst : Bool) → Reader (List α)
  | 0, _ => throw .truncated
  | bound + 1, isFirst => do
    if ← moreItems isFirst then
      let item ← read
      return item :: (← itemsWithin read bound false)
    else return []

/-- An array. Every item takes a character, so there are no more items than characters. -/
def list {α : Type} (read : Reader α) : Reader (List α) := do
  if (← peek) = '[' then
    advance
    let items ← itemsWithin read (← get).length true
    expect ']'
    return items
  else wrongType

/-! ## Records -/

/-- The fields of a record in their order. The values of a record come as nested pairs, and so do
the values gathered so far, each of which may still be missing. -/
inductive Fields : (draft value : Type) → Type 1 where
  | done : Fields Unit Unit
  /-- A field with its name and reader; `absent?` stands in for a field that an object does not
  have, and `unwritten?` for one that a short array does not reach. -/
  | field {α δ τ : Type} (name : String) (read : Reader α) (absent? unwritten? : Option α)
      (rest : Fields δ τ) : Fields (Option α × δ) (α × τ)

namespace Fields

/-- A field that must be there. -/
def required {α δ τ : Type} (name : String) (read : Reader α) (rest : Fields δ τ) :
    Fields (Option α × δ) (α × τ) :=
  field name read none none rest

/-- A field that has a value of its own when it is not there. -/
def withDefault {α δ τ : Type} (name : String) (read : Reader α) (value : α) (rest : Fields δ τ) :
    Fields (Option α × δ) (α × τ) :=
  field name read (some value) (some value) rest

/-- A field whose value may be `null`, or missing from an object. -/
def nullable {α δ τ : Type} (name : String) (read : Reader α) (rest : Fields δ τ) :
    Fields (Option (Option α) × δ) (Option α × τ) :=
  field name (optional read) (some none) none rest

/-- Nothing gathered yet. -/
def start : {δ τ : Type} → Fields δ τ → δ
  | _, _, done => ()
  | _, _, field _ _ _ _ rest => (none, rest.start)

/-- What to do behind a key: nothing is known for an unknown key, and a field must not come
twice. -/
def member? (key : String) : {δ τ : Type} → Fields δ τ → δ → Option (Reader δ)
  | _, _, done, _ => none
  | _, _, field name read _ _ rest, (value?, draft) =>
    if key = name then
      some do
        if value?.isSome then throw .mismatched
        expect ':'
        return (some (← read), draft)
    else
      (rest.member? key draft).map fun read => do return (value?, ← read)

/-- The record, unless a field is missing. -/
def finish? : {δ τ : Type} → Fields δ τ → δ → Option τ
  | _, _, done, _ => some ()
  | _, _, field _ _ absent? _ rest, (value?, draft) => do
    return (← value?.or absent?, ← rest.finish? draft)

/-- The values of an array, one for each field. -/
def positions : {δ τ : Type} → Fields δ τ → (isFirst : Bool) → Reader τ
  | _, _, done, _ => return ()
  | _, _, field _ read _ unwritten? rest, isFirst => do
    if ← moreItems isFirst then
      let value ← read
      return (value, ← rest.positions false)
    else
      match unwritten? with
      | some value => return (value, ← rest.positions isFirst)
      | none => throw .mismatched

end Fields

/-- Whether another key of an object comes; it is taken up to its opening quote. -/
def moreKeys (isFirst : Bool) : Reader Bool := do
  let c ← peek
  if c = '\x7d' then return false
  else if isFirst then
    if c = '"' then
      advance
      return true
    else throw .malformed
  else if c = ',' then
    advance
    if (← peek) = '"' then
      advance
      return true
    else throw .malformed
  else throw .malformed

/-- At most `bound` members of an object. -/
def membersWithin {δ τ : Type} (fields : Fields δ τ) :
    (bound : Nat) → (isFirst : Bool) → δ → Reader δ
  | 0, _, _ => throw .truncated
  | bound + 1, isFirst, draft => do
    if ← moreKeys isFirst then
      let key ← stringBody
      match fields.member? key draft with
      | some read => membersWithin fields bound false (← read)
      | none =>
        expect ':'
        skip
        membersWithin fields bound false draft
    else return draft

/-- A record, as an object or as an array. Every member takes a character, so there are no more
members than characters. -/
def record {δ τ : Type} (fields : Fields δ τ) : Reader τ := do
  let c ← peek
  if c = '\x7b' then
    advance
    let draft ← membersWithin fields (← get).length true fields.start
    match fields.finish? draft with
    | none => throw .mismatched
    | some value =>
      expect '\x7d'
      return value
  else if c = '[' then
    advance
    let value ← fields.positions true
    expect ']'
    return value
  else wrongType

/-! ## Alternatives -/

/-- One alternative of a type: a name alone, or a name with contents. -/
inductive Variant (α : Type) where
  | bare (name : String) (value : α)
  | containing (name : String) (read : Reader α)

namespace Variant

variable {α : Type}

/-- The name of the alternative. -/
def name : Variant α → String
  | bare name _ => name
  | containing name _ => name

/-- Reads the contents; those of a name alone are `null`. -/
def contents : Variant α → Reader α
  | bare _ value => do
    null
    return value
  | containing _ read => read

/-- The value of the name alone. -/
def alone : Variant α → Reader α
  | bare _ value => return value
  | containing _ _ => throw .mismatched

end Variant

/-- Reads the name of an alternative. -/
def variantName {α : Type} (variants : List (Variant α)) : Reader (Variant α) := do
  let name ← string
  match variants.find? (·.name = name) with
  | some variant => return variant
  | none => throw .mismatched

/-- One of several alternatives. -/
def oneOf {α : Type} (variants : List (Variant α)) : Reader α := do
  let c ← peek
  if c = '\x7b' then
    advance
    let variant ← variantName variants
    expect ':'
    let value ← variant.contents
    expect '\x7d'
    return value
  else if c = '"' then
    (← variantName variants).alone
  else throw .malformed

end EditIdioms.Json
