import EditIdioms.Packed.PrefixCode

/-!
# Literals

A packed block starts with its literals, the bytes that are not copied from earlier content. They
stand there as they are, as one byte that is repeated, or spelt in a prefix code that is given with
them or was given by an earlier block.

## Main definitions

* `Bounds` — what a block may come to.
* `Literals`, `Literals.read` — literals at the front of a block.
-/

set_option autoImplicit false

namespace EditIdioms.Packed

/-- What a block may come to: the most bytes a block may have, and how many there is room for. -/
structure Bounds where
  blockLimit : Nat
  room : Nat

/-- The literals of a block. -/
structure Literals where
  content : List UInt8
  /-- The code to be known from here on. -/
  code? : Option PrefixCode
  /-- Whether the literals are left where they stand in the block. -/
  inPlace : Bool := false

namespace Literals

/-- How the size of literals is stored: in how many bytes, from which bit on and in how many
bits. -/
structure SizeField where
  bytes : Nat
  skip : Nat
  width : Nat

/-- The number in a field. -/
def SizeField.read (f : SizeField) (b : List UInt8) : Nat :=
  wordOfBytes (b.take f.bytes) / Nat.pow 2 f.skip % Nat.pow 2 f.width

/-- The field for the size of literals that are not spelt, by the third and fourth bits. -/
def plainField (format : Nat) : SizeField :=
  match format with
  | 1 => ⟨2, 4, 12⟩
  | 3 => ⟨3, 4, 20⟩
  | _ => ⟨1, 3, 5⟩

/-- The field for the size of literals that are spelt, by the third and fourth bits. A field of the
same width follows it, for the size of what spells them. -/
def spelledField (format : Nat) : SizeField :=
  match format with
  | 2 => ⟨4, 4, 14⟩
  | 3 => ⟨5, 4, 18⟩
  | _ => ⟨3, 4, 10⟩

/-- Checks that there is room for `size` literals. -/
def checkRoom (bounds : Bounds) (size : Nat) : Except StreamFault Unit :=
  if min bounds.blockLimit bounds.room < size then throw .noRoom else return ()

/-- Literals that stand as they are, if `repeated` is false, or as one byte that is repeated. -/
def readPlain (bounds : Bounds) (code? : Option PrefixCode) (repeated : Bool) (b : List UInt8) :
    Except StreamFault (Literals × List UInt8) := do
  let field := plainField (wordOfBytes (b.take 1) / 4 % 4)
  if b.length < field.bytes ∨ repeated ∧ b.length ≤ field.bytes then throw .corrupted
  let size := field.read b
  if bounds.blockLimit < size then throw .corrupted
  checkRoom bounds size
  let body := b.drop field.bytes
  if repeated then
    return ({ content := body.take 1 |>.flatMap (List.replicate size), code? }, body.drop 1)
  if body.length < size then throw .corrupted
  return ({ content := body.take size, code?, inPlace := size + 32 ≤ body.length }, body.drop size)

/-- Literals that are spelt in a code, which stands in front of them if `known?` is nothing. -/
def readSpelled (bounds : Bounds) (known? : Option PrefixCode) (b : List UInt8) :
    Except StreamFault (Literals × List UInt8) := do
  if b.length < 5 then throw .corrupted
  let format := wordOfBytes (b.take 1) / 4 % 4
  let field := spelledField format
  let size := field.read b
  let spelledSize := { field with skip := field.skip + field.width }.read b
  if bounds.blockLimit < size then throw .corrupted
  if format ≠ 0 ∧ size < 6 then throw .literalsHeader
  let body := b.drop field.bytes
  if body.length < spelledSize then throw .corrupted
  checkRoom bounds size
  let (code, spelled) ←
    match known? with
    | some code => pure (code, body.take spelledSize)
    | none => PrefixCode.read (body.take spelledSize)
  let content ← if format = 0 then code.spellOne size spelled else code.spellFour size spelled
  return ({ content, code? := some code }, body.drop spelledSize)

/-- The literals at the front of a block, and what stands behind them; `code?` is the code that is
known so far. -/
def read (bounds : Bounds) (code? : Option PrefixCode) (b : List UInt8) :
    Except StreamFault (Literals × List UInt8) :=
  if b.length < 2 then throw .corrupted
  else
    match wordOfBytes (b.take 1) % 4 with
    | 0 => readPlain bounds code? false b
    | 1 => readPlain bounds code? true b
    | 2 => readSpelled bounds none b
    | _ =>
      match code? with
      | none => throw .codeWanted
      | some code => readSpelled bounds (some code) b

end Literals

end EditIdioms.Packed
