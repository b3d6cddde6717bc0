import EditIdioms.Packed.Literals

/-!
# Sequences

Behind its literals a packed block tells what becomes of them: each sequence takes so many literals
and then copies so many bytes from a place so far back. The three numbers are given by codes, which
three machines spell in turn, and by bits that tell the numbers of one code apart. The last three
distances are remembered, and the lowest numbers for distances stand for them.

## Main definitions

* `NumberCode`, `literalCodes`, `copyCodes` — the codes of numbers.
* `Distances`, `Distances.pick` — the distances that are remembered.
* `Machines`, `Machines.read` — the machines of a block, given in front of the sequences.
* `Sequence`, `Production.follow` — a sequence, and what it makes.
* `runSequences` — all the sequences of a block.
-/

set_option autoImplicit false

namespace EditIdioms.Packed

/-- The least number of a code, and how many bits tell the numbers of the code apart. -/
structure NumberCode where
  least : Nat
  width : Nat

/-- Codes of the given widths, whose numbers follow each other without a gap from `least` on. -/
def codesFrom : (least : Nat) → (widths : List Nat) → List NumberCode
  | _, [] => []
  | least, width :: rest => ⟨least, width⟩ :: codesFrom (least + Nat.pow 2 width) rest

/-- The codes for how many literals a sequence takes. -/
def literalCodes : Array NumberCode :=
  (codesFrom 0 (List.replicate 16 0 ++
    [1, 1, 1, 1, 2, 2, 3, 3, 4, 6, 7, 8, 9, 10, 11, 12, 13, 14, 15, 16])).toArray

/-- The codes for how many bytes a sequence copies, three at least. -/
def copyCodes : Array NumberCode :=
  (codesFrom 3 (List.replicate 32 0 ++
    [1, 1, 1, 1, 2, 2, 3, 3, 4, 4, 5, 7, 8, 9, 10, 11, 12, 13, 14, 15, 16])).toArray

/-- How many codes there are for distances. -/
def distanceCodes : Nat := 32

/-- Reads a number of a code. -/
def readNumber (codes : Array NumberCode) (code : Nat) : BitReader Nat :=
  match codes[code]? with
  | none => throw .corrupted
  | some c => return c.least + (← readBackward c.width)

/-- Reads the number for a distance. -/
def readDistance (code : Nat) : BitReader Nat := readBelow 1 code

/-- The last three distances, the latest one first. -/
structure Distances where
  first : Nat := 1
  second : Nat := 4
  third : Nat := 8

/-- The distance that a number stands for, and the distances to be remembered. Numbers from four on
are three more than the distance; a lower number stands for the distance remembered at that place,
or at the next place when no literals are taken, and where there is no such place for one less than
the latest distance. -/
def Distances.pick (d : Distances) (number : Nat) (takesLiterals : Bool) : Nat × Distances :=
  if 4 ≤ number then (number - 3, ⟨number - 3, d.first, d.second⟩)
  else
    match if takesLiterals then number else number + 1 with
    | 1 => (d.first, d)
    | 2 => (d.second, ⟨d.second, d.first, d.third⟩)
    | 3 => (d.third, ⟨d.third, d.first, d.second⟩)
    | _ => (d.first - 1, ⟨d.first - 1, d.first, d.second⟩)

/-- The machines that spell the codes of sequences. -/
structure Machines where
  literals : StateTable
  distances : StateTable
  copies : StateTable

/-- The machines that need not be given. -/
def standardMachines : Machines where
  literals := .ofDistribution
    { log := 6
      counts := [4, 3, 2, 2, 2, 2, 2, 2, 2, 2, 2, 2, 2, 1, 1, 1, 2, 2, 2, 2, 2, 2, 2, 2, 2, 3, 2, 1,
        1, 1, 1, 1, -1, -1, -1, -1] }
  distances := .ofDistribution
    { log := 5
      counts := [1, 1, 1, 1, 1, 1, 2, 2, 2, 1, 1, 1, 1, 1, 1, 1, 1, 1, 1, 1, 1, 1, 1, 1, -1, -1, -1,
        -1, -1] }
  copies := .ofDistribution
    { log := 6
      counts := [1, 4, 3, 2, 2, 2, 2, 2, 2] ++ List.replicate 37 1 ++ List.replicate 7 (-1) }

/-- What machines of one kind may be like: how many codes there are, and two to which power states
at most. -/
structure MachineLimits where
  codes : Nat
  log : Nat

/-- Reads a machine as `choice` says: the standard one, one for the single code that is given, one
whose distribution is given, or the one of the last block that had sequences. -/
def readMachine (limits : MachineLimits) (standard : StateTable) (last? : Option StateTable)
    (choice : Nat) (b : List UInt8) : Except StreamFault (StateTable × List UInt8) := do
  match choice with
  | 0 => return (standard, b)
  | 1 =>
    match b with
    | [] => throw .corrupted
    | code :: rest =>
      if code.toNat < limits.codes then return (.single code.toNat, rest) else throw .corrupted
  | 2 =>
    let (d, rest) ← Distribution.read limits.codes b
    if d.log ≤ limits.log then return (.ofDistribution d, rest) else throw .corrupted
  | _ =>
    match last? with
    | none => throw .corrupted
    | some t => return (t, b)

/-- The machines of a block, at the front of bytes, and what stands behind them. -/
def Machines.read (last? : Option Machines) (b : List UInt8) :
    Except StreamFault (Machines × List UInt8) := do
  match b with
  | [] => throw .wrongSize
  | choices :: rest =>
    let choice (place : Nat) := choices.toNat / Nat.pow 4 place % 4
    if choice 0 ≠ 0 then throw .corrupted
    let (literals, rest) ← readMachine ⟨literalCodes.size, 9⟩ standardMachines.literals
      (last?.map (·.literals)) (choice 3) rest
    let (distances, rest) ← readMachine ⟨distanceCodes, 8⟩ standardMachines.distances
      (last?.map (·.distances)) (choice 2) rest
    let (copies, rest) ← readMachine ⟨copyCodes.size, 9⟩ standardMachines.copies
      (last?.map (·.copies)) (choice 1) rest
    return ({ literals, distances, copies }, rest)

/-- How many sequences there are, at the front of bytes, and what stands behind that. -/
def readSequenceCount (b : List UInt8) : Except StreamFault (Nat × List UInt8) := do
  match b with
  | [] => throw .wrongSize
  | head :: rest =>
    if head < 128 then return (head.toNat, rest)
    let more := if head = 255 then 2 else 1
    if rest.length < more then throw .wrongSize
    let low := rest.take more
    let count :=
      if head = 255 then 0x7F00 + wordOfBytes low
      else 256 * (head.toNat - 128) + wordOfBytes low
    return (count, rest.drop more)

/-- A sequence: how many literals it takes, how many bytes it copies, and from how far back. -/
structure Sequence where
  literals : Nat
  copied : Nat
  distance : Nat

/-- What a block has made so far: the literals that are left, the content, and the distances that
are remembered. -/
structure Production where
  literals : List UInt8
  content : Array UInt8
  distances : Distances

/-- Adds `count` bytes to a content, each a copy of the one `distance` before it. -/
def copyBack (distance : Nat) : (count : Nat) → Array UInt8 → Array UInt8
  | 0, content => content
  | count + 1, content =>
    copyBack distance count (content.push (content.getD (content.size - distance) 0))

/-- Does what a sequence says. The content must not grow beyond `limit` bytes, and nothing is copied
from before the byte at `horizon`. -/
def Production.follow (p : Production) (limit horizon : Nat) (s : Sequence) :
    Except StreamFault Production := do
  if limit < p.content.size + s.literals + s.copied then throw .noRoom
  if p.literals.length < s.literals then throw .corrupted
  if s.distance = 0 ∨ p.content.size + s.literals < horizon + s.distance then throw .corrupted
  let content := (p.literals.take s.literals).foldl Array.push p.content
  return { p with
    literals := p.literals.drop s.literals
    content := copyBack s.distance s.copied content }

/-- The states of the three machines. -/
structure MachineStates where
  literals : State
  distances : State
  copies : State

/-- Reads the first states of the machines. -/
def Machines.start (m : Machines) : BitReader MachineStates := do
  let literals ← m.literals.start
  let distances ← m.distances.start
  return { literals, distances, copies := ← m.copies.start }

/-- Reads the states of the machines after the given ones. -/
def Machines.next (m : Machines) (s : MachineStates) : BitReader MachineStates := do
  let literals ← m.literals.next s.literals
  let copies ← m.copies.next s.copies
  return { literals, copies, distances := ← m.distances.next s.distances }

/-- Reads the sequence whose codes the machines stand for, and the distances to be remembered. -/
def readSequence (s : MachineStates) (d : Distances) : BitReader (Sequence × Distances) := do
  let number ← readDistance s.distances.symbol
  let copied ← readNumber copyCodes s.copies.symbol
  let literals ← readNumber literalCodes s.literals.symbol
  let (distance, d) := d.pick number (s.literals.symbol ≠ 0)
  return ({ literals, copied, distance }, d)

/-- Does what `count + 1` more sequences say, the first of which the machines stand for. -/
def runFrom (m : Machines) (limit horizon : Nat) : (count : Nat) → MachineStates → Production →
    BitReader Production
  | count, s, p => do
    let (sequence, distances) ← readSequence s p.distances
    let p ← p.follow limit horizon sequence
    let p := { p with distances }
    match count with
    | 0 => return p
    | count + 1 => runFrom m limit horizon count (← m.next s) p

/-- Does what `count` sequences say, of which there is one at least. Their bits hold nothing
else. -/
def runSequences (m : Machines) (limit horizon count : Nat) (b : List UInt8) (p : Production) :
    Except StreamFault Production := do
  let run : BitReader Production := do runFrom m limit horizon (count - 1) (← m.start) p
  let (p, rest) ← run.run (← backwardBits b)
  if rest.isEmpty then return p else throw .corrupted

end EditIdioms.Packed
