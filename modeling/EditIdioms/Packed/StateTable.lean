import EditIdioms.Packed.Bits

/-!
# State tables

Symbols are spelt by a machine that is always in one of finitely many states. A state stands for a
symbol and tells how many bits to read and what to add to them for the number of the next state. A
symbol has the more states the more frequent it is, so frequent symbols take few bits.

A distribution gives the number of states of each symbol, and with it the whole machine.

## Main definitions

* `Distribution`, `Distribution.read` — a distribution, and how it is stored.
* `State`, `StateTable` — the machine.
* `StateTable.ofDistribution`, `StateTable.single` — the machine of a distribution, and that of a
  single symbol.
-/

set_option autoImplicit false

namespace EditIdioms.Packed

/-- How many states each symbol has, of two to the power of `log` in all. A symbol that hardly ever
occurs has one state and a count of minus one. -/
structure Distribution where
  log : Nat
  counts : List Int

/-- Reads the count of a symbol when one less than `remaining` states are still to be given away. A
number up to `remaining` is stored; the smallest ones take a bit less. -/
def readCount (remaining : Nat) : BitReader Int := do
  let width := remaining.log2
  let threshold := Nat.pow 2 width
  let short := 2 * threshold - 1 - remaining
  let low ← readForward width
  if low < short then return (low : Int) - 1
  let n := low + (if ← readBit then threshold else 0)
  return ((if threshold ≤ n then n - short else n : Nat) : Int) - 1

/-- Reads how many more symbols have no states, in steps of up to three; there are fewer than
`symbols`. -/
def readAbsent : (symbols : Nat) → BitReader Nat
  | 0 => throw .corrupted
  | symbols + 1 => do
    let step ← readForward 2
    if step = 3 then return step + (← readAbsent symbols) else return step

/-- Reads the counts of at most so many symbols, until all states are given away. -/
def readCounts (symbols remaining : Nat) : BitReader (List Int) :=
  if remaining ≤ 1 then return []
  else
    match symbols with
    | 0 => throw .corrupted
    | symbols + 1 => do
      let count ← readCount remaining
      if count = 0 then
        let absent ← readAbsent symbols
        return List.replicate (absent + 1) 0 ++ (← readCounts (symbols - absent) remaining)
      else return count :: (← readCounts symbols (remaining - count.natAbs))
termination_by symbols

/-- The least number of states is two to this power. -/
def leastLog : Nat := 5

/-- Reads a distribution over at most so many symbols. -/
def readDistribution (symbols : Nat) : BitReader Distribution := do
  let log := leastLog + (← readForward 4)
  return { log, counts := ← readCounts symbols (Nat.pow 2 log + 1) }

/-- A distribution over at most so many symbols at the front of bytes, and the bytes behind it. -/
def Distribution.read (symbols : Nat) (bytes : List UInt8) :
    Except StreamFault (Distribution × List UInt8) := do
  let bits := forwardBits bytes
  let (d, rest) ← (readDistribution symbols).run bits
  return (d, bytes.drop ((bits.length - rest.length + 7) / 8))

/-- A state: its symbol, how many bits to read, and what to add to them for the next state. -/
structure State where
  symbol : Nat
  width : Nat
  base : Nat

/-- A machine of two to the power of `log` states. -/
structure StateTable where
  log : Nat
  states : Array State

/-- The machine that knows one symbol and reads nothing. -/
def StateTable.single (symbol : Nat) : StateTable := ⟨0, #[⟨symbol, 0, 0⟩]⟩

namespace Distribution

/-- How many states there are. -/
def size (d : Distribution) : Nat := Nat.pow 2 d.log

/-- The symbols that have a count with the given property, each as often as it has states. -/
def symbols (d : Distribution) (p : Int → Bool) : List Nat :=
  d.counts.zipIdx.flatMap fun (count, symbol) =>
    if p count then List.replicate count.natAbs symbol else []

/-- Which symbol each state stands for. The rarest symbols are at the end, last one first; the
states of the others are spread by steps of a fixed length around the table. -/
def placement (d : Distribution) : Array Nat :=
  let rare := d.symbols (· < 0)
  let common := d.symbols (0 < ·)
  let step := d.size / 2 + d.size / 8 + 3
  let places := (List.range d.size).map fun i => i * step % d.size
  let top := (List.range rare.length).map fun i => d.size - 1 - i
  let spread := (places.filter (· < d.size - rare.length)).zip common
  (spread ++ top.zip rare).foldl (fun table (place, symbol) => table.setIfInBounds place symbol)
    (Array.replicate d.size 0)

end Distribution

/-- The states that stand for the given symbols; `next` gives the number that a symbol's next state
goes by. The numbers of a symbol run from its count up to twice its count, and a state reads as many
bits as lead from its number to the numbers of all states. -/
def statesFrom (log : Nat) : (next : Array Nat) → (symbols : List Nat) → List State
  | _, [] => []
  | next, symbol :: rest =>
    let number := next.getD symbol 0
    let width := log - number.log2
    { symbol, width, base := number * Nat.pow 2 width - Nat.pow 2 log } ::
      statesFrom log (next.setIfInBounds symbol (number + 1)) rest

/-- The machine of a distribution. -/
def StateTable.ofDistribution (d : Distribution) : StateTable where
  log := d.log
  states := (statesFrom d.log (d.counts.map Int.natAbs).toArray d.placement.toList).toArray

namespace StateTable

/-- The state of the given number. -/
def state (t : StateTable) (number : Nat) : BitReader State :=
  match t.states[number]? with
  | some s => return s
  | none => throw .corrupted

/-- Reads the first state, backward. -/
def start (t : StateTable) : BitReader State := do t.state (← readBackward t.log)

/-- Reads the state after another one, backward. -/
def next (t : StateTable) (s : State) : BitReader State := do
  t.state (s.base + (← readBackward s.width))

end StateTable

end EditIdioms.Packed
