import EditIdioms.Broadcast.Worker

/-!
# Broadcasting records

A producer sends every record to every worker. Workers run on their own: before each action of the
producer any of them may take messages from its queue, in any order. Which ones do is told by a
schedule, and what holds under every schedule does not depend on how fast anybody is.

A worker that has ended is noticed when something is sent to it. Closing a broadcast stops the
workers one after the other and waits for each of them; the first failure, in the order of
registration, is reported.

## Main definitions

* `BroadcastFault` — what can go wrong, and its wording.
* `Schedule`, `Schedule.eager`, `Schedule.idle` — which workers take a message before an action.
* `Broadcast`, `Broadcasting` — the workers and their world, and computations on them.
* `Broadcast.start` — a broadcast to given sinks before the first action.
* `Worker.account` — what a worker that was waited for leaves behind.
* `register`, `publish`, `publishInTurn` — the actions of the producer.
* `close`, `abandon` — the two ways to end a broadcast.
-/

set_option autoImplicit false

namespace EditIdioms

/-- What can go wrong with a worker, told by its position and name. -/
inductive BroadcastFault where
  /-- The worker has ended and takes no more records. -/
  | disconnected (position : Nat) (name : String)
  | panicked (position : Nat) (name : String)
  | failed (position : Nat) (name message : String)
  /-- A worker cannot go by a name with a null character. -/
  | unnameable (name : String)
deriving DecidableEq

/-- The wording of a fault. -/
def BroadcastFault.message : BroadcastFault → String
  | disconnected _ name => "Consumer '" ++ name ++ "' is no longer receiving records"
  | panicked _ name => "Consumer '" ++ name ++ "' panicked"
  | failed _ name message => "Consumer '" ++ name ++ "' failed: " ++ message
  | unnameable _ => "thread name may not contain interior null bytes"

/-- Which workers take a message before each action of the producer. -/
abbrev Schedule := Nat → List Nat

namespace Schedule

/-- Each of the first `count` workers takes a message before every action, so that a record is dealt
with before the next one comes. -/
def eager (count : Nat) : Schedule := fun _ => List.range count

/-- No worker takes a message until it is waited for. -/
def idle : Schedule := fun _ => []

end Schedule

/-- What a worker reports at its end. -/
structure Report where
  name : String
  consumed : Nat
deriving DecidableEq

/-- The workers in the order of registration, their world, and how many actions there have been. -/
structure Broadcast (σ ω : Type) [Sink σ ω] where
  workers : List (Worker σ) := []
  world : ω
  clock : Nat := 0

/-- A computation on a broadcast, which may fail. -/
abbrev Broadcasting (σ ω α : Type) [Sink σ ω] := ExceptT BroadcastFault (StateM (Broadcast σ ω)) α

/-- What a worker at a position leaves behind when it has been waited for: its report, or why there
is none. -/
def Worker.account {σ ω : Type} [Sink σ ω] (w : Worker σ) (position : Nat) :
    Except BroadcastFault Report :=
  match w.ending? with
  | some .finished => .ok { name := w.name, consumed := w.consumed }
  | some (.failed message) => .error (.failed position w.name message)
  | some .panicked => .error (.panicked position w.name)
  | none => .error (.disconnected position w.name)

namespace Broadcast

variable {σ ω : Type} [Sink σ ω]

/-- A broadcast to the given sinks, each with a worker of its own that has not done anything. -/
def start (sinks : List σ) (world : ω) : Broadcast σ ω :=
  { workers := sinks.map fun sink => { sink }, world }

/-- Puts a worker and the world back. -/
def replace (b : Broadcast σ ω) (position : Nat) (w : Worker σ) (world : ω) : Broadcast σ ω :=
  { b with workers := b.workers.set position w, world }

/-- One worker takes a message. -/
def stepAt (b : Broadcast σ ω) (position : Nat) : Broadcast σ ω :=
  match b.workers[position]? with
  | none => b
  | some w => let (w, world) := w.step b.world; b.replace position w world

/-- The workers take messages as the schedule says. -/
def pause (schedule : Schedule) (b : Broadcast σ ω) : Broadcast σ ω :=
  let b' := (schedule b.clock).foldl stepAt b
  { b' with clock := b.clock + 1 }

/-- A worker takes all its messages. -/
def drainAt (b : Broadcast σ ω) (position : Nat) : Broadcast σ ω :=
  match b.workers[position]? with
  | none => b
  | some w => let (w, world) := w.drain b.world; b.replace position w world

end Broadcast

namespace Broadcasting

variable {σ ω : Type} [Sink σ ω]

/-- Adds a worker with the given sink, unless the name of the sink has a null character. -/
def register (sink : σ) : Broadcasting σ ω Unit := do
  let worker : Worker σ := { sink }
  if worker.name.toList.contains '\x00' then throw (.unnameable worker.name)
  modify fun b => { b with workers := b.workers ++ [worker] }

/-- Sends a message to one worker; the answer tells whether it could be sent. -/
def post (schedule : Schedule) (position : Nat) (message : Message) : Broadcasting σ ω Bool := do
  modify (Broadcast.pause schedule)
  let b ← get
  match b.workers[position]?.bind (·.post? message) with
  | none => return false
  | some w =>
    set (b.replace position w b.world)
    return true

/-- The name of the worker at a position. -/
def nameAt (position : Nat) : Broadcasting σ ω String := do
  return ((← get).workers[position]?.map (·.name)).getD ""

/-- Sends a record to the workers at the given positions, up to the first one that has ended. -/
def publishTo (schedule : Schedule) (r : Record) : (positions : List Nat) → Broadcasting σ ω Unit
  | [] => return ()
  | position :: rest => do
    if ← post schedule position (.record r) then publishTo schedule r rest
    else throw (.disconnected position (← nameAt position))

/-- Sends a record to every worker, up to the first one that has ended. -/
def publish (schedule : Schedule) (r : Record) : Broadcasting σ ω Unit := do
  publishTo schedule r (List.range (← get).workers.length)

/-- Publishes records one after the other, up to the first that cannot be sent to every worker. The
answer holds the records that were tried, and what stopped the publishing if anything did. -/
def publishInTurn (schedule : Schedule) :
    List Record → StateM (Broadcast σ ω) (List Record × Option BroadcastFault)
  | [] => return ([], none)
  | r :: rest => do
    match ← (publish schedule r).run with
    | .ok () =>
      let (tried, fault?) ← publishInTurn schedule rest
      return (r :: tried, fault?)
    | .error fault => return ([r], some fault)

/-- Stops a worker, waits for its end, and gives its report. -/
def join (schedule : Schedule) (position : Nat) : Broadcasting σ ω Report := do
  let _ ← post schedule position .stop
  modify (Broadcast.pause schedule)
  modify (·.drainAt position)
  match (← get).workers[position]? with
  | none => throw (.disconnected position "")
  | some w => liftExcept (w.account position)

/-- Stops the workers at the given positions one after the other; every one of them is waited
for. -/
def joinAll (schedule : Schedule) : (positions : List Nat) → Broadcasting σ ω (List Report)
  | [] => return []
  | position :: rest => do
    let first ← observing (join schedule position)
    let others ← observing (joinAll schedule rest)
    match first, others with
    | .ok report, .ok reports => return report :: reports
    | .error fault, _ => throw fault
    | .ok _, .error fault => throw fault

/-- Stops all workers in the order of registration. -/
def close (schedule : Schedule) : Broadcasting σ ω (List Report) := do
  joinAll schedule (List.range (← get).workers.length)

/-- Stops the workers at the given positions one after the other, and keeps nothing of what they
report. -/
def abandonAll (schedule : Schedule) : (positions : List Nat) → StateM (Broadcast σ ω) Unit
  | [] => return ()
  | position :: rest => do
    let _ ← (join schedule position).run
    abandonAll schedule rest

/-- Gives a broadcast up without asking for reports. Its workers are stopped and waited for all the
same, in the order of registration. -/
def abandon (schedule : Schedule) : StateM (Broadcast σ ω) Unit := do
  abandonAll schedule (List.range (← get).workers.length)

end Broadcasting

end EditIdioms
