import EditIdioms.Broadcast.Sink
import EditIdioms.Numeric.Integer

/-!
# Workers

A worker owns a sink and a queue. It takes one message after the other: a record goes to the sink,
the stop mark makes the sink clean up and ends the worker. A failure or breakdown of the sink ends
it too, and what is still in the queue is lost.

## Main definitions

* `Message` — what is put into a queue.
* `Ending`, `Worker` — a worker and how it ended.
* `Worker.handle` — what a message does.
* `Worker.step`, `Worker.drain` — one message, and all of them.
-/

set_option autoImplicit false

namespace EditIdioms

/-- What is put into a queue. -/
inductive Message where
  | record (r : Record)
  | stop
deriving DecidableEq

/-- How a worker ended. -/
inductive Ending where
  | finished
  | failed (message : String)
  | panicked
deriving DecidableEq

/-- A worker: its sink, the name the sink had when the worker started, what is in its queue, how
many records the sink has taken, and how it ended if it has. -/
structure Worker (σ : Type) {ω : Type} [Sink σ ω] where
  sink : σ
  name : String := Sink.name sink
  queue : List Message := []
  consumed : Nat := 0
  ending? : Option Ending := none

namespace Worker

variable {σ ω : Type} [Sink σ ω]

/-- Whether the worker still takes messages. -/
def isRunning (w : Worker σ) : Bool := w.ending?.isNone

/-- Ends the worker, whose sink gives up what it holds. -/
def finish (w : Worker σ) (world : ω) (ending : Ending) : Worker σ × ω :=
  ({ w with queue := [], ending? := some ending }, Sink.dispose w.sink world)

/-- What a message does to a running worker. -/
def handle (w : Worker σ) (world : ω) : Message → Worker σ × ω
  | .record r =>
    let (sink, verdict) := Sink.consume w.sink r
    let w := { w with sink }
    match verdict with
    | .done => ({ w with consumed := w.consumed + 1 }, world)
    | .failed message =>
      w.finish world <| .failed <|
        "record " ++ decimalText (w.consumed + 1) ++ " rejected by " ++ w.name ++ ": " ++ message
    | .panicked => w.finish world .panicked
  | .stop =>
    let (sink, world, verdict) := Sink.cleanup w.sink world
    let w := { w with sink }
    match verdict with
    | .done => w.finish world .finished
    | .failed message =>
      w.finish world (.failed ("cleanup of " ++ w.name ++ " failed: " ++ message))
    | .panicked => w.finish world .panicked

/-- Takes the next message, if the worker is running and there is one. -/
def step (w : Worker σ) (world : ω) : Worker σ × ω :=
  if w.isRunning then
    match w.queue with
    | [] => (w, world)
    | message :: rest => { w with queue := rest }.handle world message
  else (w, world)

/-- Takes at most `count` messages. -/
def steps : (count : Nat) → Worker σ → ω → Worker σ × ω
  | 0, w, world => (w, world)
  | count + 1, w, world =>
    let (w, world) := w.step world
    steps count w world

/-- Takes all messages. -/
def drain (w : Worker σ) (world : ω) : Worker σ × ω := steps w.queue.length w world

/-- Puts a message into the queue, unless the worker has ended. -/
def post? (w : Worker σ) (message : Message) : Option (Worker σ) :=
  if w.isRunning then some { w with queue := w.queue ++ [message] } else none

end Worker

end EditIdioms
