import EditIdioms.Rule

/-!
# Sinks

A sink is something that takes records one by one and is finished by a cleanup. Taking a record
works on the sink alone; cleanup may also change the world around it, which the sinks of a broadcast
share. Either may fail or break down.

## Main definitions

* `Verdict` — how a call ended.
* `Sink` — the operations of a sink on states of type `σ` in a world of type `ω`.
* The sum of two types of sinks is a type of sinks.
-/

set_option autoImplicit false

namespace EditIdioms

/-- How a call of a sink ended. -/
inductive Verdict where
  | done
  /-- The sink reports a failure. -/
  | failed (message : String)
  /-- The call did not come back. -/
  | panicked
deriving DecidableEq

/-- The operations of a sink. -/
class Sink (σ : Type) (ω : outParam Type) where
  /-- What the sink is called. -/
  name : σ → String
  /-- Takes one record. -/
  consume : σ → Record → σ × Verdict
  /-- Finishes after the last record. -/
  cleanup : σ → ω → σ × ω × Verdict
  /-- Gives up what the sink still holds, finished or not. -/
  dispose : σ → ω → ω

instance {σ τ ω : Type} [Sink σ ω] [Sink τ ω] : Sink (σ ⊕ τ) ω where
  name
    | .inl s => Sink.name s
    | .inr t => Sink.name t
  consume
    | .inl s, r => let (s, v) := Sink.consume s r; (.inl s, v)
    | .inr t, r => let (t, v) := Sink.consume t r; (.inr t, v)
  cleanup
    | .inl s, x => let (s, x, v) := Sink.cleanup s x; (.inl s, x, v)
    | .inr t, x => let (t, x, v) := Sink.cleanup t x; (.inr t, x, v)
  dispose
    | .inl s, x => Sink.dispose s x
    | .inr t, x => Sink.dispose t x

end EditIdioms
