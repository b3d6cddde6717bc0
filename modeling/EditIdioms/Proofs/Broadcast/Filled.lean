import EditIdioms.Broadcast.Sink
import Mathlib.Data.List.Basic
import Mathlib.Tactic.Lemma

set_option relaxedAutoImplicit false
set_option autoImplicit false

/-!
# Sinks that have been filled

A sink that takes records one after the other and is then cleaned up and given up changes the world
once. Sinks that share a world are finished in turn, each in the world that the one before it has
left.

## Main definitions

* `Sink.fill` — a sink after some records.
* `Sink.retire` — the world after a sink was cleaned up and given up.
* `Retired` — sinks that were filled with the same records are finished in turn.

## Main results

* `retired_append_singleton`, `Retired.exists_last` — the last sink is finished.
-/

namespace EditIdioms

variable {σ τ ω : Type} [Sink σ ω] [Sink τ ω]

/-- The sink after it was handed records one after the other. -/
def Sink.fill (s : σ) (records : List Record) : σ :=
  records.foldl (fun s r => (Sink.consume s r).1) s

/-- The world after the sink was cleaned up and given up. -/
def Sink.retire (s : σ) (world : ω) : ω :=
  let out := Sink.cleanup s world
  Sink.dispose out.1 out.2.1

/-- Sinks that were handed the records are cleaned up without failure and given up, one after the
other, which leads from one world to another. -/
def Retired (records : List Record) : List σ → ω → ω → Prop
  | [], x, y => y = x
  | s :: rest, x, y =>
    (Sink.cleanup (Sink.fill s records) x).2.2 = .done ∧
      Retired records rest (Sink.retire (Sink.fill s records) x) y

/-- The first record is taken first. -/
lemma fill_cons (s : σ) (r : Record) (records : List Record) :
    Sink.fill s (r :: records) = Sink.fill (Sink.consume s r).1 records := rfl

/-- Filling a sink with one more record is handing that record to the filled sink. -/
lemma fill_append_singleton (s : σ) (records : List Record) (r : Record) :
    Sink.fill s (records ++ [r]) = (Sink.consume (Sink.fill s records) r).1 :=
  List.foldl_concat ..

/-- A sink of the first type is filled as such. -/
lemma fill_inl (s : σ) (records : List Record) :
    Sink.fill (.inl s : σ ⊕ τ) records = .inl (Sink.fill s records) :=
  List.foldl_hom Sum.inl fun _ _ => rfl

/-- A sink of the second type is filled as such. -/
lemma fill_inr (t : τ) (records : List Record) :
    Sink.fill (.inr t : σ ⊕ τ) records = .inr (Sink.fill t records) :=
  List.foldl_hom Sum.inr fun _ _ => rfl

/-- **One more sink is finished** in the world that those before it have left. -/
lemma retired_append_singleton {records : List Record} {sinks : List σ} {s : σ} {x y z : ω}
    (h : Retired records sinks x y) (hclean : (Sink.cleanup (Sink.fill s records) y).2.2 = .done)
    (hz : z = Sink.retire (Sink.fill s records) y) : Retired records (sinks ++ [s]) x z := by
  induction sinks generalizing x with
  | nil =>
    cases h
    exact ⟨hclean, hz⟩
  | cons first sinks ih => exact ⟨h.1, ih h.2⟩

/-- **The last sink is finished** in the world that the others have left. -/
lemma Retired.exists_last {records : List Record} {sinks : List σ} {s : σ} {x z : ω}
    (h : Retired records (sinks ++ [s]) x z) :
    ∃ y, (Sink.cleanup (Sink.fill s records) y).2.2 = .done ∧
      z = Sink.retire (Sink.fill s records) y := by
  induction sinks generalizing x with
  | nil => exact ⟨x, h⟩
  | cons first sinks ih => exact ih h.2

end EditIdioms
