import EditIdioms.Proofs.Broadcast.Observed

set_option relaxedAutoImplicit false
set_option autoImplicit false

/-!
# How a worker serves its queue

A worker is offered records one after the other and perhaps the stop mark after the last of them. At
any time it is in one of three stages: it is still running, and what its sink has taken together
with what is still in its queue is exactly what it was offered; or its sink did not take some
record, and what came after that record is lost; or it was stopped, and its sink was cleaned up
after the last record. `Served` says so, and every action on the worker keeps it.

## Main definitions

* `Ending.ofRejection`, `Ending.ofCleanup` — how a worker ends, by the verdict of its sink.
* `Worker.Served` — the three stages.

## Main results

* `Served.step`, `Served.drain` — taking messages keeps the stage.
* `Served.post_record`, `Served.post_stop` — a message that is sent is offered.
* `Served.miss_record`, `Served.miss_stop` — so is one that comes too late.
* `Served.isRunning_drain` — a worker that was stopped has ended when it has been drained.
-/

namespace EditIdioms

variable {σ ω : Type} [Sink σ ω]

/-- How a worker ends whose sink did not take the record at a place, counted from one. -/
def Ending.ofRejection (name : String) (place : ℕ) : Verdict → Ending
  | .failed message =>
    .failed ("record " ++ decimalText place ++ " rejected by " ++ name ++ ": " ++ message)
  | _ => .panicked

/-- How a worker ends whose sink was cleaned up. -/
def Ending.ofCleanup (name : String) : Verdict → Ending
  | .done => .finished
  | .failed message => .failed ("cleanup of " ++ name ++ " failed: " ++ message)
  | .panicked => .panicked

namespace Worker

/-- What follows the records in a queue: the stop mark, if the worker was stopped. -/
def stopMark (stopped : Bool) : List Message := if stopped then [.stop] else []

/-- The stages of a worker that was offered records and then, if `stopped`, the stop mark. -/
inductive Served (offered : List Record) (stopped : Bool) (w : Worker (Observed σ)) : Prop
  /-- The worker is running; its sink has taken `done`, and the queue holds the rest. -/
  | running (done pending : List Record) (offered_eq : offered = done ++ pending)
      (calls_eq : w.sink.calls = done.map Call.accepted) (consumed_eq : w.consumed = done.length)
      (queue_eq : w.queue = pending.map .record ++ stopMark stopped) (ending_eq : w.ending? = none)
  /-- The sink has taken `done`, and did not take the record `r` that came next. -/
  | rejected (done : List Record) (r : Record) (lost : List Record) (v : Verdict)
      (offered_eq : offered = done ++ r :: lost) (failed : v ≠ .done)
      (calls_eq : w.sink.calls = done.map Call.accepted ++ [.consume r v])
      (ending_eq : w.ending? = some (.ofRejection w.name (done.length + 1) v))
  /-- The sink has taken all records and was cleaned up. -/
  | cleaned (v : Verdict) (stopped_eq : stopped = true)
      (calls_eq : w.sink.calls = offered.map Call.accepted ++ [.cleanup v])
      (consumed_eq : w.consumed = offered.length)
      (ending_eq : w.ending? = some (.ofCleanup w.name v))

/-! ## Names and endings -/

/-- A worker keeps its name, whatever message it handles. -/
@[simp] lemma name_handle (w : Worker σ) (world : ω) (m : Message) :
    (w.handle world m).1.name = w.name := by
  cases m <;> simp only [handle] <;> split <;> rfl

/-- A worker keeps its name when it takes a message. -/
@[simp] lemma name_step (w : Worker σ) (world : ω) : (w.step world).1.name = w.name := by
  unfold step
  split
  · split
    · rfl
    · exact name_handle _ _ _
  · rfl

/-- A worker keeps its name when it takes several messages. -/
lemma name_steps (count : ℕ) (w : Worker σ) (world : ω) :
    (steps count w world).1.name = w.name := by
  induction count generalizing w world with
  | zero => rfl
  | succ count ih => exact (ih _ _).trans (name_step w world)

/-- A worker keeps its name when it takes all messages. -/
@[simp] lemma name_drain (w : Worker σ) (world : ω) : (w.drain world).1.name = w.name :=
  name_steps _ w world

/-- A worker keeps its name when a message is sent to it. -/
lemma name_post? {w w' : Worker σ} {m : Message} (h : w.post? m = some w') : w'.name = w.name := by
  unfold post? at h
  split at h
  · cases h; rfl
  · cases h

/-- A worker that has ended takes no message. -/
lemma step_of_ended {w : Worker σ} (h : w.isRunning = false) (world : ω) :
    w.step world = (w, world) := by
  simp [step, h]

/-- Taking one more message is taking one first. -/
lemma steps_succ (count : ℕ) (w : Worker σ) (world : ω) :
    steps (count + 1) w world = steps count (w.step world).1 (w.step world).2 := rfl

/-- A worker that has ended takes no messages. -/
lemma steps_of_ended {w : Worker σ} (h : w.isRunning = false) (count : ℕ) (world : ω) :
    steps count w world = (w, world) := by
  induction count with
  | zero => rfl
  | succ count ih => rw [steps_succ, step_of_ended h]; exact ih

/-- Nothing can be sent to a worker exactly when it has ended. -/
lemma post?_eq_none_iff (w : Worker σ) (m : Message) :
    w.post? m = none ↔ w.isRunning = false := by
  unfold post?
  cases w.isRunning <;> simp

/-- A worker that has not ended after a message has only taken that message off its queue. -/
lemma queue_handle (w : Worker σ) (world : ω) (m : Message)
    (h : (w.handle world m).1.isRunning = true) : (w.handle world m).1.queue = w.queue := by
  cases m <;> simp only [handle] at h ⊢ <;> split at h <;> first | rfl | cases h

/-- A worker that has not ended after a step has taken the first message off its queue. -/
lemma queue_step (w : Worker σ) (world : ω) (h : (w.step world).1.isRunning = true) :
    (w.step world).1.queue = w.queue.tail := by
  cases hw : w.isRunning with
  | false => rw [step_of_ended hw, hw] at h; cases h
  | true =>
    unfold step at h ⊢
    rw [hw] at h ⊢
    cases hq : w.queue with
    | nil => exact hq
    | cons m rest =>
      rw [hq] at h
      exact queue_handle _ world m h

/-! ## The stages -/

namespace Served

variable {offered : List Record} {stopped : Bool} {w : Worker (Observed σ)}

/-- A new worker has not been offered anything. -/
lemma start (s : σ) : Served [] false { sink := Observed.of s : Worker (Observed σ) } :=
  .running [] [] rfl rfl rfl rfl rfl

/-- A running worker is in the first stage. -/
lemma of_isRunning (h : Served offered stopped w) (hw : w.isRunning = true) :
    ∃ done pending, offered = done ++ pending ∧ w.sink.calls = done.map Call.accepted ∧
      w.consumed = done.length ∧ w.queue = pending.map .record ++ stopMark stopped ∧
      w.ending? = none := by
  cases h with
  | running done pending ho hc hn hq he => exact ⟨done, pending, ho, hc, hn, hq, he⟩
  | rejected done r lost v ho hv hc he => simp [isRunning, he] at hw
  | cleaned v hs hc hn he => simp [isRunning, he] at hw

/-- A sink that is handed the next record takes it or ends the worker. -/
lemma handle_record {done pending : List Record} {r : Record}
    (ho : offered = done ++ r :: pending) (hc : w.sink.calls = done.map Call.accepted)
    (hn : w.consumed = done.length) (hq : w.queue = pending.map .record ++ stopMark stopped)
    (he : w.ending? = none) (world : ω) :
    Served offered stopped (w.handle world (.record r)).1 := by
  simp only [handle, Sink.consume]
  rcases Sink.consume w.sink.sink r with ⟨s, v⟩
  cases v with
  | done =>
    refine .running (done ++ [r]) pending (by simp [ho]) ?_ (by simp [hn]) hq he
    simp [hc, Call.accepted]
  | failed message =>
    refine .rejected done r pending (.failed message) ho (by simp) (by simp [hc, finish]) ?_
    simp [finish, Ending.ofRejection, hn]
  | panicked =>
    refine .rejected done r pending .panicked ho (by simp) (by simp [hc, finish]) ?_
    simp [finish, Ending.ofRejection]

/-- The stop mark cleans the sink up and ends the worker. -/
lemma handle_stop (hs : stopped = true) (hc : w.sink.calls = offered.map Call.accepted)
    (hn : w.consumed = offered.length) (world : ω) :
    Served offered stopped (w.handle world .stop).1 := by
  simp only [handle, Sink.cleanup]
  rcases Sink.cleanup w.sink.sink world with ⟨s, x, v⟩
  refine .cleaned v hs ?_ ?_ ?_
  · cases v <;> simp [hc, finish]
  · cases v <;> simp [hn, finish]
  · cases v <;> rfl

/-- Taking a message keeps the stage.

**Proof sketch.** A worker that has ended does nothing. One that is running has taken the records
`done`, and its queue holds the records that are pending and perhaps a stop mark behind them. If a
record is pending it is taken (`handle_record`). If none is, either the queue is empty and nothing
happens, or the stop mark is taken when all that was offered has been (`handle_stop`). -/
lemma step (h : Served offered stopped w) (world : ω) :
    Served offered stopped (w.step world).1 := by
  cases hw : w.isRunning with
  | false => rwa [step_of_ended hw]
  | true =>
    obtain ⟨done, pending, ho, hc, hn, hq, he⟩ := h.of_isRunning hw
    unfold Worker.step
    rw [hw, hq]
    cases pending with
    | cons r pending =>
      exact handle_record (w := { w with queue := pending.map .record ++ stopMark stopped })
        ho hc hn rfl he world
    | nil =>
      cases stopped with
      | false => exact h
      | true =>
        rw [List.append_nil] at ho
        exact handle_stop rfl (by rw [ho]; exact hc) (by rw [ho]; exact hn) world

/-- Taking several messages keeps the stage. -/
lemma steps (h : Served offered stopped w) (count : ℕ) (world : ω) :
    Served offered stopped (steps count w world).1 := by
  induction count generalizing w world with
  | zero => exact h
  | succ count ih => exact ih (h.step world) _

/-- Taking all messages keeps the stage. -/
lemma drain (h : Served offered stopped w) (world : ω) :
    Served offered stopped (w.drain world).1 := h.steps _ world

/-- A record that is sent is offered. -/
lemma post_record (h : Served offered false w) {r : Record} {w' : Worker (Observed σ)}
    (hp : w.post? (.record r) = some w') : Served (offered ++ [r]) false w' := by
  unfold post? at hp
  split at hp
  · rename_i hw
    obtain ⟨done, pending, ho, hc, hn, hq, he⟩ := h.of_isRunning hw
    cases hp
    exact .running done (pending ++ [r]) (by simp [ho]) hc hn (by simp [hq, stopMark]) he
  · cases hp

/-- A stop mark that is sent stops the worker. -/
lemma post_stop (h : Served offered false w) {w' : Worker (Observed σ)}
    (hp : w.post? .stop = some w') : Served offered true w' := by
  unfold post? at hp
  split at hp
  · rename_i hw
    obtain ⟨done, pending, ho, hc, hn, hq, he⟩ := h.of_isRunning hw
    cases hp
    exact .running done pending ho hc hn (by simp [hq, stopMark]) he
  · cases hp

/-- A worker that has ended without being stopped did not take some record. -/
lemma of_ended (h : Served offered false w) (hw : w.isRunning = false) :
    ∃ done r lost v, offered = done ++ r :: lost ∧ v ≠ .done ∧
      w.sink.calls = done.map Call.accepted ++ [.consume r v] ∧
      w.ending? = some (.ofRejection w.name (done.length + 1) v) := by
  cases h with
  | running done pending ho hc hn hq he => simp [isRunning, he] at hw
  | rejected done r lost v ho hv hc he => exact ⟨done, r, lost, v, ho, hv, hc, he⟩
  | cleaned v hs hc hn he => cases hs

/-- A record that comes too late makes no difference. -/
lemma miss_record (h : Served offered false w) (hw : w.isRunning = false) (r : Record) :
    Served (offered ++ [r]) false w := by
  obtain ⟨done, r', lost, v, ho, hv, hc, he⟩ := h.of_ended hw
  exact .rejected done r' (lost ++ [r]) v (by simp [ho]) hv hc he

/-- A stop mark that comes too late makes no difference. -/
lemma miss_stop (h : Served offered false w) (hw : w.isRunning = false) :
    Served offered true w := by
  obtain ⟨done, r, lost, v, ho, hv, hc, he⟩ := h.of_ended hw
  exact .rejected done r lost v ho hv hc he

/-- A worker that was stopped and is running has something in its queue. -/
lemma queue_ne_nil (h : Served offered true w) (hw : w.isRunning = true) : w.queue ≠ [] := by
  obtain ⟨done, pending, ho, hc, hn, hq, he⟩ := h.of_isRunning hw
  simp [hq, stopMark]

/-- Taking as many messages as there are ends a worker that was stopped. -/
lemma isRunning_steps (h : Served offered true w) (count : ℕ) (hq : w.queue.length ≤ count)
    (world : ω) : (Worker.steps count w world).1.isRunning = false := by
  induction count generalizing w world with
  | zero =>
    cases hw : w.isRunning with
    | false => exact hw
    | true => exact absurd (List.eq_nil_of_length_eq_zero (by omega)) (h.queue_ne_nil hw)
  | succ count ih =>
    rw [steps_succ]
    cases hs : (w.step world).1.isRunning with
    | false => rw [steps_of_ended hs]; exact hs
    | true =>
      refine ih (h.step world) ?_ _
      rw [queue_step w world hs, List.length_tail]
      omega

/-- A worker that was stopped has ended when it has been drained. -/
lemma isRunning_drain (h : Served offered true w) (world : ω) :
    (w.drain world).1.isRunning = false := h.isRunning_steps _ (Nat.le_refl _) world

end Served

end Worker

end EditIdioms
