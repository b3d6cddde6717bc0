import EditIdioms.Broadcast.Basic
import EditIdioms.Proofs.Execution
import Mathlib.Data.List.Basic

set_option relaxedAutoImplicit false
set_option autoImplicit false

/-!
# Sinks under observation

What a broadcast asks of a sink cannot be read off the sink, which may keep nothing of it. An
observed sink is a sink together with a list of all calls it has had and how each of them ended. It
is a sink again, so everything that holds of a broadcast to sinks of any type holds of observed
ones.

Observation is not noticed by the broadcast: forgetting the calls at the end gives the same as never
having written them down (`Forgets`). A statement about the calls of observed sinks is therefore one
about the calls of the sinks themselves.

## Main definitions

* `Call` — a call of a sink, with its verdict.
* `Observed` — a sink with the calls it has had.
* `Worker.forget`, `Broadcast.forget` — the same without the calls.
* `Forgets` — a computation on observed sinks does what another one does on the sinks.

## Main results

* `forget_step`, `forget_drain` — one worker.
* `forgets_publish`, `forgets_join`, `forgets_close` — the actions of the producer.
-/

namespace EditIdioms

/-- A call of a sink, with how it ended. -/
inductive Call where
  | consume (r : Record) (verdict : Verdict)
  | cleanup (verdict : Verdict)
deriving DecidableEq

namespace Call

/-- How the call ended. -/
def verdict : Call → Verdict
  | consume _ v | cleanup v => v

/-- The call that hands over a record which is taken. -/
def accepted (r : Record) : Call := .consume r .done

@[simp] lemma verdict_consume (r : Record) (v : Verdict) : (consume r v).verdict = v := rfl

@[simp] lemma verdict_cleanup (v : Verdict) : (cleanup v).verdict = v := rfl

end Call

/-- A sink with the calls it has had, the first one first. -/
structure Observed (σ : Type) where
  sink : σ
  calls : List Call := []

variable {σ ω : Type} [Sink σ ω]

instance : Sink (Observed σ) ω where
  name s := Sink.name s.sink
  consume s r :=
    let (sink, v) := Sink.consume s.sink r
    ({ sink, calls := s.calls ++ [.consume r v] }, v)
  cleanup s x :=
    let (sink, x, v) := Sink.cleanup s.sink x
    ({ sink, calls := s.calls ++ [.cleanup v] }, x, v)
  dispose s x := Sink.dispose s.sink x

/-- A sink that has had no calls yet. -/
def Observed.of (s : σ) : Observed σ := { sink := s }

/-! ## One worker -/

namespace Worker

/-- The worker of the sink itself, without the calls. -/
def forget (w : Worker (Observed σ)) : Worker σ :=
  { sink := w.sink.sink, name := w.name, queue := w.queue, consumed := w.consumed,
    ending? := w.ending? }

/-- Handling a message does to the sink what it does to the observed sink. -/
lemma forget_handle (w : Worker (Observed σ)) (world : ω) (m : Message) :
    w.forget.handle world m = ((w.handle world m).1.forget, (w.handle world m).2) := by
  cases m with
  | record r =>
    simp only [handle, Sink.consume, forget]
    rcases hc : Sink.consume w.sink.sink r with ⟨s, v⟩
    cases v <;> rfl
  | stop =>
    simp only [handle, Sink.cleanup, forget]
    rcases hc : Sink.cleanup w.sink.sink world with ⟨s, x, v⟩
    cases v <;> rfl

/-- Taking a message does to the sink what it does to the observed sink. -/
lemma forget_step (w : Worker (Observed σ)) (world : ω) :
    w.forget.step world = ((w.step world).1.forget, (w.step world).2) := by
  unfold step
  have hrun : w.forget.isRunning = w.isRunning := rfl
  have hqueue : w.forget.queue = w.queue := rfl
  rw [hrun, hqueue]
  cases w.isRunning with
  | false => rfl
  | true =>
    cases w.queue with
    | nil => rfl
    | cons m rest => exact forget_handle { w with queue := rest } world m

/-- Taking several messages does to the sink what it does to the observed sink. -/
lemma forget_steps (count : ℕ) (w : Worker (Observed σ)) (world : ω) :
    steps count w.forget world =
      ((steps count w world).1.forget, (steps count w world).2) := by
  induction count generalizing w world with
  | zero => rfl
  | succ count ih =>
    simp only [steps, forget_step]
    exact ih _ _

/-- Taking all messages does to the sink what it does to the observed sink. -/
lemma forget_drain (w : Worker (Observed σ)) (world : ω) :
    w.forget.drain world = ((w.drain world).1.forget, (w.drain world).2) :=
  forget_steps _ w world

/-- A message can be put into the same queues. -/
lemma forget_post? (w : Worker (Observed σ)) (m : Message) :
    w.forget.post? m = (w.post? m).map forget := by
  unfold post?
  have hrun : w.forget.isRunning = w.isRunning := rfl
  rw [hrun]
  cases w.isRunning <;> rfl

end Worker

/-! ## All workers -/

namespace Broadcast

/-- The broadcast to the sinks themselves, without the calls. -/
def forget (b : Broadcast (Observed σ) ω) : Broadcast σ ω :=
  { workers := b.workers.map Worker.forget, world := b.world, clock := b.clock }

/-- A broadcast to observed sinks starts as one to the sinks. -/
lemma forget_start (sinks : List σ) (world : ω) :
    (start (sinks.map Observed.of) world : Broadcast (Observed σ) ω).forget =
      start sinks world := by
  simp only [forget, start, List.map_map]
  rfl

/-- The worker at a position is the same without its calls. -/
@[simp] lemma forget_getElem? (b : Broadcast (Observed σ) ω) (i : ℕ) :
    b.forget.workers[i]? = b.workers[i]?.map Worker.forget := by
  simp [forget]

/-- Putting a worker back can be done before or after forgetting. -/
lemma forget_replace (b : Broadcast (Observed σ) ω) (i : ℕ) (w : Worker (Observed σ)) (x : ω) :
    (b.replace i w x).forget = b.forget.replace i w.forget x := by
  simp [replace, forget, List.map_set]

/-- A step of one worker can be made before or after forgetting. -/
lemma forget_stepAt (b : Broadcast (Observed σ) ω) (i : ℕ) :
    (b.stepAt i).forget = b.forget.stepAt i := by
  unfold stepAt
  rw [forget_getElem?]
  cases b.workers[i]? with
  | none => rfl
  | some w =>
    simp only [Option.map_some, Worker.forget_step]
    exact forget_replace b i _ _

/-- A pause can be made before or after forgetting. -/
lemma forget_pause (schedule : Schedule) (b : Broadcast (Observed σ) ω) :
    (b.pause schedule).forget = b.forget.pause schedule := by
  have hfold : (schedule b.clock).foldl stepAt b.forget =
      ((schedule b.clock).foldl stepAt b).forget :=
    List.foldl_hom forget fun c i => (forget_stepAt c i).symm
  unfold pause
  rw [show b.forget.clock = b.clock from rfl, hfold]
  rfl

/-- A worker can be drained before or after forgetting. -/
lemma forget_drainAt (b : Broadcast (Observed σ) ω) (i : ℕ) :
    (b.drainAt i).forget = b.forget.drainAt i := by
  unfold drainAt
  rw [forget_getElem?]
  cases b.workers[i]? with
  | none => rfl
  | some w =>
    simp only [Option.map_some, Worker.forget_drain]
    exact forget_replace b i _ _

end Broadcast

/-! ## The actions of the producer -/

/-- A computation on observed sinks does what another one does on the sinks. -/
def Forgets {ε α : Type} (c : ExceptT ε (StateM (Broadcast (Observed σ) ω)) α)
    (c' : ExceptT ε (StateM (Broadcast σ ω)) α) : Prop :=
  ∀ b, exec c' b.forget = ((exec c b).1, (exec c b).2.forget)

section Forgets

variable {ε α β : Type}

/-- Giving a value does not look at the sinks, observed or not. -/
lemma forgets_pure (a : α) :
    Forgets (pure a : ExceptT ε (StateM (Broadcast (Observed σ) ω)) α)
      (pure a : ExceptT ε (StateM (Broadcast σ ω)) α) := fun _ => rfl

/-- Throwing a fault does not look at the sinks, observed or not. -/
lemma forgets_throw (e : ε) :
    Forgets (throw e : ExceptT ε (StateM (Broadcast (Observed σ) ω)) α)
      (throw e : ExceptT ε (StateM (Broadcast σ ω)) α) := fun _ => rfl

/-- Passing on an outcome, be it a value or a fault, does not look at the sinks. -/
lemma forgets_liftExcept (x : Except ε α) :
    Forgets (liftExcept x : ExceptT ε (StateM (Broadcast (Observed σ) ω)) α)
      (liftExcept x : ExceptT ε (StateM (Broadcast σ ω)) α) := by
  cases x with
  | ok a => exact forgets_pure a
  | error e => exact forgets_throw e

/-- Computations in sequence do what others do in sequence, if each of them does and the second one
does so for every value. -/
lemma forgets_bind {c : ExceptT ε (StateM (Broadcast (Observed σ) ω)) α}
    {c' : ExceptT ε (StateM (Broadcast σ ω)) α} (hc : Forgets c c')
    {k : α → ExceptT ε (StateM (Broadcast (Observed σ) ω)) β}
    {k' : α → ExceptT ε (StateM (Broadcast σ ω)) β} (hk : ∀ a, Forgets (k a) (k' a)) :
    Forgets (c >>= k) (c' >>= k') := by
  intro b
  rw [exec_bind, exec_bind, hc b]
  rcases exec c b with ⟨x, b'⟩
  cases x with
  | ok a => exact hk a b'
  | error e => rfl

/-- Reading the broadcast and going on. -/
lemma forgets_get_bind
    {k : Broadcast (Observed σ) ω → ExceptT ε (StateM (Broadcast (Observed σ) ω)) α}
    {k' : Broadcast σ ω → ExceptT ε (StateM (Broadcast σ ω)) α}
    (hk : ∀ b, Forgets (k b) (k' b.forget)) : Forgets (get >>= k) (get >>= k') := by
  intro b
  rw [exec_get_bind, exec_get_bind]
  exact hk b b

/-- Changing the broadcast does the same to the sinks, if the observed broadcast is changed to what
forgets to the change of the other. -/
lemma forgets_modify {f : Broadcast (Observed σ) ω → Broadcast (Observed σ) ω}
    {f' : Broadcast σ ω → Broadcast σ ω} (hf : ∀ b, (f b).forget = f' b.forget) :
    Forgets (modify f : ExceptT ε (StateM (Broadcast (Observed σ) ω)) PUnit)
      (modify f' : ExceptT ε (StateM (Broadcast σ ω)) PUnit) := by
  intro b
  rw [exec_modify, exec_modify, hf]

/-- Putting a broadcast in place of the present one. -/
lemma forgets_set (b : Broadcast (Observed σ) ω) :
    Forgets (set b : ExceptT ε (StateM (Broadcast (Observed σ) ω)) PUnit)
      (set b.forget : ExceptT ε (StateM (Broadcast σ ω)) PUnit) := fun _ => rfl

/-- Observing the fault of a computation. -/
lemma forgets_observing {c : ExceptT ε (StateM (Broadcast (Observed σ) ω)) α}
    {c' : ExceptT ε (StateM (Broadcast σ ω)) α} (hc : Forgets c c') :
    Forgets (observing c) (observing c') := by
  intro b
  rw [exec_observing, exec_observing, hc b]

end Forgets

namespace Broadcasting

variable (schedule : Schedule)

/-- Sending a message to a worker, which may stop it, does the same to observed sinks as to the
sinks.

**Proof sketch.** Letting the workers act commutes with forgetting, and so does looking up a worker
and putting a message into its queue. So both computations find a worker that takes the message, or
neither does. In the first case the worker that is put back is forgotten to the one that the other
computation puts back. -/
lemma forgets_post (i : ℕ) (m : Message) :
    Forgets (post schedule i m : Broadcasting (Observed σ) ω Bool) (post schedule i m) := by
  unfold post
  refine forgets_bind (forgets_modify (Broadcast.forget_pause schedule)) fun _ => ?_
  refine forgets_get_bind fun b => ?_
  rw [Broadcast.forget_getElem?]
  have hpost : (b.workers[i]?.map Worker.forget).bind (·.post? m) =
      (b.workers[i]?.bind (·.post? m)).map Worker.forget := by
    cases b.workers[i]? with
    | none => rfl
    | some w => exact w.forget_post? m
  rw [hpost]
  cases b.workers[i]?.bind (·.post? m) with
  | none => exact forgets_pure false
  | some w =>
    refine forgets_bind ?_ fun _ => forgets_pure true
    have hset := Broadcast.forget_replace b i w b.world
    rw [show b.forget.world = b.world from rfl, ← hset]
    exact forgets_set _

/-- Looking up the name of a worker gives the same name, since an observed sink keeps its name. -/
lemma forgets_nameAt (i : ℕ) :
    Forgets (nameAt i : Broadcasting (Observed σ) ω String) (nameAt i) := by
  unfold nameAt
  refine forgets_get_bind fun b => ?_
  rw [Broadcast.forget_getElem?]
  cases b.workers[i]? <;> exact forgets_pure _

/-- Sending a record to some workers. -/
lemma forgets_publishTo (r : Record) (is : List ℕ) :
    Forgets (publishTo schedule r is : Broadcasting (Observed σ) ω Unit)
      (publishTo schedule r is) := by
  induction is with
  | nil => exact forgets_pure ()
  | cons i is ih =>
    unfold publishTo
    refine forgets_bind (forgets_post schedule i _) fun sent => ?_
    cases sent with
    | true => exact ih
    | false => exact forgets_bind (forgets_nameAt i) fun name => forgets_throw _

/-- The number of workers is the same. -/
@[simp] lemma length_forget (b : Broadcast (Observed σ) ω) :
    b.forget.workers.length = b.workers.length := by
  simp [Broadcast.forget]

/-- **Publishing a record** does the same to observed sinks as to the sinks. -/
lemma forgets_publish (r : Record) :
    Forgets (publish schedule r : Broadcasting (Observed σ) ω Unit) (publish schedule r) := by
  unfold publish
  refine forgets_get_bind fun b => ?_
  rw [length_forget]
  exact forgets_publishTo schedule r _

/-- Stopping a worker and waiting for it. -/
lemma forgets_join (i : ℕ) :
    Forgets (join schedule i : Broadcasting (Observed σ) ω Report) (join schedule i) := by
  unfold join
  refine forgets_bind (forgets_post schedule i _) fun _ => ?_
  refine forgets_bind (forgets_modify (Broadcast.forget_pause schedule)) fun _ => ?_
  refine forgets_bind (forgets_modify fun b => b.forget_drainAt i) fun _ => ?_
  refine forgets_get_bind fun b => ?_
  rw [Broadcast.forget_getElem?]
  cases b.workers[i]? with
  | none => exact forgets_throw _
  | some w => exact forgets_liftExcept _

/-- Stopping some workers, one after another, does the same to observed sinks as to the sinks. -/
lemma forgets_joinAll (is : List ℕ) :
    Forgets (joinAll schedule is : Broadcasting (Observed σ) ω (List Report))
      (joinAll schedule is) := by
  induction is with
  | nil => exact forgets_pure []
  | cons i is ih =>
    unfold joinAll
    refine forgets_bind (forgets_observing (forgets_join schedule i)) fun first => ?_
    refine forgets_bind (forgets_observing ih) fun others => ?_
    cases first <;> cases others <;> first | exact forgets_pure _ | exact forgets_throw _

/-- **Stopping all workers** does the same to observed sinks as to the sinks, and reports the
same. -/
lemma forgets_close :
    Forgets (close schedule : Broadcasting (Observed σ) ω (List Report)) (close schedule) := by
  unfold close
  refine forgets_get_bind fun b => ?_
  rw [length_forget]
  exact forgets_joinAll schedule _

end Broadcasting

end EditIdioms
