import EditIdioms.Proofs.Broadcast.Filled
import EditIdioms.Proofs.Broadcast.Session

set_option relaxedAutoImplicit false
set_option autoImplicit false

/-!
# What a session leaves behind

The sinks of a broadcast share a world, and cleaning one up may change it. When no call fails, this
happens in the order of registration whatever the schedule: while records are published no worker
ends, and when the broadcast is closed a worker is stopped only after the one before it has ended.
So a quiet session changes the world as finishing the filled sinks one after the other does.

## Main definitions

* `Worker.From` — the sink of a worker has come from another one by the records it has taken.
* `Worker.Moves` — what messages do to the world.
* `Broadcast.Finishing` — the workers before a position have been stopped, and the world is the one
  that the finished sinks have left.

## Main results

* `Served.moves_steps` — what taking messages does to the world.
* `Finishing.pause`, `Finishing.drainAt` — the workers' own steps.
* `finishing_publishInTurn`, `finishing_join` — the actions of the producer.
* `session_world` — the world after a quiet session.
-/

namespace EditIdioms

open Broadcast Broadcasting

variable {σ ω : Type} [Sink σ ω]

/-! ## One worker -/

namespace Worker

/-- The sink has come from `s` by the records that it has taken. -/
def From (s : σ) (w : Worker (Observed σ)) : Prop :=
  ∀ done : List Record, w.sink.calls = done.map Call.accepted → w.sink.sink = Sink.fill s done

/-- Handing a record to a worker is handing it to its sink. -/
lemma sink_handle_record (w : Worker σ) (world : ω) (r : Record) :
    (w.handle world (.record r)).1.sink = (Sink.consume w.sink r).1 := by
  simp only [handle]
  rcases Sink.consume w.sink r with ⟨s, v⟩
  cases v <;> rfl

/-- Stopping a worker is cleaning its sink up. -/
lemma sink_handle_stop (w : Worker σ) (world : ω) :
    (w.handle world .stop).1.sink = (Sink.cleanup w.sink world).1 := by
  simp only [handle]
  rcases Sink.cleanup w.sink world with ⟨s, x, v⟩
  cases v <;> rfl

/-- Taking a message, the sink comes from where it came from.

**Proof sketch.** A stop mark adds a cleanup to the calls, so these are not accepted records, and
nothing is claimed. A record adds one call. If the calls are now the accepted records `done`, then
`done` ends with this record, the calls before were the accepted records before it, and from those
the sink is told by assumption. -/
lemma From.handle {s : σ} {w : Worker (Observed σ)} (h : w.From s) (world : ω) (m : Message) :
    (w.handle world m).1.From s := by
  intro done hcalls
  cases m with
  | stop =>
    rw [sink_handle_stop] at hcalls
    change w.sink.calls ++ [Call.cleanup _] = _ at hcalls
    rcases List.eq_nil_or_concat done with rfl | ⟨front, r, rfl⟩
    · simp at hcalls
    · simp [Call.accepted] at hcalls
  | record r =>
    rw [sink_handle_record] at hcalls ⊢
    change w.sink.calls ++ [Call.consume r _] = _ at hcalls
    rcases List.eq_nil_or_concat done with rfl | ⟨front, r', rfl⟩
    · simp at hcalls
    · rw [List.concat_eq_append, List.map_append, List.map_singleton] at hcalls
      obtain ⟨hfront, hcall⟩ := List.append_inj' hcalls rfl
      obtain ⟨rfl, -⟩ := Call.consume.inj (List.singleton_inj.mp hcall)
      rw [List.concat_eq_append, fill_append_singleton, ← h front hfront]
      rfl

/-- Taking the next message, the sink comes from where it came from. -/
lemma From.step {s : σ} {w : Worker (Observed σ)} (h : w.From s) (world : ω) :
    (w.step world).1.From s := by
  unfold Worker.step
  split
  · split
    · exact h
    · rename_i message rest _
      exact From.handle (w := { w with queue := rest }) h world message
  · exact h

/-- Taking several messages, the sink comes from where it came from. -/
lemma From.steps {s : σ} {w : Worker (Observed σ)} (h : w.From s) (count : ℕ) (world : ω) :
    (steps count w world).1.From s := by
  induction count generalizing w world with
  | zero => exact h
  | succ count ih => exact ih (h.step world) _

/-- A message is put into the queue of a worker that is running and goes on with its sink. -/
lemma of_post? {w w' : Worker σ} {m : Message} (h : w.post? m = some w') :
    w.isRunning = true ∧ w'.isRunning = w.isRunning ∧ w'.sink = w.sink := by
  unfold post? at h
  split at h
  · rename_i hrunning
    cases h
    exact ⟨hrunning, rfl, rfl⟩
  · cases h

/-- What a worker, whose sink came from `s` and was offered records, does to the world when it takes
messages without a failure: nothing, or it is stopped and retires its sink. -/
inductive Moves (s : σ) (offered : List Record) (stopped : Bool) (w w' : Worker (Observed σ))
    (world world' : ω) : Prop
  | still (running_eq : w'.isRunning = w.isRunning) (world_eq : world' = world)
  | retires (stopped_eq : stopped = true) (running : w.isRunning = true)
      (ended : w'.isRunning = false)
      (cleaned : (Sink.cleanup (Sink.fill s offered) world).2.2 = .done)
      (world_eq : world' = Sink.retire (Sink.fill s offered) world)

variable {s : σ} {offered : List Record} {stopped : Bool} {w : Worker (Observed σ)}

/-- A record that is taken leaves the world alone. -/
lemma moves_handle_record (world : ω) (r : Record)
    (hquiet : ∀ call ∈ (w.handle world (.record r)).1.sink.calls, call.verdict = .done) :
    (w.handle world (.record r)).1.isRunning = w.isRunning ∧
      (w.handle world (.record r)).2 = world := by
  revert hquiet
  simp only [handle, Sink.consume]
  rcases Sink.consume w.sink.sink r with ⟨s', v⟩
  cases v with
  | done => exact fun _ => ⟨rfl, rfl⟩
  | failed message =>
    intro hquiet
    cases hquiet (.consume r (.failed message)) (by simp [finish])
  | panicked =>
    intro hquiet
    cases hquiet (.consume r .panicked) (by simp [finish])

/-- The stop mark retires the sink. -/
lemma moves_handle_stop (world : ω)
    (hquiet : ∀ call ∈ (w.handle world .stop).1.sink.calls, call.verdict = .done) :
    (w.handle world .stop).1.isRunning = false ∧
      (Sink.cleanup w.sink.sink world).2.2 = .done ∧
      (w.handle world .stop).2 = Sink.retire w.sink.sink world := by
  revert hquiet
  unfold Sink.retire
  simp only [handle, Sink.cleanup]
  rcases Sink.cleanup w.sink.sink world with ⟨s', x, v⟩
  cases v with
  | done => exact fun _ => ⟨rfl, rfl, rfl⟩
  | failed message =>
    intro hquiet
    cases hquiet (.cleanup (.failed message)) (by simp [finish])
  | panicked =>
    intro hquiet
    cases hquiet (.cleanup .panicked) (by simp [finish])

/-- No call of a running worker failed. -/
lemma Served.quiet_of_isRunning (h : Served offered stopped w) (hw : w.isRunning = true) :
    ∀ call ∈ w.sink.calls, call.verdict = .done := by
  obtain ⟨done, pending, -, hc, -⟩ := h.of_isRunning hw
  rw [hc]
  intro call hcall
  obtain ⟨r, -, rfl⟩ := List.mem_map.mp hcall
  rfl

/-- Taking a message changes the world only if it is the stop mark.

**Proof sketch.** By what stands in front of the queue. A worker that has ended, or whose queue is
empty, does nothing. A record is taken without a failure, so the worker goes on and the world is as
it was (`moves_handle_record`). The stop mark is taken behind all records, so the sink that is
cleaned up is the one that was filled with all of them, by `From`, and the worker retires
(`moves_handle_stop`). -/
lemma Served.moves_step (h : Served offered stopped w) (hfrom : w.From s) (world : ω)
    (hquiet : ∀ call ∈ (w.step world).1.sink.calls, call.verdict = .done) :
    Moves s offered stopped w (w.step world).1 world (w.step world).2 := by
  cases hw : w.isRunning with
  | false =>
    rw [step_of_ended hw]
    exact .still rfl rfl
  | true =>
    obtain ⟨done, pending, ho, hc, -, hq, -⟩ := h.of_isRunning hw
    cases pending with
    | cons r pending =>
      have hstep : w.step world =
          { w with queue := pending.map Message.record ++ stopMark stopped }.handle world
            (.record r) := by
        rw [Worker.step, hw, if_pos rfl, hq]
        rfl
      rw [hstep] at hquiet ⊢
      obtain ⟨hrunning, hworld⟩ := moves_handle_record world r hquiet
      exact .still hrunning hworld
    | nil =>
      rw [List.append_nil] at ho
      subst ho
      cases stopped with
      | false =>
        have hstep : w.step world = (w, world) := by
          rw [Worker.step, hw, if_pos rfl, hq]
          rfl
        rw [hstep]
        exact .still rfl rfl
      | true =>
        have hstep : w.step world = { w with queue := [] }.handle world .stop := by
          rw [Worker.step, hw, if_pos rfl, hq]
          rfl
        rw [hstep] at hquiet ⊢
        obtain ⟨hended, hclean, hworld⟩ := moves_handle_stop world hquiet
        have hsink : w.sink.sink = Sink.fill s offered := hfrom offered hc
        exact .retires rfl hw hended (hsink ▸ hclean) (hsink ▸ hworld)

/-- **Taking messages** changes the world only if the stop mark is among them.

**Proof sketch.** Induction on the number of messages. A worker that has ended does nothing more,
and before that no call has failed. -/
lemma Served.moves_steps (h : Served offered stopped w) (hfrom : w.From s) (count : ℕ) (world : ω)
    (hquiet : ∀ call ∈ (Worker.steps count w world).1.sink.calls, call.verdict = .done) :
    Moves s offered stopped w (Worker.steps count w world).1 world
      (Worker.steps count w world).2 := by
  induction count generalizing w world with
  | zero => exact .still rfl rfl
  | succ count ih =>
    rw [steps_succ] at hquiet ⊢
    cases hstep : (w.step world).1.isRunning with
    | false =>
      rw [steps_of_ended hstep] at hquiet ⊢
      exact h.moves_step hfrom world hquiet
    | true =>
      have hfirst := h.moves_step hfrom world ((h.step world).quiet_of_isRunning hstep)
      have hrest := ih (h.step world) (hfrom.step world) _ hquiet
      cases hfirst with
      | retires hstopped hrunning hended =>
        rw [hended] at hstep
        cases hstep
      | still hrunning hworld =>
        rw [hworld] at hrest ⊢
        cases hrest with
        | still hrunning' hworld' => exact .still (hrunning'.trans hrunning) hworld'
        | retires hstopped hrunning' hended hclean hworld' =>
          exact .retires hstopped (hrunning.symm.trans hrunning') hended hclean hworld'

end Worker

/-! ## All workers -/

namespace Broadcast

variable {names : List String} {offered : ℕ → List Record} {stopped : ℕ → Bool}

/-- A broadcast in which a call failed is not quiet later. -/
lemma quiet_of_later {b b' : Broadcast (Observed σ) ω} (h : b.Tracks names offered stopped)
    (hlater : Later b b') (hquiet : b'.Quiet) : b.Quiet := by
  intro w hw
  obtain ⟨i, hi⟩ := List.mem_iff_getElem?.mp hw
  cases hrunning : w.isRunning with
  | true => exact (h.served i w hi).quiet_of_isRunning hrunning
  | false => exact hquiet w (List.mem_of_getElem? (hlater i w hi hrunning))

/-- How far the workers have got when those before position `q` have been stopped: as long as no
call has failed, the first ones have ended, all or all but one of those that were stopped, and the
world is the one that their sinks have left. -/
structure Finishing (sinks : List σ) (records : List Record) (world : ω)
    (offered : ℕ → List Record) (q : ℕ) (b : Broadcast (Observed σ) ω) : Prop where
  tracks : b.Tracks (sinks.map Sink.name) offered fun i => decide (i < q)
  offered_eq : ∀ i < q, offered i = records
  from_eq : ∀ (i : ℕ) (w : Worker (Observed σ)) (s : σ), b.workers[i]? = some w →
    sinks[i]? = some s → w.From s
  order : b.Quiet → ∃ k, k ≤ q ∧ q ≤ k + 1 ∧
    (∀ (i : ℕ) (w : Worker (Observed σ)), b.workers[i]? = some w →
      (w.isRunning = false ↔ i < k)) ∧
    Retired records (sinks.take k) world b.world

/-- Putting a worker back that has not ended meanwhile leaves the same workers ended. -/
lemma ended_replace {b : Broadcast (Observed σ) ω} {p : ℕ} {w w' : Worker (Observed σ)}
    (hw : b.workers[p]? = some w) (hrunning : w'.isRunning = w.isRunning) {P : ℕ → Prop}
    (h : ∀ (i : ℕ) (v : Worker (Observed σ)), b.workers[i]? = some v → (v.isRunning = false ↔ P i))
    (x : ω) (i : ℕ) (v : Worker (Observed σ)) (hv : (b.replace p w' x).workers[i]? = some v) :
    v.isRunning = false ↔ P i := by
  rw [getElem?_replace] at hv
  by_cases hpi : p = i
  · subst hpi
    rw [if_pos rfl, hw] at hv
    cases hv
    rw [hrunning]
    exact h p w hw
  · rw [if_neg hpi] at hv
    exact h i v hv

/-- Workers before a position have ended. -/
def EndedBefore (b : Broadcast (Observed σ) ω) (q : ℕ) : Prop :=
  ∀ (i : ℕ) (w : Worker (Observed σ)), i < q → b.workers[i]? = some w → w.isRunning = false

/-- What has ended before stays so. -/
lemma EndedBefore.later {b b' : Broadcast (Observed σ) ω} {q : ℕ} (h : b.EndedBefore q)
    (hlater : Later b b') (hlength : b'.workers.length = b.workers.length) :
    b'.EndedBefore q := by
  intro i w' hi hw'
  obtain ⟨hlt, -⟩ := List.getElem?_eq_some_iff.mp hw'
  have hw := List.getElem?_eq_getElem (l := b.workers) (i := i) (by omega)
  have hended := h i _ hi hw
  obtain rfl := Option.some.inj ((hlater i _ hw hended).symm.trans hw')
  exact hended

namespace Finishing

variable {sinks : List σ} {records : List Record} {world : ω} {q : ℕ}
  {b : Broadcast (Observed σ) ω}

/-- There is a sink for each worker. -/
lemma exists_sink (h : b.Finishing sinks records world offered q) {p : ℕ}
    {w : Worker (Observed σ)} (hw : b.workers[p]? = some w) : ∃ s, sinks[p]? = some s := by
  obtain ⟨hp, -⟩ := List.getElem?_eq_some_iff.mp hw
  rw [h.tracks.length_eq, List.length_map] at hp
  exact ⟨_, List.getElem?_eq_getElem hp⟩

/-- Putting a worker back whose sink comes from where it came from. -/
lemma from_replace (h : b.Finishing sinks records world offered q) {p : ℕ}
    {w w' : Worker (Observed σ)} (hw : b.workers[p]? = some w) (hfrom : ∀ s, w.From s → w'.From s)
    (x : ω) (i : ℕ) (v : Worker (Observed σ)) (s : σ)
    (hv : (b.replace p w' x).workers[i]? = some v) (hs : sinks[i]? = some s) : v.From s := by
  rw [getElem?_replace] at hv
  by_cases hpi : p = i
  · subst hpi
    rw [if_pos rfl, hw] at hv
    cases hv
    exact hfrom s (h.from_eq p w s hw hs)
  · rw [if_neg hpi] at hv
    exact h.from_eq i v s hv hs

/-- **A worker takes messages.** If it is stopped by them, its turn has come.

**Proof sketch.** A worker that is stopped was running, so it is not among the first `k`, which have
ended; and only workers up to the next one have been stopped. -/
lemma move (h : b.Finishing sinks records world offered q) {p : ℕ} {w w' : Worker (Observed σ)}
    {x : ω} (hw : b.workers[p]? = some w) (hlater : Later b (b.replace p w' x))
    (htracks : (b.replace p w' x).Tracks (sinks.map Sink.name) offered fun i => decide (i < q))
    (hfrom : ∀ s, w.From s → w'.From s)
    (hmoves : ∀ s, w.From s → (∀ call ∈ w'.sink.calls, call.verdict = .done) →
      Worker.Moves s (offered p) (decide (p < q)) w w' b.world x) :
    (b.replace p w' x).Finishing sinks records world offered q := by
  refine ⟨htracks, h.offered_eq, h.from_replace hw hfrom x, fun hquiet => ?_⟩
  obtain ⟨k, hkq, hqk, hended, hworld⟩ := h.order (quiet_of_later h.tracks hlater hquiet)
  obtain ⟨s, hs⟩ := h.exists_sink hw
  have hself : (b.replace p w' x).workers[p]? = some w' := by
    rw [getElem?_replace, if_pos rfl, hw]
    rfl
  cases hmoves s (h.from_eq p w s hw hs) (hquiet w' (List.mem_of_getElem? hself)) with
  | still hrunning hx =>
    refine ⟨k, hkq, hqk, ended_replace hw hrunning hended x, ?_⟩
    change Retired records _ world x
    rw [hx]
    exact hworld
  | retires hstopped hrunning hend hclean hx =>
    have hpq : p < q := of_decide_eq_true hstopped
    have hkp : ¬ p < k := fun hlt => by
      rw [(hended p w hw).mpr hlt] at hrunning
      cases hrunning
    obtain rfl : p = k := by omega
    refine ⟨p + 1, by omega, by omega, fun i v hv => ?_, ?_⟩
    · by_cases hi : i = p
      · subst hi
        obtain rfl := Option.some.inj (hself.symm.trans hv)
        exact iff_of_true hend (Nat.lt_succ_self i)
      · rw [getElem?_replace, if_neg (Ne.symm hi)] at hv
        rw [hended i v hv]
        omega
    · rw [List.take_add_one, hs]
      rw [h.offered_eq p hpq] at hclean hx
      exact retired_append_singleton hworld hclean hx

/-- What is known of the workers while some of them are stopped is kept when one takes a message. -/
lemma stepAt (h : b.Finishing sinks records world offered q) (p : ℕ) :
    (b.stepAt p).Finishing sinks records world offered q := by
  have htracks := h.tracks.stepAt p
  have hlater := later_stepAt b p
  unfold Broadcast.stepAt at htracks hlater ⊢
  cases hw : b.workers[p]? with
  | none => exact h
  | some w =>
    rw [hw] at htracks hlater
    exact h.move hw hlater htracks (fun s hs => hs.step b.world)
      fun s hs => (h.tracks.served p w hw).moves_step hs b.world

/-- A worker takes all its messages. -/
lemma drainAt (h : b.Finishing sinks records world offered q) (p : ℕ) :
    (b.drainAt p).Finishing sinks records world offered q := by
  have htracks := h.tracks.drainAt p
  have hlater := later_drainAt b p
  unfold Broadcast.drainAt at htracks hlater ⊢
  cases hw : b.workers[p]? with
  | none => exact h
  | some w =>
    rw [hw] at htracks hlater
    exact h.move hw hlater htracks (fun s hs => hs.steps _ b.world)
      fun s hs => (h.tracks.served p w hw).moves_steps hs _ b.world

/-- The workers take messages as the schedule says. -/
lemma pause (h : b.Finishing sinks records world offered q) (schedule : Schedule) :
    (b.pause schedule).Finishing sinks records world offered q := by
  refine pause_induction (P := fun c => c.Finishing sinks records world offered q) h ?_ ?_ schedule
  · exact fun c p hc => hc.stepAt p
  · exact fun c n hc => ⟨⟨hc.tracks.names_eq, hc.tracks.served⟩, hc.offered_eq, hc.from_eq,
      hc.order⟩

/-- A message is put into the queue of a worker. -/
lemma post (h : b.Finishing sinks records world offered q) {p : ℕ} {w w' : Worker (Observed σ)}
    {m : Message} (hw : b.workers[p]? = some w) (hpost : w.post? m = some w')
    {offered' : ℕ → List Record} {q' : ℕ}
    (htracks : (b.replace p w' b.world).Tracks (sinks.map Sink.name) offered'
      fun i => decide (i < q'))
    (hoffered : ∀ i < q', offered' i = records)
    (hturn : ∀ k, k ≤ q → q ≤ k + 1 → (∀ (i : ℕ) (v : Worker (Observed σ)),
      b.workers[i]? = some v → (v.isRunning = false ↔ i < k)) → k ≤ q' ∧ q' ≤ k + 1) :
    (b.replace p w' b.world).Finishing sinks records world offered' q' := by
  obtain ⟨hrunning, hsame, hsink⟩ := Worker.of_post? hpost
  have hlater : Later b (b.replace p w' b.world) :=
    later_replace hw (fun he => absurd hrunning (by rw [he]; exact Bool.false_ne_true)) _
  have hfrom (s : σ) (hs : w.From s) : w'.From s := by
    unfold Worker.From
    rw [hsink]
    exact hs
  refine ⟨htracks, hoffered, h.from_replace hw hfrom _, fun hquiet => ?_⟩
  obtain ⟨k, hkq, hqk, hended, hworld⟩ := h.order (quiet_of_later h.tracks hlater hquiet)
  obtain ⟨hkq', hqk'⟩ := hturn k hkq hqk hended
  exact ⟨k, hkq', hqk', ended_replace hw hsame hended _, hworld⟩

end Finishing

/-- Before anything has happened no worker was stopped.

**Proof sketch.** No record was sent, no worker has made a call, and none was stopped. So the sink
of each worker is the one it was started with, filled with no records. None has ended, so of the
sinks the first zero have retired, and the world is the one at the start. -/
lemma finishing_start (sinks : List σ) (records : List Record) (world : ω) :
    (start (sinks.map Observed.of) world : Broadcast (Observed σ) ω).Finishing sinks records world
      (fun _ => []) 0 := by
  have hworker (i : ℕ) (w : Worker (Observed σ))
      (hw : (start (sinks.map Observed.of) world : Broadcast (Observed σ) ω).workers[i]? =
        some w) : ∃ s, sinks[i]? = some s ∧ w = { sink := Observed.of s } := by
    simp only [start, List.map_map, List.getElem?_map, Option.map_eq_some_iff] at hw
    obtain ⟨s, hs, rfl⟩ := hw
    exact ⟨s, hs, rfl⟩
  refine ⟨(tracks_start sinks world).congr (fun _ _ => rfl) fun i _ =>
      (decide_eq_false (Nat.not_lt_zero i)).symm, fun i hi => absurd hi (Nat.not_lt_zero i), ?_,
    fun _ => ⟨0, Nat.le_refl 0, Nat.zero_le 1, fun i w hw => ?_, rfl⟩⟩
  · intro i w s hw hs done hcalls
    obtain ⟨s', hs', rfl⟩ := hworker i w hw
    obtain rfl := Option.some.inj (hs.symm.trans hs')
    obtain rfl := List.map_eq_nil_iff.mp hcalls.symm
    rfl
  · obtain ⟨s, -, rfl⟩ := hworker i w hw
    exact iff_of_false Bool.noConfusion (Nat.not_lt_zero i)

end Broadcast

/-! ## The actions of the producer -/

namespace Broadcasting

variable {sinks : List σ} {records : List Record} {world : ω} (schedule : Schedule)

/-- Sending a record stops no worker. -/
lemma finishing_post_record {b : Broadcast (Observed σ) ω} {offered : ℕ → List Record}
    (h : b.Finishing sinks records world offered 0) (p : ℕ) (r : Record) :
    ∃ offered', (exec (post schedule p (.record r)) b).2.Finishing sinks records world
      offered' 0 := by
  have hpause := h.pause schedule
  rw [exec_post]
  cases hbind : (b.pause schedule).workers[p]?.bind (·.post? (.record r)) with
  | none => exact ⟨offered, hpause⟩
  | some w' =>
    obtain ⟨w, hw, hpost⟩ := Option.bind_eq_some_iff.mp hbind
    have hserved := hpause.tracks.served p w hw
    rw [decide_eq_false (Nat.not_lt_zero p)] at hserved
    refine ⟨fun i => if i = p then offered i ++ [r] else offered i, hpause.post hw hpost ?_
      (fun i hi => absurd hi (Nat.not_lt_zero i)) fun k hk hk' _ => ⟨hk, hk'⟩⟩
    refine hpause.tracks.replace hw (Worker.name_post? hpost) ?_ (fun i hi => (if_neg hi).symm)
      (fun _ _ => rfl) _
    rw [if_pos rfl, decide_eq_false (Nat.not_lt_zero p)]
    exact hserved.post_record hpost

/-- Sending a record to some workers stops no worker.

**Proof sketch.** Induction on the positions. Sending to one worker keeps what is known of all of
them (`finishing_post_record`), whether the record is taken or not. If it is not, publishing ends
with a fault, for which only the name of the worker is looked up. -/
lemma finishing_publishTo (r : Record) (positions : List ℕ) {b : Broadcast (Observed σ) ω}
    {offered : ℕ → List Record} (h : b.Finishing sinks records world offered 0) :
    ∃ offered', (exec (publishTo schedule r positions) b).2.Finishing sinks records world
      offered' 0 := by
  induction positions generalizing b offered with
  | nil => exact ⟨offered, h⟩
  | cons p rest ih =>
    obtain ⟨offered', h'⟩ := finishing_post_record schedule h p r
    unfold publishTo
    rw [exec_bind]
    generalize exec (post schedule p (.record r)) b = out at h' ⊢
    obtain ⟨_ | sent, b'⟩ := out
    · exact ⟨offered', h'⟩
    · cases sent with
      | true => exact ih h'
      | false =>
        dsimp only
        rw [if_neg Bool.false_ne_true, exec_bind_ok (exec_nameAt p b')]
        exact ⟨offered', h'⟩

/-- Publishing records in turn stops no worker, whichever of them are refused. -/
lemma finishing_publishInTurn (tried : List Record) {b : Broadcast (Observed σ) ω}
    {offered : ℕ → List Record} (h : b.Finishing sinks records world offered 0) :
    ∃ offered', (perform (publishInTurn schedule tried) b).2.Finishing sinks records world
      offered' 0 := by
  induction tried generalizing b offered with
  | nil => exact ⟨offered, h⟩
  | cons r rest ih =>
    obtain ⟨offered', h'⟩ :=
      finishing_publishTo schedule r (List.range b.workers.length) h
    have hpublish : exec (publish schedule r) b =
        exec (publishTo schedule r (List.range b.workers.length)) b := by
      unfold publish
      rw [exec_get_bind]
    rw [perform_publishInTurn_cons, hpublish]
    generalize exec (publishTo schedule r (List.range b.workers.length)) b = out at h' ⊢
    obtain ⟨_ | _, b'⟩ := out
    · exact ⟨offered', h'⟩
    · exact ih h'

variable {q : ℕ} {b : Broadcast (Observed σ) ω}

/-- A pause keeps what has ended. -/
lemma endedBefore_pause (h : b.Finishing sinks records world (fun _ => records) q)
    (hended : b.EndedBefore q) : (b.pause schedule).EndedBefore q :=
  hended.later (later_pause b schedule)
    ((h.tracks.pause schedule).length_eq.trans h.tracks.length_eq.symm)

/-- **The next worker is stopped** when those before it have ended.

**Proof sketch.** The workers act first, and everything said about them stays true. If the worker
has ended before its turn, it has done so without having been stopped, which takes a failed call, so
the case that all calls are done does not arise. Otherwise the stop mark is put into its queue. The
workers before it have ended, so at least that many sinks have retired, and the worker may be the
next. -/
lemma finishing_post_stop (h : b.Finishing sinks records world (fun _ => records) q)
    (hended : b.EndedBefore q) (hq : q < sinks.length) :
    (exec (post schedule q .stop) b).2.Finishing sinks records world (fun _ => records)
      (q + 1) := by
  have hpause := h.pause schedule
  have hpaused := endedBefore_pause schedule h hended
  have hlt : q < (sinks.map (Sink.name (σ := σ))).length := by rwa [List.length_map]
  obtain ⟨sent, b', hexec, -, htracks⟩ := exec_post_stop schedule h.tracks hlt
  obtain ⟨w, hw⟩ := hpause.tracks.exists_worker hlt
  rw [exec_post] at hexec ⊢
  cases hbind : (b.pause schedule).workers[q]?.bind (·.post? .stop) with
  | none =>
    rw [hbind] at hexec
    cases hexec
    refine ⟨htracks, fun _ _ => rfl, hpause.from_eq, fun hquiet => ?_⟩
    -- the worker has ended before its turn, so a call has failed
    obtain ⟨k, hkq, -, hall, -⟩ := hpause.order hquiet
    rw [hw, Option.bind_some] at hbind
    have := (hall q w hw).mp ((w.post?_eq_none_iff _).mp hbind)
    omega
  | some w' =>
    rw [hbind] at hexec
    cases hexec
    rw [hw, Option.bind_some] at hbind
    refine hpause.post hw hbind htracks (fun _ _ => rfl) fun k hkq hqk hall => ?_
    suffices hqk' : q ≤ k by omega
    cases q with
    | zero => exact Nat.zero_le k
    | succ p =>
      obtain ⟨v, hv⟩ := hpause.tracks.exists_worker (Nat.lt_of_succ_lt hlt)
      exact (hall p v hv).mp (hpaused p v (Nat.lt_succ_self p) hv)

/-- Waiting for a worker is stopping it, a pause, and draining it. -/
lemma exec_join_snd (b : Broadcast (Observed σ) ω) (p : ℕ) :
    (exec (join schedule p) b).2 =
      ((exec (post schedule p .stop) b).2.pause schedule).drainAt p := by
  have hpost : ∃ sent, exec (post schedule p .stop) b =
      (.ok sent, (exec (post schedule p .stop) b).2) := by
    rw [exec_post]
    cases (b.pause schedule).workers[p]?.bind (·.post? .stop) with
    | none => exact ⟨false, rfl⟩
    | some w => exact ⟨true, rfl⟩
  obtain ⟨sent, hpost⟩ := hpost
  unfold join
  rw [exec_bind_ok hpost, exec_modify_bind, exec_modify_bind, exec_get_bind]
  cases (((exec (post schedule p .stop) b).2.pause schedule).drainAt p).workers[p]? with
  | none => rfl
  | some w =>
    dsimp only
    rw [exec_liftExcept]

/-- **Waiting for the next worker** when those before it have ended.

**Proof sketch.** Waiting for a worker is sending it the stop mark, a pause, and draining it
(`exec_join_snd`), each of which keeps what is known of the workers. The worker has ended after
that, and those before it have not gone on. -/
lemma finishing_join (h : b.Finishing sinks records world (fun _ => records) q)
    (hended : b.EndedBefore q) (hq : q < sinks.length) :
    (exec (join schedule q) b).2.Finishing sinks records world (fun _ => records) (q + 1) ∧
      (exec (join schedule q) b).2.EndedBefore (q + 1) := by
  have hlt : q < (sinks.map (Sink.name (σ := σ))).length := by rwa [List.length_map]
  obtain ⟨b', w, hexec, hlater, htracks, hw, hwended⟩ := exec_join schedule h.tracks hlt
  refine ⟨?_, fun i v hi hv => ?_⟩
  · rw [exec_join_snd]
    exact ((finishing_post_stop schedule h hended hq).pause schedule).drainAt q
  · rw [hexec] at hv
    by_cases hiq : i = q
    · subst hiq
      obtain rfl := Option.some.inj (hw.symm.trans hv)
      exact hwended
    · exact hended.later hlater (htracks.length_eq.trans h.tracks.length_eq.symm) i v (by omega) hv

/-- **Waiting for the workers** from position `q` on, when those before it have been stopped and
have ended: afterwards all have been stopped, in the order of registration, and all have ended.

**Proof sketch.** Induction on the number of workers that are left. Waiting for the next one stops
it and lets it run to its end (`finishing_join`), after which one more worker has ended and one
fewer is left. When none is left, `q` is the number of all sinks. -/
lemma finishing_joinAll (count : ℕ) (hcount : q + count = sinks.length)
    (h : b.Finishing sinks records world (fun _ => records) q) (hended : b.EndedBefore q) :
    (exec (joinAll schedule (List.range' q count)) b).2.Finishing sinks records world
        (fun _ => records) sinks.length ∧
      (exec (joinAll schedule (List.range' q count)) b).2.EndedBefore sinks.length := by
  induction count generalizing q b with
  | zero =>
    obtain rfl : q = sinks.length := hcount
    exact ⟨h, hended⟩
  | succ count ih =>
    obtain ⟨h', hended'⟩ := finishing_join schedule h hended (by omega)
    rw [List.range'_succ, exec_joinAll_cons]
    exact ih (by omega) h' hended'

end Broadcasting

/-- **The world after a quiet session** is the one that the sinks leave which are filled with all
records and finished in the order of registration.

**Proof sketch.** Publishing stops no worker (`finishing_publishInTurn`), and in a quiet session all
workers are offered all records. Closing stops one worker after the other (`finishing_joinAll`), and
in the end all of them have ended. -/
lemma session_world {schedule : Schedule} {sinks : List σ} {world : ω} {records : List Record}
    (hquiet : (session schedule (sinks.map Observed.of) world records).final.Quiet) :
    Retired records sinks world
      (session schedule (sinks.map Observed.of) world records).final.world := by
  obtain ⟨hfault, htried, -⟩ := session_quiet hquiet
  obtain ⟨tried, fault?, b₁, hperform, -, htracks, -⟩ :=
    perform_publishInTurn schedule records (tracks_start sinks world)
  obtain ⟨offered, hpublished⟩ :=
    finishing_publishInTurn schedule records (finishing_start sinks records world)
  rw [hperform] at hpublished
  unfold session at hfault htried hquiet ⊢
  simp only [hperform] at hfault htried hquiet ⊢
  subst hfault htried
  have hstopped : b₁.Tracks (sinks.map Sink.name) (fun _ => tried) fun i => decide (i < 0) :=
    htracks.congr (fun _ _ => rfl) fun i _ => (decide_eq_false (Nat.not_lt_zero i)).symm
  have hready : b₁.Finishing sinks tried world (fun _ => tried) 0 :=
    ⟨hstopped, fun _ _ => rfl, hpublished.from_eq, hpublished.order⟩
  have hclose : exec (close schedule) b₁ =
      exec (joinAll schedule (List.range' 0 sinks.length)) b₁ := by
    unfold close
    rw [exec_get_bind, htracks.length_eq, List.length_map, List.range_eq_range']
  rw [hclose] at hquiet ⊢
  obtain ⟨hfinal, hended⟩ := finishing_joinAll schedule sinks.length (Nat.zero_add _) hready
    fun i w hi => absurd hi (Nat.not_lt_zero i)
  obtain ⟨k, hk, hk', hall, hworld⟩ := hfinal.order hquiet
  obtain rfl : k = sinks.length := by
    cases hn : sinks.length with
    | zero => omega
    | succ n =>
      obtain ⟨w, hw⟩ := hfinal.tracks.exists_worker (i := n) (by rw [List.length_map]; omega)
      have := (hall n w hw).mp (hended n w (by omega) hw)
      omega
  rwa [List.take_length] at hworld

end EditIdioms
