import EditIdioms.Proofs.Lists
import EditIdioms.Proofs.Mining.Loss

set_option relaxedAutoImplicit false
set_option autoImplicit false

/-!
# Whom a stopped run blames

Mining stops when a record cannot be sent to some worker because that worker has ended. What the run
reports then is not taken from this worker: closing waits for all workers and reports the fault of
the first one, in the order of registration, that has a fault. A worker registered earlier may still
be at work when mining stops, and fail on a record in its queue or at cleanup. So the run reports
the fault of the worker that stopped mining exactly when no worker registered before it has failed
by the end.

## Main definitions

* `BroadcastFault.position?` — the position of the worker that a fault is about.
* `Broadcast.faultAt?` — the fault of the worker at a position.

## Main results

* `Broadcast.firstFault?_eq_some_iff` — the first fault, by positions.
* `session_blame` — what closing reports after publishing was stopped.
* `runCrawl_blames_first` — what a run reports that was stopped by a worker.
* `runCrawl_blames_another` — it need not be the fault of that worker.
-/

namespace EditIdioms

open Broadcast Broadcasting

/-- The position of the worker that a fault is about. -/
def BroadcastFault.position? : BroadcastFault → Option ℕ
  | disconnected i _ | panicked i _ | failed i _ _ => some i
  | unnameable _ => none

/-- The fault that calls lead to is about the worker that they belong to. -/
lemma position?_of_firstFault? {position : ℕ} {name : String} {calls : List Call}
    {fault : BroadcastFault} (h : Call.firstFault? position name calls = some fault) :
    fault.position? = some position := by
  obtain ⟨⟨call, place⟩, -, hcall⟩ := List.exists_of_findSome?_eq_some h
  cases call with
  | consume r v => cases v <;> cases hcall <;> rfl
  | cleanup v => cases v <;> cases hcall <;> rfl

variable {σ ω : Type} [Sink σ ω]

/-- The fault of the worker at a position, by the calls of its sink. -/
def Broadcast.faultAt? (b : Broadcast (Observed σ) ω) (i : ℕ) : Option BroadcastFault :=
  b.workers[i]?.bind (·.fault? i)

/-- A fault is about the worker that has it. -/
lemma Broadcast.position?_of_faultAt? {b : Broadcast (Observed σ) ω} {i : ℕ}
    {fault : BroadcastFault} (h : b.faultAt? i = some fault) : fault.position? = some i := by
  obtain ⟨w, -, hw⟩ := Option.bind_eq_some_iff.mp h
  exact position?_of_firstFault? hw

/-- The fault of a worker is one of its sink. -/
lemma Broadcast.fromSink_of_faultAt? {b : Broadcast (Observed σ) ω} {i : ℕ}
    {fault : BroadcastFault} (h : b.faultAt? i = some fault) : fault.FromSink := by
  obtain ⟨w, -, hw⟩ := Option.bind_eq_some_iff.mp h
  exact fromSink_of_firstFault? hw

/-- The first fault is that of the first worker that has one. -/
lemma Broadcast.firstFault?_eq_some_iff {b : Broadcast (Observed σ) ω} {fault : BroadcastFault} :
    b.firstFault? = some fault ↔
      ∃ i, b.faultAt? i = some fault ∧ ∀ k < i, b.faultAt? k = none := by
  change b.workers.zipIdx.findSome? (fun p => p.1.fault? p.2) = some fault ↔ _
  rw [findSome?_zipIdx_eq_some_iff]
  simp only [Nat.zero_add]
  rfl

/-- If some worker has a fault, there is a first one, and it is not after that worker.

**Proof sketch.** The fault of the worker is met when the workers are gone through, so there is a
first one. If it were after that worker, that worker would have none. -/
lemma Broadcast.exists_firstFault? {b : Broadcast (Observed σ) ω} {j : ℕ} {own : BroadcastFault}
    (h : b.faultAt? j = some own) :
    ∃ i cause, i ≤ j ∧ b.firstFault? = some cause ∧ b.faultAt? i = some cause ∧
      ∀ k < i, b.faultAt? k = none := by
  obtain ⟨w, hw, hfault⟩ := Option.bind_eq_some_iff.mp h
  have hne : b.firstFault? ≠ none := by
    intro hnone
    have hall := List.findSome?_eq_none_iff.mp hnone
    have hwj := hall (w, j) (List.mk_mem_zipIdx_iff_getElem?.mpr hw)
    rw [show w.fault? j = none from hwj] at hfault
    cases hfault
  obtain ⟨cause, hcause⟩ := Option.ne_none_iff_exists'.mp hne
  obtain ⟨i, hi, hbefore⟩ := firstFault?_eq_some_iff.mp hcause
  refine ⟨i, cause, ?_, hcause, hi, hbefore⟩
  by_contra hlt
  rw [hbefore j (by omega)] at h
  cases h

/-- **What closing reports after a stop.** The worker that stopped the publishing has a fault of its
own, as its sink did not take some record. What closing reports is the fault of the first worker
that has one, which is the same exactly when no worker registered before has one.

**Proof sketch.** The worker at which publishing stopped has had a call that was not done
(`session_spec`), so it has a fault. Closing reports the first fault (`session_closed`), and faults
tell the position of their worker. -/
lemma session_blame {schedule : Schedule} {sinks : List σ} {world : ω} {records : List Record}
    {j : ℕ} {name : String}
    (h : (session schedule (sinks.map Observed.of) world records).fault? =
      some (.disconnected j name)) :
    let s := session schedule (sinks.map Observed.of) world records
    sinks[j]?.map Sink.name = some name ∧
      ∃ own i cause, s.final.faultAt? j = some own ∧ i ≤ j ∧ s.final.faultAt? i = some cause ∧
        (∀ k < i, s.final.faultAt? k = none) ∧ s.closed = .error cause ∧
        (cause = own ↔ ∀ k < j, s.final.faultAt? k = none) := by
  intro s
  obtain ⟨htracks, -, -, -, ⟨hnone, -⟩ | ⟨j', w, hfault, -, hw, r, v, hmem, hv⟩⟩ :=
    session_spec schedule sinks world records
  · rw [h] at hnone
    cases hnone
  · cases h.symm.trans hfault
    have hown : s.final.faultAt? j ≠ none := by
      unfold faultAt?
      rw [hw, Option.bind_some]
      exact fun hnone => hv ((Call.firstFault?_eq_none_iff _ _ _).mp hnone _ hmem)
    obtain ⟨own, hown⟩ := Option.ne_none_iff_exists'.mp hown
    obtain ⟨i, cause, hij, hfirst, hcause, hbefore⟩ := exists_firstFault? hown
    refine ⟨?_, own, i, cause, hown, hij, hcause, hbefore, ?_, ?_⟩
    · rw [← List.getElem?_map, ← htracks.names_eq, List.getElem?_map, hw]
      rfl
    · rw [session_closed schedule sinks world records, hfirst]
      rfl
    · constructor
      · rintro rfl
        have hi := (position?_of_faultAt? hcause).symm.trans (position?_of_faultAt? hown)
        obtain rfl := Option.some.inj hi
        exact hbefore
      · intro hall
        have hi : i = j := by
          by_contra hne
          rw [hall i (by omega)] at hcause
          cases hcause
        subst hi
        exact Option.some.inj (hcause.symm.trans hown)

/-- **A stopped run blames the first worker that failed.** When mining was stopped because the
worker at position `j` had ended, this worker has a fault of its own, and the run reports the fault
of the first worker, in the order of registration, that has one by the end. This is the fault of
the worker at `j` exactly when no worker registered before it has failed. It is so under every
schedule, and observing the sinks makes no difference to it.

**Proof sketch.** The run is a session (`exec_runCrawl`), and what stopped mining is what stopped
the publishing, so `session_blame` tells what closing reports; the run reports the same. -/
theorem runCrawl_blames_first (m : Miner) (schedule : Schedule) (crawl : Crawl) (sinks : List σ)
    (world : ω) (j : ℕ) (name : String)
    (stopped : (exec (m.mineCrawl schedule crawl)
      (start (sinks.map Observed.of) world : Broadcast (Observed σ) ω)).1 =
        .error (.broadcast (.disconnected j name))) :
    let ran := exec (m.runCrawl schedule crawl)
      (start (sinks.map Observed.of) world : Broadcast (Observed σ) ω)
    sinks[j]?.map Sink.name = some name ∧
      (∃ own i cause, ran.2.faultAt? j = some own ∧ own.FromSink ∧ i ≤ j ∧
        ran.2.faultAt? i = some cause ∧ (∀ k < i, ran.2.faultAt? k = none) ∧
        ran.1 = .error (.broadcast cause) ∧
        (ran.1 = .error (.broadcast own) ↔ ∀ k < j, ran.2.faultAt? k = none)) ∧
      exec (m.runCrawl schedule crawl) (start sinks world) = (ran.1, ran.2.forget) := by
  intro ran
  let s := session schedule (sinks.map Observed.of) world (m.scriptCrawl crawl).records
  have hran : ran = (Miner.outcome ((m.scriptCrawl crawl).result s.fault?) s.closed, s.final) :=
    exec_runCrawl m schedule crawl _ world
  rw [exec_mineCrawl] at stopped
  have hfault : s.fault? = some (.disconnected j name) := Script.result_eq_broadcast_iff.mp stopped
  obtain ⟨hname, own, i, cause, hown, hij, hcause, hbefore, hclosed, hsame⟩ :=
    session_blame hfault
  have hreport : ran.1 = .error (.broadcast cause) := by
    rw [hran]
    dsimp only
    rw [show (m.scriptCrawl crawl).result s.fault? = _ from stopped, hclosed]
    rfl
  refine ⟨hname, ⟨own, i, cause, ?_, fromSink_of_faultAt? hown, hij, ?_, ?_, hreport, ?_⟩, ?_⟩
  · rw [hran]; exact hown
  · rw [hran]; exact hcause
  · rw [hran]; exact hbefore
  · rw [hreport, hran]
    simp only [Except.error.injEq, MiningFault.broadcast.injEq]
    exact hsame
  · rw [hran, exec_runCrawl, session_forget]
    rfl

/-- The first tape has room enough, the second one for nothing: it stops mining, and is blamed. -/
theorem runCrawl_blames_first_tape :
    let miner : Miner :=
      { chain := [.onInsert "any" fun _ => .ok (some .nakedReceiver)], specialize := false }
    let diff : FileDiff :=
      { before := {}, after := { nodes := #[{ kind := .block }] },
        operations := [.insert ⟨0⟩, .insert ⟨0⟩] }
    let crawl : Crawl :=
      { projects := .ok [{ id := "p", path := "p" }], diffs := fun _ => .ok [diff] }
    let tapes : List Tape := [{ label := "x", room := 2 }, { label := "y", room := 0 }]
    let b : Broadcast (Observed Tape) (List (List Record)) := start (tapes.map Observed.of) []
    let mined := exec (miner.mineCrawl (Schedule.eager 2) crawl) b
    let ran := exec (miner.runCrawl (Schedule.eager 2) crawl) b
    mined.1 = .error (.broadcast (.disconnected 1 "y")) ∧ ran.2.faultAt? 0 = none ∧
      ran.1 = .error (.broadcast (.failed 1 "y" "record 1 rejected by y: full")) := by
  intro miner diff crawl tapes b mined ran
  have stopped : mined.1 = .error (.broadcast (.disconnected 1 "y")) := by decide +kernel
  have hhealthy : ran.2.faultAt? 0 = none := by decide +kernel
  have hfault : ran.2.faultAt? 1 = some (.failed 1 "y" "record 1 rejected by y: full") := by
    decide +kernel
  obtain ⟨-, ⟨own, i, cause, hown, -, -, -, -, -, hsame⟩, -⟩ :=
    runCrawl_blames_first miner (Schedule.eager 2) crawl tapes [] 1 "y" stopped
  have hbefore : ∀ k < 1, ran.2.faultAt? k = none := by
    intro k hk
    obtain rfl : k = 0 := by omega
    exact hhealthy
  obtain rfl := Option.some.inj (hown.symm.trans hfault)
  exact ⟨stopped, hhealthy, hsame.mpr hbefore⟩

/-- The second tape has no room and stops mining when the second record comes. The first tape has
room for one record only, and so fails on the second, which is already in its queue: the run blames
the first tape, although it was the second one that stopped it. -/
theorem runCrawl_blames_another :
    let miner : Miner :=
      { chain := [.onInsert "any" fun _ => .ok (some .nakedReceiver)], specialize := false }
    let diff : FileDiff :=
      { before := {}, after := { nodes := #[{ kind := .block }] },
        operations := [.insert ⟨0⟩, .insert ⟨0⟩] }
    let crawl : Crawl :=
      { projects := .ok [{ id := "p", path := "p" }], diffs := fun _ => .ok [diff] }
    let tapes : List Tape := [{ label := "x", room := 1 }, { label := "y", room := 0 }]
    let b : Broadcast (Observed Tape) (List (List Record)) := start (tapes.map Observed.of) []
    let mined := exec (miner.mineCrawl (Schedule.eager 2) crawl) b
    let ran := exec (miner.runCrawl (Schedule.eager 2) crawl) b
    let own : BroadcastFault := .failed 1 "y" "record 1 rejected by y: full"
    mined.1 = .error (.broadcast (.disconnected 1 "y")) ∧ ran.2.faultAt? 1 = some own ∧
      ran.1 = .error (.broadcast (.failed 0 "x" "record 2 rejected by x: full")) ∧
      ran.1 ≠ .error (.broadcast own) := by
  decide +kernel

end EditIdioms
