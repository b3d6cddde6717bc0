import EditIdioms.Proofs.Broadcast.Session
import EditIdioms.Proofs.Mining.Script

set_option relaxedAutoImplicit false
set_option autoImplicit false

/-!
# Runs of mining lose nothing in silence

A run of mining is a session whose records are those of the script of mining (`exec_runCrawl`). A
sink may fail long after its last record was sent, or only at cleanup, when no publishing takes
notice; closing the broadcast does, since it waits for every worker. So a run that gives a summary
is one in which no sink failed, and a run that was stopped by a worker that had ended reports why a
worker had.

## Main definitions

* `BroadcastFault.FromSink` — the fault tells that a sink failed or broke down.

## Main results

* `exec_mineCrawl`, `exec_runCrawl` — mining as a session.
* `session_cause` — closing a session that was stopped tells that a sink failed.
* `runCrawl_loses_nothing` — a run gives a summary exactly if nothing failed, and then every sink
  has had all that was counted.
-/

namespace EditIdioms

open Broadcast Broadcasting

/-- The fault tells that a sink failed or broke down. -/
def BroadcastFault.FromSink : BroadcastFault → Prop
  | failed _ _ _ | panicked _ _ => True
  | disconnected _ _ | unnameable _ => False

/-- What calls lead to is a fault of a sink. -/
lemma fromSink_of_firstFault? {position : ℕ} {name : String} {calls : List Call}
    {fault : BroadcastFault} (h : Call.firstFault? position name calls = some fault) :
    fault.FromSink := by
  obtain ⟨⟨call, place⟩, -, hcall⟩ := List.exists_of_findSome?_eq_some h
  cases call with
  | consume r v => cases v <;> cases hcall <;> trivial
  | cleanup v => cases v <;> cases hcall <;> trivial

variable {σ ω : Type} [Sink σ ω]

/-- What closing a session reports, if not what was consumed, is a fault of a sink. -/
lemma session_closed_fromSink {schedule : Schedule} {sinks : List σ} {world : ω}
    {records : List Record} {cause : BroadcastFault}
    (h : (session schedule (sinks.map Observed.of) world records).closed = .error cause) :
    cause.FromSink := by
  rw [session_closed schedule sinks world records] at h
  cases hfault : (session schedule (sinks.map Observed.of) world records).final.firstFault? with
  | none => rw [hfault] at h; cases h
  | some fault =>
    rw [hfault] at h
    cases h
    obtain ⟨⟨w, i⟩, -, hw⟩ := List.exists_of_findSome?_eq_some hfault
    exact fromSink_of_firstFault? hw

/-- **The cause of a stop.** When publishing was stopped, closing reports the fault of a sink.

**Proof sketch.** The session was not quiet, as publishing goes through in quiet ones
(`session_quiet`), so there are no reports. -/
lemma session_cause {schedule : Schedule} {sinks : List σ} {world : ω} {records : List Record}
    {fault : BroadcastFault}
    (h : (session schedule (sinks.map Observed.of) world records).fault? = some fault) :
    ∃ cause, (session schedule (sinks.map Observed.of) world records).closed = .error cause ∧
      cause.FromSink := by
  cases hclosed : (session schedule (sinks.map Observed.of) world records).closed with
  | error cause => exact ⟨cause, rfl, session_closed_fromSink hclosed⟩
  | ok reports =>
    have hquiet := (session_closed_isOk_iff schedule sinks world records).mp ⟨reports, hclosed⟩
    rw [(session_quiet hquiet).1] at h
    cases h

/-! ## Mining as a session -/

/-- Mining publishes the records of its script. -/
lemma exec_mineCrawl (m : Miner) (schedule : Schedule) (crawl : Crawl) (sinks : List σ)
    (world : ω) :
    exec (m.mineCrawl schedule crawl) (start sinks world) =
      let s := session schedule sinks world (m.scriptCrawl crawl).records
      ((m.scriptCrawl crawl).result s.fault?, s.published) :=
  follows_mineCrawl m crawl _

/-- **A run of mining** is a session with the records of its script. -/
lemma exec_runCrawl (m : Miner) (schedule : Schedule) (crawl : Crawl) (sinks : List σ)
    (world : ω) :
    exec (m.runCrawl schedule crawl) (start sinks world) =
      let s := session schedule sinks world (m.scriptCrawl crawl).records
      (Miner.outcome ((m.scriptCrawl crawl).result s.fault?) s.closed, s.final) := by
  have hmined := exec_mineCrawl m schedule crawl sinks world
  have hran : exec (m.runCrawl schedule crawl) (start sinks world) =
      let mined := exec (m.mineCrawl schedule crawl) (start sinks world)
      let closing := exec (close schedule) mined.2
      (Miner.outcome mined.1 closing.1, closing.2) := rfl
  rw [hran, hmined]
  rfl

/-- There is a summary exactly when mining has one and closing has reports, which go into it. -/
lemma outcome_eq_ok_iff {mined : Except MiningFault Summary}
    {closed : Except BroadcastFault (List Report)} {summary : Summary} :
    Miner.outcome mined closed = .ok summary ↔
      ∃ found reports, mined = .ok found ∧ closed = .ok reports ∧
        summary = { found with reports } := by
  constructor
  · intro h
    unfold Miner.outcome at h
    split at h <;> cases h
    exact ⟨_, _, rfl, rfl, rfl⟩
  · rintro ⟨found, reports, rfl, rfl, rfl⟩
    rfl

/-- A script that is run in a session gives a summary exactly when it meets no obstacle and the
session is quiet, and then the workers have consumed all of it.

**Proof sketch.** A summary is given if the script ends with one and closing the session gives
reports, and closing gives reports exactly if the session is quiet. In a quiet session no
publication has met a fault, and each worker reports all of the records as consumed
(`session_quiet_closed`). -/
lemma outcome_session_eq_ok_iff {schedule : Schedule} {sinks : List σ} {world : ω}
    {p : Script Summary} {summary : Summary} :
    let s := session schedule (sinks.map Observed.of) world p.records
    Miner.outcome (p.result s.fault?) s.closed = .ok summary ↔
      ∃ found, p.ending = .ok found ∧ s.final.Quiet ∧
        summary = { found with
          reports := sinks.map fun k =>
            { name := Sink.name k, consumed := p.records.length } } := by
  intro s
  rw [outcome_eq_ok_iff]
  constructor
  · rintro ⟨found, reports, hfound, hclosed, rfl⟩
    have hquiet : s.final.Quiet := (session_closed_isOk_iff ..).mp ⟨reports, hclosed⟩
    obtain rfl := Except.ok.inj (hclosed.symm.trans (session_quiet_closed hquiet))
    exact ⟨found, (Script.result_eq_ok_iff.mp hfound).2, hquiet, rfl⟩
  · rintro ⟨found, hfound, hquiet, rfl⟩
    exact ⟨found, _, Script.result_eq_ok_iff.mpr ⟨(session_quiet hquiet).1, hfound⟩,
      session_quiet_closed hquiet, rfl⟩

/-- When every stop by a worker is explained by closing, no worker is reported as having ended
without a reason. -/
lemma outcome_ne_disconnected {mined : Except MiningFault Summary}
    {closed : Except BroadcastFault (List Report)}
    (hstop : ∀ fault, mined = .error (.broadcast fault) → ∃ cause, closed = .error cause)
    (hclosed : ∀ cause, closed = .error cause → cause.FromSink) (j : ℕ) (name : String) :
    Miner.outcome mined closed ≠ .error (.broadcast (.disconnected j name)) := by
  intro h
  cases mined with
  | ok summary => cases closed <;> cases h; exact hclosed _ rfl
  | error fault =>
    cases fault with
    | dataset fault => cases closed <;> cases h
    | arena fault => cases closed <;> cases h
    | broadcast fault =>
      obtain ⟨cause, rfl⟩ := hstop fault rfl
      cases fault <;> cases h
      exact hclosed _ rfl

/-- **Nothing is lost in silence.** A run of mining gives a summary exactly when mining found one
and no call of any sink failed. Then the counts of the workers are that of mining, and all sinks
have had the same records and one cleanup. No run tells merely that a worker has ended: when mining
was stopped by that, closing tells that a sink failed, and this is what the run reports. All this
holds under every schedule, and observing the sinks makes no difference to it.

**Proof sketch.** The run is a session with the records of the script (`exec_runCrawl`), which gives
a summary when it is quiet (`outcome_session_eq_ok_iff`). What there is to count is the length of
the script (`counted_scriptCrawl`), and in a quiet session this is what every sink has had
(`session_quiet_calls`). A session that was stopped has a cause (`session_cause`). -/
theorem runCrawl_loses_nothing (m : Miner) (schedule : Schedule) (crawl : Crawl) (sinks : List σ)
    (world : ω) :
    let b : Broadcast (Observed σ) ω := start (sinks.map Observed.of) world
    let mined := exec (m.mineCrawl schedule crawl) b
    let ran := exec (m.runCrawl schedule crawl) b
    ((∃ summary, ran.1 = .ok summary) ↔ (∃ found, mined.1 = .ok found) ∧ ran.2.Quiet) ∧
      (∀ summary, ran.1 = .ok summary →
        summary.reports =
            (sinks.map fun k => { name := Sink.name k, consumed := summary.stats.records }) ∧
          (m.scriptCrawl crawl).records.length = summary.stats.records ∧
          ran.2.workers.map (·.sink.calls) = sinks.map fun _ =>
            (m.scriptCrawl crawl).records.map Call.accepted ++ [.cleanup .done]) ∧
      (∀ j name, ran.1 ≠ .error (.broadcast (.disconnected j name))) ∧
      (∀ j name, mined.1 = .error (.broadcast (.disconnected j name)) →
        ∃ cause, cause.FromSink ∧ (exec (close schedule) mined.2).1 = .error cause ∧
          ran.1 = .error (.broadcast cause)) ∧
      exec (m.mineCrawl schedule crawl) (start sinks world) = (mined.1, mined.2.forget) ∧
      exec (m.runCrawl schedule crawl) (start sinks world) = (ran.1, ran.2.forget) := by
  intro b mined ran
  let s := session schedule (sinks.map Observed.of) world (m.scriptCrawl crawl).records
  have hmined : mined = ((m.scriptCrawl crawl).result s.fault?, s.published) :=
    exec_mineCrawl m schedule crawl _ world
  have hran : ran = (Miner.outcome ((m.scriptCrawl crawl).result s.fault?) s.closed, s.final) :=
    exec_runCrawl m schedule crawl _ world
  have hforget : session schedule sinks world (m.scriptCrawl crawl).records = s.forget :=
    session_forget ..
  have hstop : ∀ fault, (m.scriptCrawl crawl).result s.fault? = .error (.broadcast fault) →
      ∃ cause, s.closed = .error cause ∧ cause.FromSink := fun fault h =>
    session_cause (Script.result_eq_broadcast_iff.mp h)
  rw [hmined, hran]
  refine ⟨?_, ?_, ?_, ?_, ?_, ?_⟩
  · constructor
    · rintro ⟨summary, h⟩
      obtain ⟨found, hfound, hquiet, -⟩ := outcome_session_eq_ok_iff.mp h
      exact ⟨⟨found, Script.result_eq_ok_iff.mpr ⟨(session_quiet hquiet).1, hfound⟩⟩, hquiet⟩
    · rintro ⟨⟨found, hfound⟩, hquiet⟩
      have hending := (Script.result_eq_ok_iff.mp hfound).2
      exact ⟨_, outcome_session_eq_ok_iff.mpr ⟨found, hending, hquiet, rfl⟩⟩
  · intro summary h
    obtain ⟨found, hfound, hquiet, rfl⟩ := outcome_session_eq_ok_iff.mp h
    have hcount := m.counted_scriptCrawl crawl found hfound
    exact ⟨by rw [← hcount], hcount.symm, session_quiet_calls hquiet⟩
  · refine outcome_ne_disconnected (fun fault h => ?_) fun cause => session_closed_fromSink
    obtain ⟨cause, hclosed, -⟩ := hstop fault h
    exact ⟨cause, hclosed⟩
  · intro j name h
    obtain ⟨cause, hclosed, hcause⟩ := hstop _ h
    refine ⟨cause, hcause, hclosed, ?_⟩
    dsimp only at h ⊢
    rw [h, hclosed]
    rfl
  · rw [exec_mineCrawl, hforget]
    rfl
  · rw [exec_runCrawl, hforget]
    rfl

/-- Mining takes no notice of a second record that does not fit on the tape; the run does. -/
theorem runCrawl_loses_nothing_tape :
    let miner : Miner :=
      { chain := [.onInsert "any" fun _ => .ok (some .nakedReceiver)], specialize := false }
    let diff : FileDiff :=
      { before := {}, after := { nodes := #[{ kind := .block }] },
        operations := [.insert ⟨0⟩, .insert ⟨0⟩] }
    let crawl : Crawl :=
      { projects := .ok [{ id := "p", path := "p" }], diffs := fun _ => .ok [diff] }
    let tapes : List Tape := [{ label := "x", room := 1 }]
    let b : Broadcast (Observed Tape) (List (List Record)) := start (tapes.map Observed.of) []
    let mined := exec (miner.mineCrawl Schedule.idle crawl) b
    let ran := exec (miner.runCrawl Schedule.idle crawl) b
    mined.1 = .ok { projects := 1, files := 1, stats := { edits := 2, records := 2 } } ∧
      ran.1 = .error (.broadcast (.failed 0 "x" "record 2 rejected by x: full")) ∧
      ¬ ran.2.Quiet := by
  intro miner diff crawl tapes b mined ran
  have hmined : mined.1 =
      .ok { projects := 1, files := 1, stats := { edits := 2, records := 2 } } := by
    decide +kernel
  have hran : ran.1 = .error (.broadcast (.failed 0 "x" "record 2 rejected by x: full")) := by
    decide +kernel
  refine ⟨hmined, hran, fun hquiet => ?_⟩
  obtain ⟨hiff, -⟩ := runCrawl_loses_nothing miner Schedule.idle crawl tapes []
  obtain ⟨summary, hsummary⟩ := hiff.mpr ⟨⟨_, hmined⟩, hquiet⟩
  rw [show ran.1 = _ from hsummary] at hran
  cases hran

end EditIdioms
