import EditIdioms.Proofs.Broadcast.Closing

set_option relaxedAutoImplicit false
set_option autoImplicit false

/-!
# Sessions: delivery and containment of failures

In a session a producer publishes records to some sinks, stops at the first record that cannot be
sent to all of them, and then ends the broadcast. The schedule lets any workers take any number of
messages before every single action of the producer, also before it waits for a worker, so a
statement about every schedule is one about every interleaving of the producer with the workers.

The sinks are observed, so a session tells which calls each of them had and how these ended. Without
observation the session is the same (`session_forget`).

## Main definitions

* `Session`, `session` — what happens in a session.
* `Broadcast.Quiet` — no call of a sink failed.
* `Contained` — how far the calls of a sink go that was to get certain records.

## Main results

* `session_spec` — what each worker was sent, and what is reported.
* `session_delivery` — when no call fails, every sink gets every record in order and is then cleaned
  up once, whichever way the broadcast ends.
* `session_containment` — when calls fail, only the sinks concerned are affected, every worker is
  waited for, and the fault of the first sink that failed is reported.
-/

namespace EditIdioms

open Broadcast Broadcasting

/-- What happens in a session: the records that were tried, what stopped the publishing if anything
did, the broadcast after the last record, how closing ended, and the broadcast after that. -/
structure Session (σ ω : Type) [Sink σ ω] where
  tried : List Record
  fault? : Option BroadcastFault
  published : Broadcast σ ω
  closed : Except BroadcastFault (List Report)
  final : Broadcast σ ω

variable {σ ω : Type} [Sink σ ω]

/-- Publishes records to sinks, one after the other up to the first that cannot be sent to all of
them, and closes the broadcast. -/
def session (schedule : Schedule) (sinks : List σ) (world : ω) (records : List Record) :
    Session σ ω :=
  let out := perform (publishInTurn schedule records) (start sinks world)
  let closing := exec (close schedule) out.2
  { tried := out.1.1, fault? := out.1.2, published := out.2, closed := closing.1,
    final := closing.2 }

/-- The session with the sinks themselves, without the calls. -/
def Session.forget (s : Session (Observed σ) ω) : Session σ ω where
  tried := s.tried
  fault? := s.fault?
  published := s.published.forget
  closed := s.closed
  final := s.final.forget

/-- Publishing records can be done before or after forgetting. -/
lemma forget_publishInTurn (schedule : Schedule) (records : List Record)
    (b : Broadcast (Observed σ) ω) :
    perform (publishInTurn schedule records) b.forget =
      ((perform (publishInTurn schedule records) b).1,
        (perform (publishInTurn schedule records) b).2.forget) := by
  induction records generalizing b with
  | nil => rfl
  | cons r rest ih =>
    rw [perform_publishInTurn_cons, perform_publishInTurn_cons, forgets_publish schedule r b]
    rcases exec (publish schedule r) b with ⟨x, b'⟩
    cases x with
    | ok a => simp only [ih b']
    | error e => rfl

/-- **Observation is not noticed.** A session with sinks is the session with the observed sinks,
apart from the calls. -/
lemma session_forget (schedule : Schedule) (sinks : List σ) (world : ω) (records : List Record) :
    session schedule sinks world records =
      (session schedule (sinks.map Observed.of) world records).forget := by
  have hclose := forgets_close schedule
    (perform (publishInTurn schedule records)
      (start (sinks.map Observed.of) world : Broadcast (Observed σ) ω)).2
  unfold session Session.forget
  rw [← forget_start, forget_publishInTurn]
  dsimp only
  rw [hclose]

/-- How far the calls of a sink go when `tried` were tried and `received` were sent to it. A record
that is not taken comes right after those before it, and nothing comes after that. If all records
are taken, all that were sent are, and one cleanup comes after them. -/
structure Contained (tried received : List Record) (calls : List Call) : Prop where
  rejecting : ∀ k r v, calls[k]? = some (.consume r v) → v ≠ .done →
    tried[k]? = some r ∧ calls = (tried.take k).map Call.accepted ++ [.consume r v]
  accepting : (∀ r v, .consume r v ∈ calls → v = .done) →
    ∃ v, calls = received.map Call.accepted ++ [.cleanup v]

/-- Only the last call can be one in which a record is not taken. -/
lemma eq_length_of_getElem?_append {done : List Record} {call : Call} {k : ℕ} {r : Record}
    {v : Verdict} (h : (done.map Call.accepted ++ [call])[k]? = some (.consume r v))
    (hv : v ≠ .done) : k = done.length ∧ call = .consume r v := by
  rcases Nat.lt_trichotomy k done.length with hk | hk | hk
  · rw [List.getElem?_append_left (by simpa using hk), List.getElem?_map,
      List.getElem?_eq_getElem hk] at h
    cases h
    exact absurd rfl hv
  · rw [List.getElem?_append_right (by simp [hk]), List.length_map, hk, Nat.sub_self] at h
    cases h
    exact ⟨hk, rfl⟩
  · rw [List.getElem?_eq_none (by simp; omega)] at h
    cases h

/-- A worker that was stopped and has ended has kept to what was sent to it.

**Proof sketch.** By how the worker was served, running being excluded. If a record was rejected,
its calls are accepted records and the rejected one, so a call that is not accepted is the last one,
and the number of calls before it is that of the records before it. If it was cleaned up, all
records that were sent are accepted, and the only other call is the cleanup. -/
lemma Worker.Served.contained {tried received : List Record} {w : Worker (Observed σ)}
    (h : w.Served received true) (he : w.isRunning = false) (hp : received <+: tried) :
    Contained tried received w.sink.calls := by
  cases h with
  | running done pending ho hc hn hq hend => simp [isRunning, hend] at he
  | rejected done r lost v ho hv hc hend =>
    obtain ⟨rest, rfl⟩ := hp
    constructor
    · intro k r' v' hk hv'
      rw [hc] at hk ⊢
      obtain ⟨rfl, hcall⟩ := eq_length_of_getElem?_append hk hv'
      cases hcall
      simp [ho]
    · intro hall
      exact absurd (hall r v (by simp [hc])) hv
  | cleaned v hs hc hn hend =>
    constructor
    · intro k r' v' hk hv'
      rw [hc] at hk
      obtain ⟨-, hcall⟩ := eq_length_of_getElem?_append hk hv'
      cases hcall
    · exact fun _ => ⟨v, hc⟩

/-- What was sent to a worker are the first of the records that were tried. -/
lemma share_isPrefix (tried : List Record) (fault? : Option BroadcastFault) (i : ℕ) :
    share tried fault? i <+: tried := by
  unfold share
  split
  · split
    · exact List.dropLast_prefix tried
    · exact List.prefix_rfl
  · exact List.prefix_rfl

/-- **What happens in a session.** Each worker was sent its share and the stop mark, and has ended.
Publishing stops only at a worker whose sink did not take some record.

**Proof sketch.** Publishing keeps the invariant (`perform_publishInTurn`), closing stops everybody
(`exec_close`), and the worker at which publishing stopped is still there at the end. -/
lemma session_spec (schedule : Schedule) (sinks : List σ) (world : ω) (records : List Record) :
    let s := session schedule (sinks.map Observed.of) world records
    s.final.Tracks (sinks.map Sink.name) (share s.tried s.fault?) (fun _ => true) ∧
      (∀ (i : ℕ) (w : Worker (Observed σ)), s.final.workers[i]? = some w → w.isRunning = false) ∧
      s.closed = s.final.firstFault?.elim
        (.ok (s.final.workers.map fun w => { name := w.name, consumed := w.consumed })) .error ∧
      s.tried <+: records ∧
      (s.fault? = none ∧ s.tried = records ∨
        ∃ j w, s.fault? = some (.disconnected j w.name) ∧ s.tried ≠ [] ∧
          s.final.workers[j]? = some w ∧ ∃ r v, .consume r v ∈ w.sink.calls ∧ v ≠ .done) := by
  obtain ⟨tried, fault?, b₁, hperform, -, htracks, hinitial, hcases⟩ :=
    perform_publishInTurn schedule records (tracks_start sinks world)
  simp only [List.nil_append] at htracks
  obtain ⟨b₂, hclose, hlater, htracks', hall⟩ := exec_close schedule htracks
  simp only [session, hperform, hclose]
  refine ⟨htracks', hall, trivial, hinitial, hcases.imp id ?_⟩
  rintro ⟨j, w, hfault, hne, hw, he⟩
  obtain ⟨done, r, lost, v, -, hv, hcalls, -⟩ := (htracks.served j w hw).of_ended he
  exact ⟨j, w, hfault, hne, hlater j w hw he, r, v, by simp [hcalls], hv⟩

/-- No call of a sink failed or broke down. -/
def Broadcast.Quiet (b : Broadcast (Observed σ) ω) : Prop :=
  ∀ w ∈ b.workers, ∀ call ∈ w.sink.calls, call.verdict = .done

instance (b : Broadcast (Observed σ) ω) : Decidable b.Quiet :=
  inferInstanceAs (Decidable (∀ w ∈ b.workers, ∀ call ∈ w.sink.calls, call.verdict = .done))

/-- No call failed exactly when no worker has a fault. -/
lemma Broadcast.quiet_iff (b : Broadcast (Observed σ) ω) :
    b.Quiet ↔ b.firstFault? = none := by
  rw [Broadcast.firstFault?, List.findSome?_eq_none_iff]
  constructor
  · rintro h ⟨w, i⟩ hmem
    exact (Call.firstFault?_eq_none_iff i w.name _).mpr (h w (List.fst_mem_of_mem_zipIdx hmem))
  · intro h w hw
    obtain ⟨i, hi, rfl⟩ := List.getElem_of_mem hw
    exact (Call.firstFault?_eq_none_iff i _ _).mp
      (h _ (List.mk_mem_zipIdx_iff_getElem?.mpr (List.getElem?_eq_getElem hi)))

/-- A worker that was stopped and has ended without a failed call has had every record and one
cleanup. -/
lemma Worker.Served.of_quiet {offered : List Record} {w : Worker (Observed σ)}
    (h : w.Served offered true) (he : w.isRunning = false)
    (hquiet : ∀ call ∈ w.sink.calls, call.verdict = .done) :
    w.sink.calls = offered.map Call.accepted ++ [.cleanup .done] ∧ w.consumed = offered.length := by
  cases h with
  | running done pending ho hc hn hq hend => simp [isRunning, hend] at he
  | rejected done r lost v ho hv hc hend => exact absurd (hquiet (.consume r v) (by simp [hc])) hv
  | cleaned v hs hc hn hend =>
    obtain rfl : v = .done := hquiet (.cleanup v) (by simp [hc])
    exact ⟨hc, hn⟩

/-- **A quiet session.** All records were published, and every worker has had all of them and one
cleanup.

**Proof sketch.** Publishing could stop only at a worker with a failed call, so every worker was
sent all records. -/
lemma session_quiet {schedule : Schedule} {sinks : List σ} {world : ω} {records : List Record}
    (hquiet : (session schedule (sinks.map Observed.of) world records).final.Quiet) :
    let s := session schedule (sinks.map Observed.of) world records
    s.fault? = none ∧ s.tried = records ∧
      ∀ w ∈ s.final.workers, w.sink.calls = records.map Call.accepted ++ [.cleanup .done] ∧
        w.consumed = records.length := by
  intro s
  obtain ⟨htracks, hended, -, -, ⟨hnone, htried⟩ | ⟨j, w, -, -, hw, r, v, hmem, hv⟩⟩ :=
    session_spec schedule sinks world records
  · refine ⟨hnone, htried, fun w hw => ?_⟩
    obtain ⟨i, hi⟩ := List.mem_iff_getElem?.mp hw
    have hserved := htracks.served i w hi
    rw [hnone, htried] at hserved
    exact hserved.of_quiet (hended i w hi) (hquiet w hw)
  · exact absurd (hquiet w (List.mem_of_getElem? hw) _ hmem) hv

/-- What the workers of a quiet session report. -/
lemma session_quiet_reports {schedule : Schedule} {sinks : List σ} {world : ω}
    {records : List Record}
    (hquiet : (session schedule (sinks.map Observed.of) world records).final.Quiet) :
    ((session schedule (sinks.map Observed.of) world records).final.workers.map
        fun w => { name := w.name, consumed := w.consumed : Report }) =
      sinks.map fun k => { name := Sink.name k, consumed := records.length } := by
  obtain ⟨htracks, -⟩ := session_spec schedule sinks world records
  obtain ⟨-, -, hworkers⟩ := session_quiet hquiet
  have hnames := congrArg (List.map fun name => ({ name, consumed := records.length } : Report))
    htracks.names_eq
  rw [List.map_map, List.map_map] at hnames
  refine Eq.trans (List.map_congr_left fun w hw => ?_) hnames
  rw [(hworkers w hw).2]
  rfl

/-- How closing a session ends: with the reports of a quiet one, or with the fault of the first
worker that has one. -/
lemma session_closed (schedule : Schedule) (sinks : List σ) (world : ω) (records : List Record) :
    let s := session schedule (sinks.map Observed.of) world records
    s.closed = s.final.firstFault?.elim
      (.ok (sinks.map fun k => { name := Sink.name k, consumed := records.length })) .error := by
  intro s
  obtain ⟨-, -, hclosed, -⟩ := session_spec schedule sinks world records
  rw [hclosed]
  cases hfault : s.final.firstFault? with
  | some fault => rfl
  | none => exact congrArg Except.ok (session_quiet_reports (s.final.quiet_iff.mpr hfault))

/-- The sinks of a quiet session have all had the same calls. -/
lemma session_quiet_calls {schedule : Schedule} {sinks : List σ} {world : ω}
    {records : List Record}
    (hquiet : (session schedule (sinks.map Observed.of) world records).final.Quiet) :
    (session schedule (sinks.map Observed.of) world records).final.workers.map (·.sink.calls) =
      sinks.map (fun _ => records.map Call.accepted ++ [.cleanup .done]) := by
  obtain ⟨htracks, -⟩ := session_spec schedule sinks world records
  obtain ⟨-, -, hworkers⟩ := session_quiet hquiet
  rw [List.map_congr_left fun w hw => (hworkers w hw).1, List.map_const', List.map_const',
    htracks.length_eq, List.length_map]

/-- Closing a quiet session gives the reports. -/
lemma session_quiet_closed {schedule : Schedule} {sinks : List σ} {world : ω}
    {records : List Record}
    (hquiet : (session schedule (sinks.map Observed.of) world records).final.Quiet) :
    (session schedule (sinks.map Observed.of) world records).closed =
      .ok (sinks.map fun k => { name := Sink.name k, consumed := records.length }) := by
  rw [session_closed schedule sinks world records, (Broadcast.quiet_iff _).mp hquiet]
  rfl

/-- Closing gives reports exactly when the session was quiet. -/
lemma session_closed_isOk_iff (schedule : Schedule) (sinks : List σ) (world : ω)
    (records : List Record) :
    let s := session schedule (sinks.map Observed.of) world records
    (∃ reports, s.closed = .ok reports) ↔ s.final.Quiet := by
  intro s
  rw [s.final.quiet_iff, session_closed schedule sinks world records]
  cases s.final.firstFault? with
  | none => simp
  | some fault => simp

/-- **Delivery.** When no call of a sink fails, everything is published, and when the broadcast has
ended, whichever way, each sink has had every record in order and then one cleanup, and is reported
with the number of records. This is so under every schedule.

**Proof sketch.** What happens when no call fails is told by `session_quiet`, `session_quiet_calls`
and `session_quiet_closed`. Giving up leaves the broadcast as closing does (`perform_abandon`). -/
theorem session_delivery (schedule : Schedule) (sinks : List σ) (world : ω) (records : List Record)
    (quiet : (session schedule (sinks.map Observed.of) world records).final.Quiet) :
    let s := session schedule (sinks.map Observed.of) world records
    s.tried = records ∧ s.fault? = none ∧
      s.final.workers.map (·.sink.calls) =
        sinks.map (fun _ => records.map Call.accepted ++ [.cleanup .done]) ∧
      s.closed = .ok (sinks.map fun k => { name := Sink.name k, consumed := records.length }) ∧
      perform (abandon schedule) s.published = ((), s.final) ∧
      session schedule sinks world records = s.forget := by
  intro s
  obtain ⟨hnone, htried, -⟩ := session_quiet quiet
  exact ⟨htried, hnone, session_quiet_calls quiet, session_quiet_closed quiet,
    perform_abandon schedule _, session_forget ..⟩

/-- A sink that writes records down until it is full, and leaves them to the world at cleanup. -/
structure Tape where
  label : String
  room : ℕ
  taken : List Record := []
deriving DecidableEq

instance : Sink Tape (List (List Record)) where
  name t := t.label
  consume t r :=
    if t.taken.length < t.room then ({ t with taken := t.taken ++ [r] }, .done)
    else (t, .failed "full")
  cleanup t world := (t, world ++ [t.taken], .done)
  dispose _ world := world

/-- Two tapes get two records while only the worker of the second one is quick. -/
theorem session_delivery_tapes :
    let a : Record := { rule := .conditionalNegated, project := "p" }
    let b : Record := { rule := .nakedReceiver, project := "q" }
    let tapes : List Tape := [{ label := "x", room := 2 }, { label := "y", room := 3 }]
    let s := session (fun _ => [1]) (tapes.map Observed.of) [] [a, b]
    s.final.Quiet ∧ s.final.workers.map (·.sink.calls) =
        [[.accepted a, .accepted b, .cleanup .done], [.accepted a, .accepted b, .cleanup .done]] ∧
      s.closed = .ok [{ name := "x", consumed := 2 }, { name := "y", consumed := 2 }] := by
  intro a b tapes s
  have quiet : s.final.Quiet := by decide +kernel
  obtain ⟨-, -, hcalls, hclosed, -⟩ := session_delivery (fun _ => [1]) tapes [] [a, b] quiet
  exact ⟨quiet, hcalls, hclosed⟩

/-- **Containment.** Whatever calls fail, and under every schedule: each worker is waited for; its
sink has had the records up to the first one that it did not take and then nothing else, or else
everything that was sent to it, and then one cleanup; and closing reports the fault of the first
worker that has one, or what all of them have consumed if none has.

What was sent to a worker are the records that were tried, without the last one if publishing
stopped at a worker registered before it (`share`).

**Proof sketch.** `session_spec` says how far each worker has come, which `Served.contained` reads
off the calls, and `session_closed` what is reported. -/
theorem session_containment (schedule : Schedule) (sinks : List σ) (world : ω)
    (records : List Record) :
    let s := session schedule (sinks.map Observed.of) world records
    (s.tried <+: records ∧
      (s.fault? = none ∧ s.tried = records ∨
        ∃ j w, s.fault? = some (.disconnected j w.name) ∧ s.tried ≠ [] ∧
          s.final.workers[j]? = some w ∧ ∃ r v, .consume r v ∈ w.sink.calls ∧ v ≠ .done)) ∧
      s.final.workers.map Worker.name = sinks.map Sink.name ∧
      (∀ i w, s.final.workers[i]? = some w → w.isRunning = false ∧
        Contained s.tried (share s.tried s.fault? i) w.sink.calls) ∧
      s.closed = s.final.firstFault?.elim
        (.ok (sinks.map fun k => { name := Sink.name k, consumed := records.length })) .error ∧
      ((∃ reports, s.closed = .ok reports) ↔ s.final.Quiet) ∧
      session schedule sinks world records = s.forget := by
  intro s
  obtain ⟨htracks, hended, -, hinitial, hcases⟩ := session_spec schedule sinks world records
  refine ⟨⟨hinitial, hcases⟩, htracks.names_eq, fun i w hw => ⟨hended i w hw, ?_⟩,
    session_closed .., session_closed_isOk_iff .., session_forget ..⟩
  exact (htracks.served i w hw).contained (hended i w hw) (share_isPrefix ..)

/-- A worker that waits to the end is found out only when the broadcast is closed. Nothing stops the
publishing, and the other sink gets everything. -/
theorem session_containment_tapes :
    let a : Record := { rule := .conditionalNegated, project := "p" }
    let b : Record := { rule := .nakedReceiver, project := "q" }
    let tapes : List Tape := [{ label := "x", room := 1 }, { label := "y", room := 2 }]
    let s := session Schedule.idle (tapes.map Observed.of) [] [a, b]
    (s.fault? = none ∧ s.closed = .error (.failed 0 "x" "record 2 rejected by x: full") ∧
        s.final.workers.map (·.sink.calls) =
          [[.accepted a, .consume b (.failed "full")],
            [.accepted a, .accepted b, .cleanup .done]]) ∧
      ∀ i w, s.final.workers[i]? = some w →
        w.isRunning = false ∧ Contained [a, b] (share s.tried s.fault? i) w.sink.calls := by
  intro a b tapes s
  have htried : s.tried = [a, b] := by decide +kernel
  obtain ⟨-, -, hworkers, -⟩ := session_containment Schedule.idle tapes [] [a, b]
  exact ⟨by decide +kernel, htried ▸ hworkers⟩

end EditIdioms
