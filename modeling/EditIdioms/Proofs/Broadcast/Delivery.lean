import EditIdioms.Proofs.Broadcast.Service
import Mathlib.Data.List.Infix

set_option relaxedAutoImplicit false
set_option autoImplicit false

/-!
# What publishing brings to the workers

The invariant of a broadcast says of each worker what it was offered (`Broadcast.Tracks`). No step
of a worker changes that, whenever the schedule lets it happen, and a worker that has ended stays as
it is (`Broadcast.Later`). What is left to follow is the producer: a record that is published is
offered to the workers one after the other, up to the first one that has ended.

## Main definitions

* `Broadcast.Tracks` — what each worker was offered, and whether it was stopped.
* `Broadcast.Later` — workers that have ended are as they were.
* `share` — what a worker was offered of the records that were tried.

## Main results

* `Tracks.pause`, `later_pause` — the workers' own steps.
* `exec_publish` — one record.
* `perform_publishInTurn` — a list of records.
-/

namespace EditIdioms

variable {σ ω : Type} [Sink σ ω]

/-- What the worker at position `i` was offered of the records that were tried, when publishing
ended with the given fault: all of them, but the last one only if publishing did not stop before
`i`. -/
def share (tried : List Record) (fault? : Option BroadcastFault) (i : ℕ) : List Record :=
  match fault? with
  | some (.disconnected j _) => if j < i then tried.dropLast else tried
  | _ => tried

namespace Broadcast

/-- The workers go by the given names, and each is in a stage of having been offered its records and
perhaps the stop mark. -/
structure Tracks (b : Broadcast (Observed σ) ω) (names : List String) (offered : ℕ → List Record)
    (stopped : ℕ → Bool) : Prop where
  names_eq : b.workers.map Worker.name = names
  served : ∀ (i : ℕ) (w : Worker (Observed σ)), b.workers[i]? = some w →
    w.Served (offered i) (stopped i)

/-- What has ended in `b` is the same in `b'`. -/
def Later (b b' : Broadcast σ ω) : Prop :=
  ∀ (i : ℕ) (w : Worker σ), b.workers[i]? = some w → w.isRunning = false →
    b'.workers[i]? = some w

/-- Where nothing has happened, what has ended is the same. -/
lemma Later.refl (b : Broadcast σ ω) : Later b b := fun _ _ h _ => h

/-- One thing has happened after the other. -/
lemma Later.trans {b b' b'' : Broadcast σ ω} (h : Later b b') (h' : Later b' b'') :
    Later b b'' := fun i w hw he => h' i w (h i w hw he) he

/-- The worker at a position after one was put back. -/
lemma getElem?_replace (b : Broadcast σ ω) (p : ℕ) (w : Worker σ) (x : ω) (i : ℕ) :
    (b.replace p w x).workers[i]? =
      if p = i then b.workers[i]?.map fun _ => w else b.workers[i]? := by
  simp only [replace, List.getElem?_set']
  rfl

/-- Putting a worker back keeps the others, and itself if it had ended and is unchanged. -/
lemma later_replace {b : Broadcast σ ω} {p : ℕ} {w w' : Worker σ} (hw : b.workers[p]? = some w)
    (h : w.isRunning = false → w' = w) (x : ω) : Later b (b.replace p w' x) := by
  intro i v hv he
  rw [getElem?_replace]
  by_cases hpi : p = i
  · subst hpi
    obtain rfl : w = v := Option.some.inj (hw.symm.trans hv)
    rw [if_pos rfl, hv, h he]
    rfl
  · rw [if_neg hpi, hv]

/-- What every step of a worker keeps, and the clock does not matter to, is kept by a pause. -/
lemma pause_induction {P : Broadcast σ ω → Prop} {b : Broadcast σ ω} (h : P b)
    (hstep : ∀ c p, P c → P (c.stepAt p)) (hclock : ∀ c n, P c → P { c with clock := n })
    (schedule : Schedule) : P (b.pause schedule) :=
  hclock _ _ (List.foldlRecOn (schedule b.clock) stepAt h fun c hc p _ => hstep c p hc)

namespace Tracks

variable {b : Broadcast (Observed σ) ω} {names : List String} {offered offered' : ℕ → List Record}
  {stopped stopped' : ℕ → Bool}

/-- There are as many workers as names. -/
lemma length_eq (h : b.Tracks names offered stopped) : b.workers.length = names.length := by
  rw [← h.names_eq, List.length_map]

/-- There is a worker for each name. -/
lemma exists_worker (h : b.Tracks names offered stopped) {i : ℕ} (hi : i < names.length) :
    ∃ w, b.workers[i]? = some w :=
  ⟨_, List.getElem?_eq_getElem (by rw [h.length_eq]; exact hi)⟩

/-- Only what holds of the workers that there are is told. -/
lemma congr (h : b.Tracks names offered stopped)
    (hoffered : ∀ i < names.length, offered i = offered' i)
    (hstopped : ∀ i < names.length, stopped i = stopped' i) :
    b.Tracks names offered' stopped' := by
  refine ⟨h.names_eq, fun i w hw => ?_⟩
  obtain ⟨hi, _⟩ := List.getElem?_eq_some_iff.mp hw
  rw [h.length_eq] at hi
  rw [← hoffered i hi, ← hstopped i hi]
  exact h.served i w hw

/-- Putting a worker back changes what is told of that worker only.

**Proof sketch.** Names and workers are compared place by place. At the place of the worker that is
put back its name is the old one and what is told of it is given; at any other place nothing has
changed, neither the worker nor what it was offered. -/
lemma replace (h : b.Tracks names offered stopped) {p : ℕ} {w w' : Worker (Observed σ)}
    (hw : b.workers[p]? = some w) (hname : w'.name = w.name)
    (hserved : w'.Served (offered' p) (stopped' p)) (hoffered : ∀ i ≠ p, offered i = offered' i)
    (hstopped : ∀ i ≠ p, stopped i = stopped' i) (x : ω) :
    (b.replace p w' x).Tracks names offered' stopped' := by
  constructor
  · rw [← h.names_eq]
    refine List.ext_getElem? fun i => ?_
    rw [List.getElem?_map, List.getElem?_map, getElem?_replace]
    by_cases hpi : p = i
    · subst hpi
      rw [if_pos rfl, hw]
      exact congrArg some hname
    · rw [if_neg hpi]
  · intro i v hv
    rw [getElem?_replace] at hv
    by_cases hpi : p = i
    · subst hpi
      rw [if_pos rfl, hw] at hv
      cases hv
      exact hserved
    · rw [if_neg hpi] at hv
      rw [← hoffered i (Ne.symm hpi), ← hstopped i (Ne.symm hpi)]
      exact h.served i v hv

/-- A step of a worker changes nothing that is told. -/
lemma stepAt (h : b.Tracks names offered stopped) (p : ℕ) :
    (b.stepAt p).Tracks names offered stopped := by
  unfold Broadcast.stepAt
  cases hw : b.workers[p]? with
  | none => exact h
  | some w =>
    exact h.replace hw (w.name_step b.world) ((h.served p w hw).step b.world) (fun _ _ => rfl)
      (fun _ _ => rfl) _

/-- Draining a worker changes nothing that is told. -/
lemma drainAt (h : b.Tracks names offered stopped) (p : ℕ) :
    (b.drainAt p).Tracks names offered stopped := by
  unfold Broadcast.drainAt
  cases hw : b.workers[p]? with
  | none => exact h
  | some w =>
    exact h.replace hw (w.name_drain b.world) ((h.served p w hw).drain b.world) (fun _ _ => rfl)
      (fun _ _ => rfl) _

/-- Whatever the schedule lets the workers do changes nothing that is told. -/
lemma pause (h : b.Tracks names offered stopped) (schedule : Schedule) :
    (b.pause schedule).Tracks names offered stopped := by
  refine pause_induction (P := fun c => c.Tracks names offered stopped) h ?_ ?_ schedule
  · exact fun c p hc => hc.stepAt p
  · exact fun c n hc => ⟨hc.names_eq, hc.served⟩

end Tracks

/-- A step keeps what has ended. -/
lemma later_stepAt (b : Broadcast σ ω) (p : ℕ) : Later b (b.stepAt p) := by
  unfold stepAt
  cases hw : b.workers[p]? with
  | none => exact Later.refl b
  | some w =>
    exact later_replace hw (fun he => congrArg Prod.fst (Worker.step_of_ended he _)) _

/-- Draining a worker keeps what has ended, as a worker that has ended takes nothing. -/
lemma later_drainAt (b : Broadcast σ ω) (p : ℕ) : Later b (b.drainAt p) := by
  unfold drainAt
  cases hw : b.workers[p]? with
  | none => exact Later.refl b
  | some w =>
    exact later_replace hw (fun he => congrArg Prod.fst (Worker.steps_of_ended he _ _)) _

/-- A pause keeps what has ended. -/
lemma later_pause (b : Broadcast σ ω) (schedule : Schedule) : Later b (b.pause schedule) := by
  refine pause_induction (P := Later b) (Later.refl b) ?_ ?_ schedule
  · exact fun c p hc => hc.trans (later_stepAt c p)
  · exact fun c n hc => hc

/-- At the start nothing was offered. -/
lemma tracks_start (sinks : List σ) (world : ω) :
    (start (sinks.map Observed.of) world : Broadcast (Observed σ) ω).Tracks (sinks.map Sink.name)
      (fun _ => []) (fun _ => false) := by
  constructor
  · simp only [start, List.map_map]
    rfl
  · intro i w hw
    simp only [start, List.map_map, List.getElem?_map, Option.map_eq_some_iff] at hw
    obtain ⟨s, _, rfl⟩ := hw
    exact Worker.Served.start s

end Broadcast

namespace Broadcasting

open Broadcast

variable {names : List String} {offered : ℕ → List Record} (schedule : Schedule)

/-- What sending a message does: after a pause the message is in the queue, or the worker has
ended. -/
lemma exec_post (p : ℕ) (m : Message) (b : Broadcast σ ω) :
    exec (post schedule p m) b =
      match (b.pause schedule).workers[p]?.bind (·.post? m) with
      | none => (.ok false, b.pause schedule)
      | some w => (.ok true, (b.pause schedule).replace p w (b.pause schedule).world) := by
  unfold post
  rw [exec_modify_bind, exec_get_bind]
  cases (b.pause schedule).workers[p]?.bind (·.post? m) <;> rfl

/-- What a worker is told once a record was sent to it, in time or too late.

**Proof sketch.** The workers act before anything is sent, and what is told of each of them stays
true. If the worker has ended by then, the record is lost, and it is added to what was offered to a
worker that takes nothing more (`miss_record`). Otherwise it is put at the end of the queue
(`post_record`). No other worker is touched. -/
lemma exec_post_record {b : Broadcast (Observed σ) ω} (h : b.Tracks names offered fun _ => false)
    {p : ℕ} (hp : p < names.length) (r : Record) :
    ∃ sent b', exec (post schedule p (.record r)) b = (.ok sent, b') ∧ Later b b' ∧
      b'.Tracks names (fun i => if i = p then offered i ++ [r] else offered i) (fun _ => false) ∧
      (sent = false → ∃ w, b'.workers[p]? = some w ∧ w.isRunning = false) := by
  have hpause := h.pause schedule
  obtain ⟨w, hw⟩ := hpause.exists_worker hp
  have hserved := hpause.served p w hw
  rw [exec_post, hw, Option.bind_some]
  cases hpost : w.post? (.record r) with
  | none =>
    have hended := (w.post?_eq_none_iff _).mp hpost
    refine ⟨false, _, rfl, later_pause b schedule, ⟨hpause.names_eq, fun i v hv => ?_⟩,
      fun _ => ⟨w, hw, hended⟩⟩
    by_cases hi : i = p
    · subst hi
      obtain rfl : w = v := Option.some.inj (hw.symm.trans hv)
      rw [if_pos rfl]
      exact hserved.miss_record hended r
    · rw [if_neg hi]
      exact hpause.served i v hv
  | some w' =>
    have hrunning : w.isRunning ≠ false := fun he => by
      rw [(w.post?_eq_none_iff (.record r)).mpr he] at hpost; cases hpost
    refine ⟨true, _, rfl,
      (later_pause b schedule).trans (later_replace hw (fun he => absurd he hrunning) _), ?_,
      fun hf => by cases hf⟩
    refine hpause.replace hw (Worker.name_post? hpost) ?_ (fun i hi => (if_neg hi).symm)
      (fun _ _ => rfl) _
    rw [if_pos rfl]
    exact hserved.post_record hpost

/-- What was offered when a record has come to the workers before position `p`. -/
def reached (before : List Record) (r : Record) (p i : ℕ) : List Record :=
  if i < p then before ++ [r] else before

/-- When the worker at a position has been offered the record as well, the record has come to the
workers before the next position. -/
lemma reached_succ (before : List Record) (r : Record) (p : ℕ) :
    (fun i => if i = p then reached before r p i ++ [r] else reached before r p i) =
      reached before r (p + 1) := by
  funext i
  unfold reached
  by_cases hi : i = p
  · rw [if_pos hi, if_neg (by omega), if_pos (by omega)]
  · by_cases hlt : i < p
    · rw [if_neg hi, if_pos hlt, if_pos (by omega)]
    · rw [if_neg hi, if_neg hlt, if_neg (by omega)]

/-- Looking up a name changes nothing. -/
lemma exec_nameAt (p : ℕ) (b : Broadcast σ ω) :
    exec (nameAt p) b = (.ok ((b.workers[p]?.map (·.name)).getD ""), b) := rfl

/-- **Sending a record to the workers from `p` on.** Either all of them are offered the record, or
there is one that has ended and the record went to those up to it only.

**Proof sketch.** Induction on the number of workers that are left. The first of them is offered the
record; if it has ended, that is the end, and otherwise the others come next. -/
lemma exec_publishTo {before : List Record} {r : Record} (k : ℕ) :
    ∀ {p : ℕ} {b : Broadcast (Observed σ) ω}, p + k = names.length →
      b.Tracks names (reached before r p) (fun _ => false) →
      ∃ b', Later b b' ∧
        (exec (publishTo schedule r (List.range' p k)) b = (.ok (), b') ∧
            b'.Tracks names (reached before r names.length) (fun _ => false) ∨
          ∃ j w, exec (publishTo schedule r (List.range' p k)) b =
              (.error (.disconnected j w.name), b') ∧
            b'.Tracks names (reached before r (j + 1)) (fun _ => false) ∧
            b'.workers[j]? = some w ∧ w.isRunning = false) := by
  induction k with
  | zero =>
    intro p b hp h
    obtain rfl : p = names.length := by omega
    exact ⟨b, Later.refl b, .inl ⟨rfl, h⟩⟩
  | succ k ih =>
    intro p b hp h
    obtain ⟨sent, b₁, hexec, hlater, htracks, hended⟩ :=
      exec_post_record schedule h (p := p) (by omega) r
    rw [reached_succ] at htracks
    rw [List.range'_succ]
    unfold publishTo
    rw [exec_bind_ok hexec]
    cases sent with
    | true =>
      obtain ⟨b', hlater', hcases⟩ := ih (p := p + 1) (by omega) htracks
      exact ⟨b', hlater.trans hlater', hcases⟩
    | false =>
      obtain ⟨w, hw, he⟩ := hended rfl
      refine ⟨b₁, hlater, .inr ⟨p, w, ?_, htracks, hw, he⟩⟩
      rw [if_neg (by simp), exec_bind_ok (exec_nameAt p b₁), hw]
      rfl

/-- Publishing a record offers it to all workers, or to those up to the first that has ended. -/
lemma exec_publish {before : List Record} {b : Broadcast (Observed σ) ω}
    (h : b.Tracks names (fun _ => before) fun _ => false) (r : Record) :
    ∃ b', Later b b' ∧
      (exec (publish schedule r) b = (.ok (), b') ∧
          b'.Tracks names (fun _ => before ++ [r]) (fun _ => false) ∨
        ∃ j w, exec (publish schedule r) b = (.error (.disconnected j w.name), b') ∧
          b'.Tracks names (reached before r (j + 1)) (fun _ => false) ∧
          b'.workers[j]? = some w ∧ w.isRunning = false) := by
  have hpublish : exec (publish schedule r) b =
      exec (publishTo schedule r (List.range' 0 names.length)) b := by
    unfold publish
    rw [exec_get_bind, h.length_eq, List.range_eq_range']
  have hstart : b.Tracks names (reached before r 0) (fun _ => false) :=
    h.congr (fun i _ => (if_neg (by omega)).symm) (fun _ _ => rfl)
  obtain ⟨b', hlater, hcases⟩ := exec_publishTo schedule names.length (Nat.zero_add _) hstart
  rw [hpublish]
  refine ⟨b', hlater, hcases.imp ?_ id⟩
  rintro ⟨hexec, htracks⟩
  exact ⟨hexec, htracks.congr (fun i hi => if_pos hi) (fun _ _ => rfl)⟩

/-- Publishing records one by one is publishing the first, and the others if that was possible. -/
lemma perform_publishInTurn_cons (r : Record) (rest : List Record) (b : Broadcast σ ω) :
    perform (publishInTurn schedule (r :: rest)) b =
      match exec (publish schedule r) b with
      | (.ok (), b') =>
        let out := perform (publishInTurn schedule rest) b'
        ((r :: out.1.1, out.1.2), out.2)
      | (.error fault, b') => (([r], some fault), b') := by
  conv_lhs => unfold publishInTurn
  rw [perform_bind, perform_run]
  rcases exec (publish schedule r) b with ⟨x, b'⟩
  cases x <;> rfl

/-- **Publishing a list of records.** Each worker was offered its share of the records that were
tried. Those are all records, unless publishing stopped; it stops only at a worker that has ended.

**Proof sketch.** Induction on the records. A record that all workers were offered belongs to what
was offered before, and the induction goes on. -/
lemma perform_publishInTurn (records : List Record) :
    ∀ {before : List Record} {b : Broadcast (Observed σ) ω},
      b.Tracks names (fun _ => before) (fun _ => false) →
      ∃ tried fault? b', perform (publishInTurn schedule records) b = ((tried, fault?), b') ∧
        Later b b' ∧
        b'.Tracks names (fun i => before ++ share tried fault? i) (fun _ => false) ∧
        tried <+: records ∧
        (fault? = none ∧ tried = records ∨
          ∃ j w, fault? = some (.disconnected j w.name) ∧ tried ≠ [] ∧
            b'.workers[j]? = some w ∧ w.isRunning = false) := by
  induction records with
  | nil =>
    intro before b h
    refine ⟨[], none, b, rfl, Later.refl b, ?_, List.prefix_rfl, .inl ⟨rfl, rfl⟩⟩
    exact h.congr (fun _ _ => (List.append_nil _).symm) (fun _ _ => rfl)
  | cons r rest ih =>
    intro before b h
    obtain ⟨b₁, hlater, ⟨hexec, htracks⟩ | ⟨j, w, hexec, htracks, hw, he⟩⟩ :=
      exec_publish schedule h r
    · obtain ⟨tried, fault?, b', hperform, hlater', htracks', hinitial, hcases⟩ := ih htracks
      refine ⟨r :: tried, fault?, b', ?_, hlater.trans hlater', ?_,
        List.cons_prefix_cons.mpr ⟨rfl, hinitial⟩, ?_⟩
      · rw [perform_publishInTurn_cons, hexec]
        simp only [hperform]
      · refine htracks'.congr (fun i _ => ?_) (fun _ _ => rfl)
        rw [List.append_assoc, List.singleton_append]
        rcases hcases with ⟨rfl, -⟩ | ⟨j, w, rfl, hne, -, -⟩
        · rfl
        · simp only [share]
          split
          · rw [List.dropLast_cons_of_ne_nil hne]
          · rfl
      · rcases hcases with ⟨hnone, rfl⟩ | ⟨j, w, hsome, -, hw, he⟩
        · exact .inl ⟨hnone, rfl⟩
        · exact .inr ⟨j, w, hsome, List.cons_ne_nil _ _, hw, he⟩
    · refine ⟨[r], some (.disconnected j w.name), b₁, ?_, hlater, ?_,
        List.cons_prefix_cons.mpr ⟨rfl, List.nil_prefix⟩,
        .inr ⟨j, w, rfl, List.cons_ne_nil _ _, hw, he⟩⟩
      · rw [perform_publishInTurn_cons, hexec]
      · refine htracks.congr (fun i _ => ?_) (fun _ _ => rfl)
        simp only [reached, share]
        by_cases hi : j < i
        · rw [if_pos hi, if_neg (by omega)]
          exact (List.append_nil _).symm
        · rw [if_neg hi, if_pos (by omega)]

end Broadcasting

end EditIdioms
