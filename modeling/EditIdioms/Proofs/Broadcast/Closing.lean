import EditIdioms.Proofs.Broadcast.Delivery

set_option relaxedAutoImplicit false
set_option autoImplicit false

/-!
# Closing a broadcast

When a broadcast is closed, the workers are stopped and waited for one after the other. Each of them
has ended before the next one is stopped, and stays as it ended, so what is reported can be read off
the workers at the end: the reports of all of them, or the fault of the first one that has a fault.
What a worker reports is in turn decided by the calls of its sink.

## Main definitions

* `Call.fault?`, `Call.firstFault?` — the fault that calls of a sink lead to.
* `Worker.fault?`, `Broadcast.firstFault?` — the fault of a worker, by the calls of its sink, and
  the first one in the order of registration.

## Main results

* `Served.account_eq` — what a worker reports when it has ended.
* `exec_join`, `exec_close` — waiting for one worker, and for all of them.
* `perform_abandon` — giving a broadcast up leaves it as closing does.
-/

namespace EditIdioms

variable {σ ω : Type} [Sink σ ω]

/-- The fault that a call leads to, when it is the call at a place, counted from one, of the sink of
the worker at a position. -/
def Call.fault? (position : ℕ) (name : String) (place : ℕ) : Call → Option BroadcastFault
  | .consume _ .done | .cleanup .done => none
  | .consume _ (.failed message) =>
    some (.failed position name
      ("record " ++ decimalText place ++ " rejected by " ++ name ++ ": " ++ message))
  | .cleanup (.failed message) =>
    some (.failed position name ("cleanup of " ++ name ++ " failed: " ++ message))
  | .consume _ .panicked | .cleanup .panicked => some (.panicked position name)

/-- The fault of the first call that leads to one. -/
def Call.firstFault? (position : ℕ) (name : String) (calls : List Call) : Option BroadcastFault :=
  (calls.zipIdx 1).findSome? fun (call, place) => call.fault? position name place

/-- The fault of a worker, by the calls of its sink. -/
def Worker.fault? (w : Worker (Observed σ)) (position : ℕ) : Option BroadcastFault :=
  Call.firstFault? position w.name w.sink.calls

/-- The fault of the first worker that has one. -/
def Broadcast.firstFault? (b : Broadcast (Observed σ) ω) : Option BroadcastFault :=
  b.workers.zipIdx.findSome? fun (w, i) => w.fault? i

/-- A call leads to a fault exactly when it was not done. -/
lemma Call.fault?_eq_none_iff (position : ℕ) (name : String) (place : ℕ) (call : Call) :
    call.fault? position name place = none ↔ call.verdict = .done := by
  cases call with
  | consume r v => cases v <;> simp [fault?]
  | cleanup v => cases v <;> simp [fault?]

/-- Records that are taken lead to no fault. -/
lemma Call.firstFault?_accepted (position : ℕ) (name : String) (done : List Record) (start : ℕ) :
    ((done.map Call.accepted).zipIdx start).findSome?
      (fun (call, place) => call.fault? position name place) = none := by
  induction done generalizing start with
  | nil => rfl
  | cons r done ih =>
    rw [List.map_cons, List.zipIdx_cons, List.findSome?_cons]
    exact ih (start + 1)

/-- After records that were taken, the next call decides. -/
lemma Call.firstFault?_append (position : ℕ) (name : String) (done : List Record) (call : Call) :
    Call.firstFault? position name (done.map Call.accepted ++ [call]) =
      call.fault? position name (done.length + 1) := by
  unfold Call.firstFault?
  rw [List.zipIdx_append, List.findSome?_append, Call.firstFault?_accepted, List.length_map]
  simp [Nat.add_comm]

/-- There is no fault exactly when all calls were done. -/
lemma Call.firstFault?_eq_none_iff (position : ℕ) (name : String) (calls : List Call) :
    Call.firstFault? position name calls = none ↔ ∀ call ∈ calls, call.verdict = .done := by
  unfold Call.firstFault?
  rw [List.findSome?_eq_none_iff]
  constructor
  · intro h call hcall
    obtain ⟨i, hi, rfl⟩ := List.getElem_of_mem hcall
    have hmem : (calls[i], 1 + i) ∈ calls.zipIdx 1 :=
      List.mk_add_mem_zipIdx_iff_getElem?.mpr (List.getElem?_eq_getElem hi)
    exact (Call.fault?_eq_none_iff _ _ _ _).mp (h _ hmem)
  · intro h ⟨call, place⟩ hmem
    exact (Call.fault?_eq_none_iff _ _ _ _).mpr (h call (List.fst_mem_of_mem_zipIdx hmem))

/-- What a worker reports when it was stopped and has ended. -/
lemma Worker.Served.account_eq {offered : List Record} {w : Worker (Observed σ)}
    (h : w.Served offered true) (he : w.isRunning = false) (position : ℕ) :
    w.account position =
      (w.fault? position).elim (.ok { name := w.name, consumed := w.consumed }) .error := by
  cases h with
  | running done pending ho hc hn hq hend => simp [isRunning, hend] at he
  | rejected done r lost v ho hv hc hend =>
    rw [account, hend, fault?, hc, Call.firstFault?_append]
    cases v with
    | done => exact absurd rfl hv
    | failed message => rfl
    | panicked => rfl
  | cleaned v hs hc hn hend =>
    rw [account, hend, fault?, hc, Call.firstFault?_append]
    cases v <;> rfl

namespace Broadcasting

open Broadcast

variable {names : List String} {offered : ℕ → List Record} (schedule : Schedule)

/-- Before anything else happens, a worker that is to be stopped finds the stop mark in its queue,
or it has ended.

**Proof sketch.** The workers act before anything is sent, which keeps what is told of each of them.
If the worker has ended by then, nothing is sent and it has missed the stop mark (`miss_stop`);
otherwise the mark is put at the end of its queue (`post_stop`). In both cases the other workers are
as they were, and that they count as stopped or not does not depend on this one. -/
lemma exec_post_stop {b : Broadcast (Observed σ) ω} {p : ℕ}
    (h : b.Tracks names offered fun i => decide (i < p)) (hp : p < names.length) :
    ∃ sent b', exec (post schedule p .stop) b = (.ok sent, b') ∧ Later b b' ∧
      b'.Tracks names offered fun i => decide (i < p + 1) := by
  have hpause := h.pause schedule
  obtain ⟨w, hw⟩ := hpause.exists_worker hp
  have hserved : w.Served (offered p) false := by
    have := hpause.served p w hw
    rwa [decide_eq_false (Nat.lt_irrefl p)] at this
  have hothers : ∀ i ≠ p, decide (i < p) = decide (i < p + 1) := fun i hi =>
    decide_eq_decide.mpr (by omega)
  have hself : decide (p < p + 1) = true := decide_eq_true (Nat.lt_succ_self p)
  rw [exec_post, hw, Option.bind_some]
  cases hpost : w.post? .stop with
  | none =>
    have hended := (w.post?_eq_none_iff _).mp hpost
    refine ⟨false, _, rfl, later_pause b schedule, hpause.names_eq, fun i v hv => ?_⟩
    by_cases hi : i = p
    · subst hi
      obtain rfl : w = v := Option.some.inj (hw.symm.trans hv)
      rw [hself]
      exact hserved.miss_stop hended
    · rw [← hothers i hi]
      exact hpause.served i v hv
  | some w' =>
    have hrunning : w.isRunning ≠ false := fun he => by
      rw [(w.post?_eq_none_iff .stop).mpr he] at hpost; cases hpost
    refine ⟨true, _, rfl,
      (later_pause b schedule).trans (later_replace hw (fun he => absurd he hrunning) _), ?_⟩
    refine hpause.replace hw (Worker.name_post? hpost) ?_ (fun _ _ => rfl) hothers _
    rw [hself]
    exact hserved.post_stop hpost

/-- The worker that was drained is the drained worker. -/
lemma getElem?_drainAt {b : Broadcast σ ω} {p : ℕ} {w : Worker σ} (hw : b.workers[p]? = some w) :
    (b.drainAt p).workers[p]? = some (w.drain b.world).1 := by
  unfold drainAt
  rw [hw]
  dsimp only
  rw [getElem?_replace, if_pos rfl, hw]
  rfl

/-- **Waiting for a worker.** The worker is stopped and has ended, and what it reports is returned.

**Proof sketch.** After the stop mark was sent the worker may go on as the schedule says. Draining
it takes whatever is left in its queue, which ends it because of the stop mark. -/
lemma exec_join {b : Broadcast (Observed σ) ω} {p : ℕ}
    (h : b.Tracks names offered fun i => decide (i < p)) (hp : p < names.length) :
    ∃ b' w, exec (join schedule p) b = (w.account p, b') ∧ Later b b' ∧
      (b'.Tracks names offered fun i => decide (i < p + 1)) ∧
      b'.workers[p]? = some w ∧ w.isRunning = false := by
  obtain ⟨sent, b₁, hexec, hlater, htracks⟩ := exec_post_stop schedule h hp
  have hpause := htracks.pause schedule
  obtain ⟨w, hw⟩ := hpause.exists_worker hp
  have hdrain := getElem?_drainAt hw
  have hserved := hpause.served p w hw
  rw [decide_eq_true (Nat.lt_succ_self p)] at hserved
  refine ⟨(b₁.pause schedule).drainAt p, (w.drain (b₁.pause schedule).world).1, ?_,
    (hlater.trans (later_pause b₁ schedule)).trans (later_drainAt _ p), hpause.drainAt p, hdrain,
    hserved.isRunning_drain _⟩
  unfold join
  rw [exec_bind_ok hexec, exec_modify_bind, exec_modify_bind, exec_get_bind, hdrain]
  exact exec_liftExcept _ _

/-- Waiting for several workers is waiting for the first and then for the others; the first fault
counts. -/
lemma exec_joinAll_cons (p : ℕ) (rest : List ℕ) (b : Broadcast σ ω) :
    exec (joinAll schedule (p :: rest)) b =
      let first := exec (join schedule p) b
      let others := exec (joinAll schedule rest) first.2
      (do return (← first.1) :: (← others.1), others.2) := by
  conv_lhs => unfold joinAll
  rw [exec_observing_bind, exec_observing_bind]
  rcases exec (join schedule p) b with ⟨x, b₁⟩
  dsimp only
  rcases exec (joinAll schedule rest) b₁ with ⟨y, b₂⟩
  cases x <;> cases y <;> rfl

/-- **Waiting for the workers from `p` on.** All of them have ended, and their reports are returned
in order, or the first fault among them.

**Proof sketch.** Induction on the number of workers that are left. The first of them has ended when
it was waited for, and is unchanged at the end, so its report can be read off the end. -/
lemma exec_joinAll (k : ℕ) :
    ∀ {p : ℕ} {b : Broadcast (Observed σ) ω}, p + k = names.length →
      (b.Tracks names offered fun i => decide (i < p)) →
      ∃ b', exec (joinAll schedule (List.range' p k)) b =
          (((b'.workers.drop p).zipIdx p).mapM fun (w, i) => w.account i, b') ∧
        Later b b' ∧ b'.Tracks names offered (fun i => decide (i < names.length)) ∧
        ∀ i w, p ≤ i → b'.workers[i]? = some w → w.isRunning = false := by
  induction k with
  | zero =>
    intro p b hp h
    obtain rfl : p = names.length := by omega
    have hdrop : b.workers.drop names.length = [] := by
      rw [← h.length_eq, List.drop_length]
    refine ⟨b, ?_, Later.refl b, h, fun i w hi hw => ?_⟩
    · rw [hdrop]; rfl
    · obtain ⟨hlt, -⟩ := List.getElem?_eq_some_iff.mp hw
      rw [h.length_eq] at hlt
      omega
  | succ k ih =>
    intro p b hp h
    obtain ⟨b₁, w, hjoin, hlater, htracks, hw, hended⟩ := exec_join schedule h (by omega)
    obtain ⟨b', hexec, hlater', htracks', hall⟩ := ih (p := p + 1) (by omega) htracks
    have hw' : b'.workers[p]? = some w := hlater' p w hw hended
    refine ⟨b', ?_, hlater.trans hlater', htracks', fun i v hi hv => ?_⟩
    · rw [List.range'_succ, exec_joinAll_cons, hjoin]
      obtain ⟨hlt, hget⟩ := List.getElem?_eq_some_iff.mp hw'
      rw [List.drop_eq_getElem_cons hlt, hget, List.zipIdx_cons, List.mapM_cons]
      simp only [hexec]
    · rcases Nat.eq_or_lt_of_le hi with rfl | hlt
      · obtain rfl : w = v := Option.some.inj (hw'.symm.trans hv)
        exact hended
      · exact hall i v hlt hv

/-- The first fault of some outcomes is what running through them ends with; without a fault the
values are given in order. -/
lemma mapM_eq_findSome? {α β ε : Type} {f : α → Except ε β} {g : α → Option ε} {h : α → β}
    (l : List α)
    (hf : ∀ a ∈ l, f a = (g a).elim (.ok (h a)) .error) :
    l.mapM f = (l.findSome? g).elim (.ok (l.map h)) .error := by
  induction l with
  | nil => rfl
  | cons a l ih =>
    rw [List.mapM_cons, hf a List.mem_cons_self, List.findSome?_cons,
      ih fun x hx => hf x (List.mem_cons_of_mem a hx)]
    cases g a with
    | some e => rfl
    | none => cases l.findSome? g <;> rfl

/-- **Closing.** All workers were stopped and have ended. The fault of the first worker that has one
is reported, or what each of them has consumed.

**Proof sketch.** Closing joins the workers from the first one to the last (`exec_joinAll`), so in
the end all were stopped and all have ended. The reports are gathered in the same order. A worker
that has ended accounts either for its fault or for what it has consumed (`account_eq`), so
gathering stops at the first fault, or gives all reports (`mapM_eq_findSome?`). -/
lemma exec_close {b : Broadcast (Observed σ) ω} (h : b.Tracks names offered fun _ => false) :
    ∃ b', exec (close schedule) b =
        (b'.firstFault?.elim
          (.ok (b'.workers.map fun w => { name := w.name, consumed := w.consumed })) .error, b') ∧
      Later b b' ∧ b'.Tracks names offered (fun _ => true) ∧
      ∀ (i : ℕ) (w : Worker (Observed σ)), b'.workers[i]? = some w → w.isRunning = false := by
  have hclose : exec (close schedule) b =
      exec (joinAll schedule (List.range' 0 names.length)) b := by
    unfold close
    rw [exec_get_bind, h.length_eq, List.range_eq_range']
  obtain ⟨b', hexec, hlater, htracks, hall⟩ :=
    exec_joinAll schedule names.length (p := 0) (by omega) (h.congr (fun _ _ => rfl) fun i _ =>
      (decide_eq_false (by omega)).symm)
  have hstopped : b'.Tracks names offered fun _ => true :=
    htracks.congr (fun _ _ => rfl) fun i hi => decide_eq_true hi
  refine ⟨b', ?_, hlater, hstopped, fun i w hw => hall i w (Nat.zero_le i) hw⟩
  rw [hclose, hexec, List.drop_zero]
  refine Prod.ext ?_ rfl
  have hmap : b'.workers.zipIdx.map
        (fun (w, _) => { name := w.name, consumed := w.consumed : Report }) =
      b'.workers.map fun w => { name := w.name, consumed := w.consumed } := by
    conv_rhs => rw [← List.zipIdx_map_fst 0 b'.workers]
    rw [List.map_map]
    rfl
  rw [← hmap]
  refine mapM_eq_findSome? _ ?_
  rintro ⟨w, i⟩ hmem
  have hw : b'.workers[i]? = some w := List.mk_mem_zipIdx_iff_getElem?.mp hmem
  exact (hstopped.served i w hw).account_eq (hall i w (Nat.zero_le i) hw) i

/-- Giving workers up leaves them as waiting for their reports does. -/
lemma perform_abandonAll (is : List ℕ) (b : Broadcast σ ω) :
    perform (abandonAll schedule is) b = ((), (exec (joinAll schedule is) b).2) := by
  induction is generalizing b with
  | nil => rfl
  | cons i is ih =>
    rw [exec_joinAll_cons]
    conv_lhs => unfold abandonAll
    rw [perform_bind, perform_run]
    exact ih _

/-- **Giving a broadcast up** leaves it as closing it does. -/
lemma perform_abandon (b : Broadcast σ ω) :
    perform (abandon schedule) b = ((), (exec (close schedule) b).2) := by
  unfold abandon close
  rw [perform_bind, perform_get, exec_get_bind]
  exact perform_abandonAll schedule _ b

end Broadcasting

end EditIdioms
