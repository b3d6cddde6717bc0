import Mathlib.Tactic.Lemma

set_option relaxedAutoImplicit false
set_option autoImplicit false

/-!
# Executing computations that may fail

The actions on a broadcast are computations that change a state and may end in a fault. Executing
one from a state gives how it ended together with the state it left. The lemmas of this file tell
what each building block does, so that the proofs about the actions never look into the monad.

## Main definitions

* `exec` — how a computation ends from a given state, and the state it leaves.
* `perform` — the same for computations that cannot fail.

## Main results

* `exec_bind` — a sequence goes on from the state its first part left, unless that part failed.
* `exec_bind_eq_ok`, `exists_of_bind_eq_ok` — what a sequence has done that gave a value, with a
  state and without.
* `exec_bind_ok`, `exec_get_bind`, `exec_modify_bind`, `exec_observing_bind` — what comes after a
  part that cannot have failed.
* `perform_bind`, `perform_run` — the same without failures, and the failure as a value.
-/

namespace EditIdioms

variable {ε s α β : Type}

/-- What a sequence without a state has done that gave a value. -/
lemma exists_of_bind_eq_ok {x : Except ε α} {f : α → Except ε β} {b : β} (h : x >>= f = .ok b) :
    ∃ a, x = .ok a ∧ f a = .ok b := by
  cases x with
  | error fault => cases h
  | ok a => exact ⟨a, rfl, h⟩

/-- How a computation ends from a given state, and the state it leaves. -/
def exec (c : ExceptT ε (StateM s) α) (b : s) : Except ε α × s := c.run.run b

/-- A value is given without any change. -/
@[simp] lemma exec_pure (a : α) (b : s) : exec (pure a : ExceptT ε (StateM s) α) b = (.ok a, b) :=
  rfl

/-- A fault is thrown without any change. -/
@[simp] lemma exec_throw (e : ε) (b : s) :
    exec (throw e : ExceptT ε (StateM s) α) b = (.error e, b) := rfl

/-- The state can be read. -/
@[simp] lemma exec_get (b : s) : exec (get : ExceptT ε (StateM s) s) b = (.ok b, b) := rfl

/-- The state can be replaced. -/
@[simp] lemma exec_set (b' b : s) : exec (set b' : ExceptT ε (StateM s) PUnit) b = (.ok ⟨⟩, b') :=
  rfl

/-- The state can be changed by a function. -/
@[simp] lemma exec_modify (f : s → s) (b : s) :
    exec (modify f : ExceptT ε (StateM s) PUnit) b = (.ok ⟨⟩, f b) := rfl

/-- An outcome is passed on as it is. -/
@[simp] lemma exec_liftExcept (x : Except ε α) (b : s) :
    exec (liftExcept x : ExceptT ε (StateM s) α) b = (x, b) := by
  cases x <;> rfl

/-- A sequence goes on from the state its first part left, unless that part failed. -/
lemma exec_bind (c : ExceptT ε (StateM s) α) (k : α → ExceptT ε (StateM s) β) (b : s) :
    exec (c >>= k) b =
      match exec c b with
      | (.ok a, b') => exec (k a) b'
      | (.error e, b') => (.error e, b') := by
  change (match exec c b with
    | (x, b') => (ExceptT.bindCont k x : StateM s (Except ε β)).run b') = _
  rcases exec c b with ⟨x, b'⟩
  cases x <;> rfl

/-- What comes after a part that gave a value. -/
lemma exec_bind_ok {c : ExceptT ε (StateM s) α} {a : α} {b b' : s} (h : exec c b = (.ok a, b'))
    (k : α → ExceptT ε (StateM s) β) : exec (c >>= k) b = exec (k a) b' := by
  rw [exec_bind, h]

/-- A sequence gives a value only if its first part does. -/
lemma exec_bind_eq_ok {c : ExceptT ε (StateM s) α} {k : α → ExceptT ε (StateM s) β} {b b'' : s}
    {out : β} (h : exec (c >>= k) b = (.ok out, b'')) :
    ∃ a b', exec c b = (.ok a, b') ∧ exec (k a) b' = (.ok out, b'') := by
  rw [exec_bind] at h
  rcases hc : exec c b with ⟨_ | a, b'⟩
  · rw [hc] at h
    cases h
  · rw [hc] at h
    exact ⟨a, b', rfl, h⟩

/-- What comes after the state was read. -/
lemma exec_get_bind (k : s → ExceptT ε (StateM s) α) (b : s) :
    exec (get >>= k) b = exec (k b) b := exec_bind_ok (exec_get b) k

/-- What comes after the state was changed. -/
lemma exec_modify_bind (f : s → s) (k : PUnit → ExceptT ε (StateM s) α) (b : s) :
    exec (modify f >>= k) b = exec (k ⟨⟩) (f b) := exec_bind_ok (exec_modify f b) k

/-- A fault can be caught; the handler goes on from the state the fault left. -/
lemma exec_tryCatch (c : ExceptT ε (StateM s) α) (handle : ε → ExceptT ε (StateM s) α) (b : s) :
    exec (tryCatch c handle) b =
      match exec c b with
      | (.ok a, b') => (.ok a, b')
      | (.error e, b') => exec (handle e) b' := by
  change (match exec c b with
    | (x, b') => ((match x with
      | .ok a => pure (.ok a)
      | .error e => handle e : StateM s (Except ε α))).run b') = _
  rcases exec c b with ⟨x, b'⟩
  cases x <;> rfl

/-- A fault that is observed is given as a value. -/
@[simp] lemma exec_observing (c : ExceptT ε (StateM s) α) (b : s) :
    exec (observing c) b = (.ok (exec c b).1, (exec c b).2) := by
  unfold observing
  rw [exec_tryCatch, exec_bind]
  rcases exec c b with ⟨x, b'⟩
  cases x <;> rfl

/-- What comes after an observed part. -/
lemma exec_observing_bind (c : ExceptT ε (StateM s) α) (k : Except ε α → ExceptT ε (StateM s) β)
    (b : s) : exec (observing c >>= k) b = exec (k (exec c b).1) (exec c b).2 :=
  exec_bind_ok (exec_observing c b) k

/-- What a computation that cannot fail gives from a given state, and the state it leaves. -/
def perform (c : StateM s α) (b : s) : α × s := c.run b

/-- A value is given without any change. -/
@[simp] lemma perform_pure (a : α) (b : s) : perform (pure a : StateM s α) b = (a, b) := rfl

/-- The state can be read. -/
@[simp] lemma perform_get (b : s) : perform (get : StateM s s) b = (b, b) := rfl

/-- A sequence goes on from the state its first part left. -/
lemma perform_bind (c : StateM s α) (k : α → StateM s β) (b : s) :
    perform (c >>= k) b = perform (k (perform c b).1) (perform c b).2 := rfl

/-- A computation that cannot fail gives a value. -/
@[simp] lemma exec_lift (c : StateM s α) (b : s) :
    exec (liftM c : ExceptT ε (StateM s) α) b = (.ok (perform c b).1, (perform c b).2) := rfl

/-- A computation that may fail gives how it ended. -/
@[simp] lemma perform_run (c : ExceptT ε (StateM s) α) (b : s) : perform c.run b = exec c b := rfl

end EditIdioms
