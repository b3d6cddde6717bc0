import EditIdioms.Mining
import EditIdioms.Proofs.Broadcast.Delivery

set_option relaxedAutoImplicit false
set_option autoImplicit false

/-!
# What mining has to publish

Mining classifies edits, publishes what it finds, and stops when a record cannot be sent to every
worker. Up to there nothing it does depends on the workers. What there is to publish, and how mining
ends if all of it can be published, is therefore known without any broadcast: it is the script of
mining. On a broadcast mining publishes the records of its script in turn (`Follows`), and
publishing records in turn is what sessions are about.

## Main definitions

* `Obstacle`, `Script` — records to publish, and what comes of mining after them.
* `Miner.scriptEdits`, `scriptDiffs`, `scriptProjects`, `scriptCrawl` — the scripts of the parts of
  mining.
* `Script.Counted` — what is counted with a value is the number of records.
* `Follows` — a computation publishes the records of a script and ends as the script says.

## Main results

* `perform_publishInTurn_append` — publishing one list after another.
* `follows_bind` — computations in sequence follow their scripts in sequence.
* `follows_mineCrawl` — mining follows its script.
* `Script.counted_add` — the counts of scripts in sequence.
* `counted_scriptCrawl` — what mining counts as published are the records of its script.
-/

namespace EditIdioms

open Broadcasting

/-- What can stop mining apart from the workers. -/
inductive Obstacle where
  | dataset (fault : DatasetFault)
  /-- A detector reached outside a tree. -/
  | arena (fault : ArenaFault)

/-- The fault that an obstacle is reported as. -/
def Obstacle.fault : Obstacle → MiningFault
  | dataset fault => .dataset fault
  | arena fault => .arena fault

/-- Records to publish, and what comes of mining when they are published. -/
structure Script (α : Type) where
  records : List Record := []
  ending : Except Obstacle α

namespace Script

variable {α β : Type}

/-- Publishes nothing and gives a value. -/
def value (a : α) : Script α := { ending := .ok a }

/-- Publishes nothing and meets an obstacle. -/
def obstructed (obstacle : Obstacle) : Script α := { ending := .error obstacle }

/-- Publishes records. -/
def publish (records : List Record) : Script Unit := { records, ending := .ok () }

/-- Goes on with another script unless the first one has met an obstacle. -/
def andThen (p : Script α) (k : α → Script β) : Script β :=
  match p.ending with
  | .ok a => { records := p.records ++ (k a).records, ending := (k a).ending }
  | .error obstacle => { records := p.records, ending := .error obstacle }

/-- What comes of a computation that publishes the records, and may be stopped by a worker. -/
def result (p : Script α) : Option BroadcastFault → Except MiningFault α
  | some fault => .error (.broadcast fault)
  | none => p.ending.mapError Obstacle.fault

/-- Going on publishes the records of both parts. -/
lemma andThen_of_ok {p : Script α} {a : α} (h : p.ending = .ok a) (k : α → Script β) :
    p.andThen k = { records := p.records ++ (k a).records, ending := (k a).ending } := by
  rw [andThen, h]

/-- Nothing comes after an obstacle, so a script that meets one stays as it is. -/
lemma andThen_of_error {p : Script α} {obstacle : Obstacle} (h : p.ending = .error obstacle)
    (k : α → Script β) :
    p.andThen k = { records := p.records, ending := .error obstacle } := by
  rw [andThen, h]

/-- A script that goes on gives what both parts give. -/
lemma andThen_eq_ok {p : Script α} {k : α → Script β} {b : β}
    (h : (p.andThen k).ending = .ok b) :
    ∃ a, p.ending = .ok a ∧ (k a).ending = .ok b ∧
      (p.andThen k).records = p.records ++ (k a).records := by
  cases hp : p.ending with
  | ok a =>
    rw [andThen_of_ok hp] at h ⊢
    exact ⟨a, rfl, h, rfl⟩
  | error obstacle =>
    rw [andThen_of_error hp] at h
    cases h

/-- There is a result exactly when no worker stops the publishing and no obstacle is met. -/
lemma result_eq_ok_iff {p : Script α} {fault? : Option BroadcastFault} {a : α} :
    p.result fault? = .ok a ↔ fault? = none ∧ p.ending = .ok a := by
  cases fault? with
  | some fault => simp [result]
  | none => cases h : p.ending <;> simp [result, h, Except.mapError]

/-- The fault of a worker is the result exactly when it stopped the publishing. -/
lemma result_eq_broadcast_iff {p : Script α} {fault? : Option BroadcastFault}
    {fault : BroadcastFault} :
    p.result fault? = .error (.broadcast fault) ↔ fault? = some fault := by
  cases fault? with
  | some fault' => simp [result]
  | none =>
    cases h : p.ending with
    | ok a => simp [result, h, Except.mapError]
    | error obstacle => cases obstacle <;> simp [result, h, Except.mapError, Obstacle.fault]

end Script

/-! ## The scripts of mining -/

namespace Miner

/-- What an edit leads to. -/
def scriptRules (m : Miner) (project : String) (rule? : Option Rule) : Script Unit :=
  .publish (((rule?.map m.rulesFor).getD []).map fun rule => { rule, project })

/-- What edits lead to, one after the other. -/
def scriptEdits (m : Miner) (project : String) : List (Edit Site) → Script Stats
  | [] => .value {}
  | edit :: rest =>
    match m.chain.classify edit with
    | .error fault => .obstructed (.arena fault)
    | .ok rule? =>
      (m.scriptRules project rule?).andThen fun _ =>
        (scriptEdits m project rest).andThen fun stats => .value ((m.countFor rule?).add stats)

/-- What the documents of a project lead to. -/
def scriptDiffs (m : Miner) (project : String) : List FileDiff → Script Summary
  | [] => .value {}
  | diff :: rest =>
    (m.scriptEdits project diff.edits).andThen fun stats =>
      (scriptDiffs m project rest).andThen fun others =>
        .value { others with files := others.files + 1, stats := stats.add others.stats }

/-- What projects lead to, one after the other. -/
def scriptProjects (m : Miner) (crawl : Crawl) : List Project → Script Summary
  | [] => .value {}
  | project :: rest =>
    match crawl.diffs project with
    | .error fault => .obstructed (.dataset fault)
    | .ok diffs =>
      (m.scriptDiffs project.id diffs).andThen fun here =>
        (scriptProjects m crawl rest).andThen fun others =>
          .value {
            projects := others.projects + 1
            files := here.files + others.files
            stats := here.stats.add others.stats }

/-- What a crawl leads to. -/
def scriptCrawl (m : Miner) (crawl : Crawl) : Script Summary :=
  match crawl.projects with
  | .error fault => .obstructed (.dataset fault)
  | .ok projects => m.scriptProjects crawl projects

end Miner

/-! ## Counting -/

/-- What is counted with a value that a script gives is the number of its records. -/
def Script.Counted {α : Type} (p : Script α) (count : α → ℕ) : Prop :=
  ∀ a, p.ending = .ok a → count a = p.records.length

/-- A script without records that gives a value with nothing counted. -/
lemma Script.counted_value {α : Type} {a : α} {count : α → ℕ} (h : count a = 0) :
    (Script.value a).Counted count := by
  intro a' ha'
  cases ha'
  exact h

/-- A script that meets an obstacle gives no value. -/
lemma Script.counted_obstructed {α : Type} (obstacle : Obstacle) (count : α → ℕ) :
    (Script.obstructed obstacle).Counted count := by
  intro a ha
  cases ha

/-- Two scripts in sequence whose counts are added. -/
lemma Script.counted_add {α β γ : Type} {p : Script α} {q : Script β} {f : α → β → γ}
    {count : α → ℕ} {count' : β → ℕ} {count'' : γ → ℕ} (hp : p.Counted count)
    (hq : q.Counted count') (hf : ∀ a b, count'' (f a b) = count a + count' b) :
    (p.andThen fun a => q.andThen fun b => .value (f a b)).Counted count'' := by
  intro c hc
  obtain ⟨a, ha, hrest, hrecords⟩ := Script.andThen_eq_ok hc
  obtain ⟨b, hb, hvalue, hrecords'⟩ := Script.andThen_eq_ok hrest
  cases hvalue
  rw [hrecords, hrecords', hf, hp a ha, hq b hb, List.length_append, List.length_append]
  rfl

namespace Miner

/-- As many records are counted for an edit as it leads to. -/
lemma counted_scriptRules (m : Miner) (project : String) (rule? : Option Rule) :
    (m.scriptRules project rule?).Counted fun _ => (m.countFor rule?).records := by
  intro _ _
  cases rule? with
  | none => rfl
  | some rule => simp [countFor, scriptRules, Script.publish]

/-- As many records are counted for edits as they lead to. -/
lemma counted_scriptEdits (m : Miner) (project : String) (edits : List (Edit Site)) :
    (m.scriptEdits project edits).Counted Stats.records := by
  induction edits with
  | nil => exact Script.counted_value rfl
  | cons edit rest ih =>
    unfold scriptEdits
    cases m.chain.classify edit with
    | error fault => exact Script.counted_obstructed _ _
    | ok rule? => exact Script.counted_add (m.counted_scriptRules project rule?) ih fun _ _ => rfl

/-- As many records are counted for documents as they lead to. -/
lemma counted_scriptDiffs (m : Miner) (project : String) (diffs : List FileDiff) :
    (m.scriptDiffs project diffs).Counted (·.stats.records) := by
  induction diffs with
  | nil => exact Script.counted_value rfl
  | cons diff rest ih =>
    exact Script.counted_add (m.counted_scriptEdits project diff.edits) ih fun _ _ => rfl

/-- As many records are counted for projects as they lead to. -/
lemma counted_scriptProjects (m : Miner) (crawl : Crawl) (projects : List Project) :
    (m.scriptProjects crawl projects).Counted (·.stats.records) := by
  induction projects with
  | nil => exact Script.counted_value rfl
  | cons project rest ih =>
    unfold scriptProjects
    cases crawl.diffs project with
    | error fault => exact Script.counted_obstructed _ _
    | ok diffs =>
      exact Script.counted_add (m.counted_scriptDiffs project.id diffs) ih fun _ _ => rfl

/-- **What mining counts as published** are the records of its script. -/
lemma counted_scriptCrawl (m : Miner) (crawl : Crawl) :
    (m.scriptCrawl crawl).Counted (·.stats.records) := by
  unfold scriptCrawl
  cases crawl.projects with
  | error fault => exact Script.counted_obstructed _ _
  | ok projects => exact m.counted_scriptProjects crawl projects

end Miner

/-! ## Following a script -/

section Follows

variable {σ ω α β : Type} [Sink σ ω] (schedule : Schedule)

/-- Publishing one list after another is publishing both together. -/
lemma perform_publishInTurn_append (first second : List Record) (b : Broadcast σ ω) :
    perform (publishInTurn schedule (first ++ second)) b =
      match perform (publishInTurn schedule first) b with
      | ((tried, some fault), b') => ((tried, some fault), b')
      | ((tried, none), b') =>
        let out := perform (publishInTurn schedule second) b'
        ((tried ++ out.1.1, out.1.2), out.2) := by
  induction first generalizing b with
  | nil => rfl
  | cons r first ih =>
    rw [List.cons_append, perform_publishInTurn_cons, perform_publishInTurn_cons]
    rcases exec (publish schedule r) b with ⟨_ | _, b'⟩
    · rfl
    · simp only [ih]
      rcases perform (publishInTurn schedule first) b' with ⟨⟨tried, _ | fault⟩, b''⟩ <;> rfl

/-- A computation publishes the records of a script in turn, and ends as the script says unless a
worker stops it. -/
def Follows (c : Miner.Mining σ ω α) (p : Script α) : Prop :=
  ∀ b, exec c b =
    let out := perform (publishInTurn schedule p.records) b
    (p.result out.1.2, out.2)

variable {schedule}

/-- Giving a value publishes nothing. -/
lemma follows_pure (a : α) : Follows schedule (pure a : Miner.Mining σ ω α) (.value a) :=
  fun _ => rfl

/-- Meeting an obstacle publishes nothing. -/
lemma follows_throw (obstacle : Obstacle) :
    Follows schedule (throw obstacle.fault : Miner.Mining σ ω α) (.obstructed obstacle) :=
  fun _ => rfl

/-- **Computations in sequence** follow their scripts in sequence.

**Proof sketch.** If the first script ends with an obstacle, the second one is not begun on either
side. If it ends with a value, the records of both are published in turn. A fault while the first
ones are published ends both sides, and without one the second computation follows its script from
the sinks that are left. -/
lemma follows_bind {c : Miner.Mining σ ω α} {p : Script α} (hc : Follows schedule c p)
    {k : α → Miner.Mining σ ω β} {q : α → Script β} (hk : ∀ a, Follows schedule (k a) (q a)) :
    Follows schedule (c >>= k) (p.andThen q) := by
  intro b
  rw [exec_bind, hc b]
  cases hp : p.ending with
  | error obstacle =>
    rw [Script.andThen_of_error hp]
    dsimp only
    rcases perform (publishInTurn schedule p.records) b with ⟨⟨tried, _ | fault⟩, b'⟩
    · simp only [Script.result, hp, Except.mapError]
    · rfl
  | ok a =>
    rw [Script.andThen_of_ok hp]
    dsimp only
    rw [perform_publishInTurn_append]
    rcases perform (publishInTurn schedule p.records) b with ⟨⟨tried, _ | fault⟩, b'⟩
    · simp only [Script.result, hp, Except.mapError]
      exact hk a b'
    · rfl

/-- An action of the producer is one of mining. -/
lemma exec_broadcasting (action : Broadcasting σ ω α) (b : Broadcast σ ω) :
    exec (Miner.broadcasting action) b =
      match exec action b with
      | (.ok a, b') => (.ok a, b')
      | (.error fault, b') => (.error (.broadcast fault), b') := by
  have hlift : exec (liftM (action.run : StateM (Broadcast σ ω) _) :
      Miner.Mining σ ω (Except BroadcastFault α)) b =
        (.ok (exec action b).1, (exec action b).2) := rfl
  unfold Miner.broadcasting
  rw [exec_bind, hlift]
  rcases exec action b with ⟨_ | _, b'⟩ <;> rfl

/-- Publishing a record follows the script of that record. -/
lemma follows_publish (r : Record) :
    Follows schedule (Miner.broadcasting (publish schedule r) : Miner.Mining σ ω Unit)
      (.publish [r]) := by
  intro b
  rw [exec_broadcasting]
  simp only [Script.publish, perform_publishInTurn_cons]
  rcases exec (publish schedule r) b with ⟨_ | _, b'⟩ <;> rfl

/-- Publishing rules follows the script of their records. -/
lemma follows_publishAll (project : String) (rules : List Rule) :
    Follows schedule (Miner.publishAll schedule project rules : Miner.Mining σ ω Unit)
      (.publish (rules.map fun rule => { rule, project })) := by
  induction rules with
  | nil => exact fun _ => rfl
  | cons rule rest ih => exact follows_bind (follows_publish _) fun _ => ih

/-- Mining the edits of a document publishes what their script says. -/
lemma follows_mineEdits (m : Miner) (project : String) (edits : List (Edit Site)) :
    Follows schedule (m.mineEdits schedule project edits : Miner.Mining σ ω Stats)
      (m.scriptEdits project edits) := by
  induction edits with
  | nil => exact follows_pure _
  | cons edit rest ih =>
    unfold Miner.mineEdits Miner.scriptEdits
    cases m.chain.classify edit with
    | error fault => exact follows_throw (.arena fault)
    | ok rule? =>
      exact follows_bind (follows_publishAll project _) fun _ =>
        follows_bind ih fun stats => follows_pure _

/-- Mining the documents of a project publishes what their script says. -/
lemma follows_mineDiffs (m : Miner) (project : String) (diffs : List FileDiff) :
    Follows schedule (m.mineDiffs schedule project diffs : Miner.Mining σ ω Summary)
      (m.scriptDiffs project diffs) := by
  induction diffs with
  | nil => exact follows_pure _
  | cons diff rest ih =>
    exact follows_bind (follows_mineEdits m project diff.edits) fun stats =>
      follows_bind ih fun others => follows_pure _

/-- Mining projects publishes what their script says, project by project. -/
lemma follows_mineProjects (m : Miner) (crawl : Crawl) (projects : List Project) :
    Follows schedule (m.mineProjects schedule crawl projects : Miner.Mining σ ω Summary)
      (m.scriptProjects crawl projects) := by
  induction projects with
  | nil => exact follows_pure _
  | cons project rest ih =>
    unfold Miner.mineProjects Miner.scriptProjects
    cases crawl.diffs project with
    | error fault => exact follows_throw (.dataset fault)
    | ok diffs =>
      exact follows_bind (follows_mineDiffs m project.id diffs) fun here =>
        follows_bind ih fun others => follows_pure _

/-- **Mining follows its script**: what a crawl has to publish is published in turn, until a worker
stops it. -/
lemma follows_mineCrawl (m : Miner) (crawl : Crawl) :
    Follows schedule (m.mineCrawl schedule crawl : Miner.Mining σ ω Summary)
      (m.scriptCrawl crawl) := by
  unfold Miner.mineCrawl Miner.scriptCrawl
  cases crawl.projects with
  | error fault => exact follows_throw (.dataset fault)
  | ok projects => exact follows_mineProjects m crawl projects

end Follows

end EditIdioms
