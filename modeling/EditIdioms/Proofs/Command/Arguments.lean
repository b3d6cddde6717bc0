import EditIdioms.Command.Arguments
import EditIdioms.Proofs.Execution
import Mathlib.Tactic.Common

set_option relaxedAutoImplicit false
set_option autoImplicit false

/-!
# Arguments that look like options

An argument with a dash in front and anything behind it is taken for an option, or for several. It
never becomes one of the plain arguments of a command, whatever options the command has. So a path
that looks like an option cannot be given to a command as it is.

## Main definitions

* `LooksLikeOption` — a dash and something behind it.

## Main results

* `plain_takeArgument` — what looks like an option is no plain argument.
* `takeArgument_of_plain` — anything else is one, when no option waits for a value.
* `Command.parse_dump_of_option`, `Command.parse_dump_of_plain` — the paths that can be given to be
  printed.
-/

namespace EditIdioms

/-- The argument has a dash in front and something behind it. -/
def LooksLikeOption (argument : String) : Prop :=
  ∃ c rest, argument.toList = '-' :: c :: rest

/-! ## Plain arguments -/

variable {g g' : Given} {spec : ArgumentSpec} {argument : String}

namespace Given

/-- Setting a flag adds no plain argument. -/
lemma plain_setFlag {name : String} (h : g.setFlag name = .ok g') : g'.plain = g.plain := by
  unfold setFlag at h
  split at h <;> cases h
  rfl

/-- Setting a value adds no plain argument. -/
lemma plain_setValue {name value : String} (h : g.setValue name value = .ok g') :
    g'.plain = g.plain := by
  unfold setValue at h
  split at h <;> cases h
  rfl

/-- Settling an option adds no plain argument. -/
lemma plain_settle (h : g.settle = .ok g') : g'.plain = g.plain := by
  unfold settle at h
  split at h
  · cases h
    rfl
  · cases h
  · rw [plain_setValue h]

end Given

namespace ArgumentSpec

/-- An option adds no plain argument. -/
lemma plain_take {option : OptionSpec} {value? : Option String}
    (h : take g option value? = .ok g') : g'.plain = g.plain := by
  unfold take at h
  split at h
  · obtain ⟨settled, hsettle, hset⟩ := exists_of_bind_eq_ok h
    rw [Given.plain_setValue hset, Given.plain_settle hsettle]
  · obtain ⟨settled, hsettle, hopen⟩ := exists_of_bind_eq_ok h
    cases hopen
    change settled.plain = g.plain
    exact Given.plain_settle hsettle
  · cases h
  · obtain ⟨settled, hsettle, hset⟩ := exists_of_bind_eq_ok h
    rw [Given.plain_setFlag hset, Given.plain_settle hsettle]
  · obtain ⟨settled, -, hask⟩ := exists_of_bind_eq_ok h
    cases hask

/-- Options given by their letters add no plain argument. -/
lemma plain_takeLetters {letters : List Char} (h : spec.takeLetters g letters = .ok g') :
    g'.plain = g.plain := by
  induction letters generalizing g with
  | nil =>
    cases h
    rfl
  | cons letter letters ih =>
    unfold takeLetters at h
    split at h
    · cases h
    · split at h
      · exact plain_take h
      · exact plain_take h
      · exact plain_take h
      · obtain ⟨taken, htake, hrest⟩ := exists_of_bind_eq_ok h
        rw [ih hrest, plain_take htake]

/-- **What looks like an option** is no plain argument. -/
lemma plain_takeArgument (hoption : LooksLikeOption argument)
    (h : spec.takeArgument g argument = .ok g') : g'.plain = g.plain := by
  obtain ⟨c, rest, hargument⟩ := hoption
  unfold takeArgument at h
  rw [hargument] at h
  split at h
  · dsimp only at h
    split at h
    · cases h
    · exact plain_take h
  · exact plain_takeLetters h
  · rename_i hlong hshort
    exact absurd rfl (hshort c rest)

/-- **What does not look like an option** is a plain argument, when no option waits for a value. -/
lemma takeArgument_of_plain (hplain : ¬ LooksLikeOption argument) (hopen : g.open? = none) :
    spec.takeArgument g argument = spec.takePlain g argument := by
  unfold takeArgument
  split
  · rename_i rest hargument
    exact absurd ⟨_, _, hargument⟩ hplain
  · rename_i hargument
    exact absurd ⟨_, _, hargument⟩ hplain
  · rw [hopen]

/-- An only argument that looks like an option leaves no plain argument. -/
lemma plain_takeAll_singleton (hoption : LooksLikeOption argument)
    (h : spec.takeAll {} [argument] = .ok g) : g.plain = [] := by
  unfold takeAll at h
  split at h
  · change ({} : Given).settle = .ok g at h
    rw [Given.plain_settle h]
  · obtain ⟨taken, htake, hsettle⟩ := exists_of_bind_eq_ok h
    rw [takeAll] at hsettle
    rw [Given.plain_settle hsettle, plain_takeArgument hoption htake]

end ArgumentSpec

/-! ## Printing a log -/

namespace Command

/-- A path that looks like an option is missing when it is given to be printed. -/
lemma parse_dump_of_option {path : String} (hoption : LooksLikeOption path) (command : Command) :
    parse ["dump", path] ≠ .ok command := by
  intro h
  change parseDump [path] = .ok command at h
  obtain ⟨g, hparse, -⟩ := exists_of_bind_eq_ok h
  obtain ⟨given, htaken, hneeded⟩ := exists_of_bind_eq_ok hparse
  have hfew : given.plain.length < dumpArguments.needed := by
    rw [ArgumentSpec.plain_takeAll_singleton hoption htaken]
    decide
  rw [if_pos hfew] at hneeded
  cases hneeded

/-- Any other path can be given to be printed. -/
lemma parse_dump_of_plain {path : String} (hplain : ¬ LooksLikeOption path) :
    parse ["dump", path] = .ok (.dump path false) := by
  have hdashes : path ≠ "--" := by
    rintro rfl
    exact hplain ⟨'-', [], rfl⟩
  change parseDump [path] = _
  rw [parseDump, ArgumentSpec.parse, ArgumentSpec.takeAll, if_neg hdashes,
    ArgumentSpec.takeArgument_of_plain hplain rfl]
  rfl

end Command

end EditIdioms
