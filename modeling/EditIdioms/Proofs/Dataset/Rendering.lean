import EditIdioms.Proofs.Dataset.Loading
import EditIdioms.Proofs.Document.Restoring

set_option relaxedAutoImplicit false
set_option autoImplicit false

/-!
# Loading any rendering of a compared file

Programs that compare files write their documents in their own way. Whatever of the renderings of a
compared file they choose, it is loaded as the same compared file.

## Main results

* `loadDiff_of_isRendering` — a file that renders a compared file is loaded as this one.
-/

namespace EditIdioms

open Document Json

/-- **Any rendering of a compared file is loaded as the compared file.** It must have no defect and
no floating-point numbers. Its members may come in any order, with others between them and blanks
anywhere, and a parent, children or a path that say nothing may be left out. A compared file without
a path goes by that of the file.

**Proof sketch.** Each reader gives a value back from whatever renders it
(`takes_readFileDiff`); the members of a record by induction on those that are written
(`run_membersWithin`), and what is passed over by induction on its grammar (`reads_skip`). -/
theorem loadDiff_of_isRendering {files : Files} {path text : String} {d : FileDiff}
    (hbefore : d.before.Exact) (hafter : d.after.Exact) (hdefect : d.defect? = none)
    (hrendering : IsRendering d text) (hcontent : files.content path = .ok (Text.bytes text)) :
    loadDiff files path = .ok { d with path := if d.path = "" then path else d.path } := by
  have hdecodes : DecodesTo (Text.bytes text) d :=
    ⟨text, rfl, decode_of_isRendering hbefore hafter hrendering⟩
  rw [loadDiff_of_decodes hcontent hdecodes, hdefect]
  dsimp only [FileDiff.named]
  by_cases hpath : d.path = ""
  · rw [if_pos hpath, if_pos (String.isEmpty_iff.mpr hpath)]
  · rw [if_neg hpath, if_neg (mt String.isEmpty_iff.mp hpath)]

/-- A document of which the members come from last to first, with another one before them, and of
which the path, a parent and children are left out. -/
def scrambled : String :=
  "\x7b \"later\":[1e400,\"\\ud800\"],\"operations\":[\x7b\"Insert\":\x7b\"node\":0\x7d\x7d]," ++
    "\"after\":\x7b\"nodes\":[\x7b\"kind\":\"Block\"\x7d]\x7d,\"before\":\x7b\"nodes\":[]\x7d\x7d\n"

/-- It renders the insertion of one node.

**Proof sketch.** The members of the record are given one after the other in the order in which they
are defined, with the omitted ones and one that is unknown, whose value has to be shown to be JSON:
an array of a number and of a string with a lone half of a pair. The members are written in reverse,
and blanks are laid between the tokens. -/
lemma isRendering_scrambled :
    IsRendering { before := {}, after := ⟨#[{ kind := .block }]⟩, operations := [.insert ⟨0⟩] }
      scrambled := by
  have hbefore : RendersMembers [("nodes", .array [])] [_] := .written (.array .nil) .nil
  have hnode : RendersMembers
      [("kind", .string "Block"), ("parent", .null), ("children", .array [])] [_] :=
    .written (.string "Block")
      (.omitted (by simp [omittable]) (.omitted (by simp [omittable]) .nil))
  have hafter : RendersMembers [("nodes", .array [writeNode { kind := .block }])] [_] :=
    .written (.array (.cons (renders_record rfl hnode) .nil)) .nil
  have hinsert : RendersMembers [("node", writeInteger 0)] [_] := .written (.number _) .nil
  have hoperation : Renders (writeEdit (.insert ⟨0⟩)) _ :=
    .alternative rfl (renders_record rfl hinsert)
  let later : Member := ⟨"later", quoted "later", ['['] :: ([['1', 'e', '4', '0', '0']] ++
    [','] :: [inQuotes ['\\', 'u', 'd', '8', '0', '0']]) ++ [[']']]⟩
  have hlater : IsJson .value later.value := by
    refine .array (.item (.number ?_) (.lastItem (.string ⟨_, .unit rfl .nil, rfl⟩)))
    refine ⟨[], ['1'], [], ['e', '4', '0', '0'], rfl, .inl rfl, .inr ?_, .inl rfl, .inr ?_⟩
    · exact ⟨⟨by decide, List.all_eq_true.mp rfl⟩, by decide⟩
    · exact ⟨'e', [], ['4', '0', '0'], .inl rfl, .inl rfl,
        ⟨by decide, List.all_eq_true.mp rfl⟩, rfl⟩
  obtain ⟨key, hquoted, hkey⟩ := spells_quoted "later"
  have hother : ∀ m ∈ [later], m.IsSpelled ∧ m.key ∉ ["path", "before", "after", "operations"] ∧
      IsJson .value m.value :=
    List.forall_mem_singleton.mpr ⟨⟨key, hkey, hquoted⟩, by decide, hlater⟩
  have hblank : ∀ c ∈ [' '], isBlank c = true := List.all_eq_true.mp rfl
  have hend : ∀ c ∈ ['\n'], isBlank c = true := List.all_eq_true.mp rfl
  refine ⟨_, .record rfl (.omitted (by simp [omittable]) (.written (renders_record rfl hbefore)
    (.written (renders_record rfl hafter) (.written (.array (.cons hoperation .nil)) .nil))))
    hother (List.reverse_perm _), _, ['\n'],
    .cons (List.forall_mem_nil _) (.cons hblank (laid_flatten _)), hend, ?_⟩
  decide +kernel

/-- It is loaded under the path of its file. -/
theorem loadDiff_of_isRendering_scrambled :
    let files : Files := { root := .directory [("a.json", .file (Text.bytes scrambled))] }
    let d : FileDiff :=
      { before := {}, after := ⟨#[{ kind := .block }]⟩, operations := [.insert ⟨0⟩] }
    (d.before.Exact ∧ d.after.Exact ∧ d.defect? = none ∧ IsRendering d scrambled ∧
      files.content "a.json" = .ok (Text.bytes scrambled)) ∧
    loadDiff files "a.json" = .ok { d with path := "a.json" } := by
  intro files d
  have hbefore : d.before.Exact := fun n hn => nomatch hn
  have hafter : d.after.Exact := List.forall_mem_singleton.mpr rfl
  have hdefect : d.defect? = none := by decide +kernel
  have hcontent : files.content "a.json" = .ok (Text.bytes scrambled) := rfl
  exact ⟨⟨hbefore, hafter, hdefect, isRendering_scrambled, hcontent⟩,
    loadDiff_of_isRendering hbefore hafter hdefect isRendering_scrambled hcontent⟩

end EditIdioms
