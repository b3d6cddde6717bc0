import EditIdioms.Proofs.Dataset.Loading
import EditIdioms.Proofs.Document.Cutting

set_option relaxedAutoImplicit false
set_option autoImplicit false

/-!
# Loading what was cut off

A program that compares files may be stopped while it writes, or write over a longer document. What
is left then is never loaded as another compared file: a document that was cut off is told to be
truncated, and one with more behind it to be malformed.

## Main results

* `loadDiff_of_decode_error` — a text that does not decode is refused for the reason it does not.
* `loadDiff_refuses_damaged` — a document that was cut off, or goes on, is refused.
-/

namespace EditIdioms

open Document Json

/-- A text that does not decode is refused for this reason, before it is checked. -/
lemma loadDiff_of_decode_error {files : Files} {path text : String} {fault : Fault}
    (hcontent : files.content path = .ok (Text.bytes text))
    (hdecode : decode readFileDiff text = .error fault) :
    loadDiff files path = .error (.undecodable path fault) := by
  have htext := Files.text_of_content hcontent
  unfold loadDiff
  simp only [htext, hdecode, pure_bind]
  rfl

/-- **A document that was cut off is never loaded, nor is one that goes on.** Wherever the text of a
compared file without floating-point numbers was cut, even before its first character, it is refused
as truncated. If anything but blanks was put behind the text, it is refused as malformed. Blanks
behind the text do no harm.

**Proof sketch.** A reader uses all of what is left of a text that was cut (`UsesAll`): it finds
that it is truncated, or it takes a number that lost its last digits and is at its end. What has to
come behind a number is missed there, and a compared file ends with a bracket, so it is needed whole
(`needsAll_readFileDiff`). The items and members are taken one by one, by induction on what is
written (`needsAll_itemsWithin`, `needsAll_membersWithin`). -/
theorem loadDiff_refuses_damaged {files : Files} {path text : String} {d : FileDiff}
    (hbefore : d.before.Exact) (hafter : d.after.Exact)
    (hcontent : files.content path = .ok (Text.bytes text)) :
    (∀ back : String, (writeFileDiff d).render = text ++ back → back ≠ "" →
      loadDiff files path = .error (.undecodable path .truncated)) ∧
    (∀ behind : String, text = (writeFileDiff d).render ++ behind →
      (∃ c ∈ behind.toList, isBlank c = false) →
        loadDiff files path = .error (.undecodable path .malformed)) ∧
    ∀ behind : String, text = (writeFileDiff d).render ++ behind →
      (∀ c ∈ behind.toList, isBlank c = true) → DecodesTo (Text.bytes text) d := by
  refine ⟨fun back htext hback => ?_, fun behind htext hother => ?_, fun behind htext hblank => ?_⟩
  · exact loadDiff_of_decode_error hcontent (decode_of_cut hbefore hafter htext hback)
  · refine loadDiff_of_decode_error hcontent ?_
    obtain ⟨c, hc, hcblank⟩ := hother
    rw [htext, decode_of_append hbefore hafter, if_neg]
    intro hall
    rw [List.all_eq_true.mp hall c hc] at hcblank
    cases hcblank
  · refine ⟨text, rfl, ?_⟩
    rw [htext, decode_of_append hbefore hafter, if_pos (List.all_eq_true.mpr hblank)]

/-- The insertion of the constant 42: its document loses all behind the first digit, or another one
comes behind it. -/
theorem loadDiff_refuses_damaged_constant :
    let d : FileDiff :=
      { before := {}, after := ⟨#[{ kind := .literal (.int 42) }]⟩, operations := [.insert ⟨0⟩] }
    let front := "\x7b\"path\":\"\",\"before\":\x7b\"nodes\":[]\x7d,\"after\":\x7b\"nodes\":[\x7b" ++
      "\"kind\":\x7b\"Literal\":\x7b\"value\":\x7b\"Int\":4"
    let back := "2\x7d\x7d\x7d,\"parent\":null,\"children\":[]\x7d]\x7d," ++
      "\"operations\":[\x7b\"Insert\":\x7b\"node\":0\x7d\x7d]\x7d"
    let files : Files := { root := .directory [("cut.json", .file (Text.bytes front)),
      ("twice.json", .file (Text.bytes (front ++ back ++ "\n2")))] }
    (d.before.Exact ∧ d.after.Exact ∧ (writeFileDiff d).render = front ++ back) ∧
      loadDiff files "cut.json" = .error (.undecodable "cut.json" .truncated) ∧
      loadDiff files "twice.json" = .error (.undecodable "twice.json" .malformed) := by
  intro d front back files
  have hbefore : d.before.Exact := fun n hn => nomatch hn
  have hafter : d.after.Exact := List.forall_mem_singleton.mpr rfl
  have hrender : (writeFileDiff d).render = front ++ back := by decide +kernel
  have hcut : files.content "cut.json" = .ok (Text.bytes front) := rfl
  have htwice : files.content "twice.json" = .ok (Text.bytes (front ++ back ++ "\n2")) := rfl
  refine ⟨⟨hbefore, hafter, hrender⟩, ?_, ?_⟩
  · exact (loadDiff_refuses_damaged hbefore hafter hcut).1 back hrender (by decide)
  · refine (loadDiff_refuses_damaged hbefore hafter htwice).2.1 "\n2" (by rw [hrender]) ?_
    exact ⟨'2', by decide, rfl⟩

end EditIdioms
