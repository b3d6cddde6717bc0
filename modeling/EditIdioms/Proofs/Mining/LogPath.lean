import EditIdioms.Proofs.Files.Pieces
import EditIdioms.Run

set_option relaxedAutoImplicit false
set_option autoImplicit false

/-!
# The name of the record log

The name of a compressed log gets the ending for compressed logs unless it has it already. A log
that is not compressed keeps the name that the settings give it, even if that name has the ending,
and no settings are refused for it. So every compressed log is known by its path, but not only
those.

## Main definitions

* `Settings.Misnamed` — the name of the log says that it is compressed, and it is not.

## Main results

* `Settings.suffix_logPath_iff` — which logs have the ending for compressed ones.
-/

namespace EditIdioms

/-- Looking for an ending finds it. -/
lemma endsWith_iff {s ending : String} :
    s.endsWith ending = true ↔ ending.toList <:+ s.toList := by
  rw [String.endsWith_eq_endsWith_toSlice, String.Slice.endsWith_string_iff, String.copy_toSlice]

namespace Settings

/-- The name of the log says that it is compressed, and it is not. -/
def Misnamed (s : Settings) : Prop :=
  s.compression = .plain ∧ compressedEnding.toList <:+ s.recordLog.toList

instance (s : Settings) : Decidable s.Misnamed := inferInstanceAs (Decidable (_ ∧ _))

/-- The file name of a compressed log has the ending for it. -/
lemma suffix_recordLogName (s : Settings) (h : s.compression.isCompressed = true) :
    compressedEnding.toList <:+ s.recordLogName.toList := by
  rw [recordLogName, h, Bool.true_and]
  cases hends : s.recordLog.endsWith compressedEnding with
  | true => exact endsWith_iff.mp hends
  | false =>
    rw [Bool.not_false, if_pos rfl, String.toList_append]
    exact List.suffix_append ..

/-- **The path of a log** has the ending for compressed logs if the log is one, or if it is
misnamed. -/
lemma suffix_logPath_iff (s : Settings) : compressedEnding.toList <:+ s.logPath.toList ↔
    s.compression.isCompressed = true ∨ s.Misnamed := by
  rw [logPath, Path.suffix_join_iff (by decide)]
  cases hcompression : s.compression with
  | plain =>
    rw [recordLogName, Misnamed, hcompression]
    simp [Compression.isCompressed]
  | zstd level =>
    exact iff_of_true (s.suffix_recordLogName (by rw [hcompression]; rfl)) (.inl rfl)

end Settings

end EditIdioms
