import EditIdioms.Command.Basic
import EditIdioms.Proofs.Dataset.Loading
import EditIdioms.Proofs.Document.Settings
import EditIdioms.Proofs.Mining.LogPath

set_option relaxedAutoImplicit false
set_option autoImplicit false

/-!
# Settings in layers

The settings of a run come from three layers: the usual ones, those of a file, and the options of
the command. The three paths and endings are taken from the last layer that has them. Refining can
only be switched off by an option, and compressing only be switched on: a log that the file wants to
be compressed is compressed at the level of the file. The name of a compressed log gets its ending
at most once.

## Main definitions

* `SettingsLayer.InForce` — the layer that the file gives, if one is named.

## Main results

* `MineOptions.settings_of_inForce` — the settings are the three layers.
* `Settings.suffix_twice` — the ending of compressed logs is not put behind itself.
* `settings_are_layered` — the settings of a run, field by field.
-/

namespace EditIdioms

open Json

/-- The layer that the settings file gives, if one is named. -/
inductive SettingsLayer.InForce (files : Files) : Option String → SettingsLayer → Prop
  | noFile : InForce files none {}
  | file {path text : String} {l : SettingsLayer}
    (content : files.content path = .ok (Text.bytes text)) (written : l.WrittenAs text) :
    InForce files (some path) l

/-! ## The layers -/

/-- Loading a settings file gives its layer above the usual settings. -/
lemma Settings.load_of_written {files : Files} {path text : String} {l : SettingsLayer}
    (hcontent : files.content path = .ok (Text.bytes text)) (hwritten : l.WrittenAs text) :
    Settings.load files path = .ok l.settings := by
  rw [load, Files.text_of_content hcontent]
  dsimp only
  rw [Document.decode_readSettings hwritten]

namespace MineOptions

variable {o : MineOptions} {files : Files} {l : SettingsLayer}

/-- **The settings of a run are the three layers.** -/
lemma settings_of_inForce (h : l.InForce files o.settingsFile?) :
    o.settings files = .ok (o.applyTo l.settings) := by
  unfold settings
  cases hfile : o.settingsFile? with
  | none =>
    rw [hfile] at h
    cases h
    rfl
  | some path =>
    rw [hfile] at h
    cases h with
    | file hcontent hwritten =>
      dsimp only
      rw [Settings.load_of_written hcontent hwritten]
      rfl

/-- An option is a layer above the others. -/
lemma getD_getD {α : Type} (option? layer? : Option α) (usual : α) :
    option?.getD (layer?.getD usual) = (option?.or layer?).getD usual := by
  cases option? <;> rfl

/-- The level of the file is kept. -/
lemma compression_of_level {level : Int32} (h : l.compression? = some (.zstd level)) :
    (o.applyTo l.settings).compression = .zstd level := by
  simp [applyTo, SettingsLayer.settings, h, Compression.isCompressed]

/-- Where the file does not compress, the option may. -/
lemma compression_of_plain (h : ∀ level, l.compression? ≠ some (.zstd level)) :
    (o.applyTo l.settings).compression = if o.compress then .zstd 3 else .plain := by
  have hplain : l.settings.compression = .plain := by
    cases hcompression : l.compression? with
    | none => simp [SettingsLayer.settings, hcompression]
    | some c =>
      cases c with
      | plain => simp [SettingsLayer.settings, hcompression]
      | zstd level => exact absurd hcompression (h level)
  rw [applyTo, hplain]
  simp [Compression.isCompressed, Compression.usual]

end MineOptions

/-! ## The name of the log -/

namespace Settings

/-- A compressed log has the name with the ending, and the others have the name as it is. -/
lemma recordLogName_eq (s : Settings) : s.recordLogName =
    if s.compression.isCompressed = true ∧ ¬ compressedEnding.toList <:+ s.recordLog.toList then
      s.recordLog ++ compressedEnding
    else s.recordLog := by
  rw [recordLogName]
  congr 1
  rw [Bool.and_eq_true, Bool.not_eq_true', ← Bool.not_eq_true, endsWith_iff]

/-- **The ending of compressed logs is not put behind itself.** -/
lemma suffix_twice (s : Settings)
    (h : (compressedEnding ++ compressedEnding).toList <:+ s.recordLogName.toList) :
    (compressedEnding ++ compressedEnding).toList <:+ s.recordLog.toList := by
  rw [recordLogName_eq] at h
  split_ifs at h with happend
  · obtain ⟨front, hfront⟩ := h
    rw [String.toList_append, String.toList_append, ← List.append_assoc] at hfront
    exact absurd ⟨front, List.append_cancel_right hfront⟩ happend.2
  · exact h

end Settings

/-- **The settings of a run, field by field.** The layer of the file is empty if no file is named,
and otherwise what the object in the file says, whatever the order of its keys and whatever other
keys it has. Then there are settings for all options. The dataset, the output directory and the
ending of documents are those of the options, or of the file, or the usual ones. The name of the log
is that of the file, or the usual one. Records are refined unless the file or an option says no. A
log that the file wants to be compressed is so at the level of the file, and any other log is
compressed at the usual level if the option says so. The path of a compressed log has the ending
for it, which is put behind its name unless it is there, and so never twice.

**Proof sketch.** The object is read as its layer above the usual settings
(`Document.decode_readSettings`), and the options are applied to them. -/
theorem settings_are_layered {o : MineOptions} {files : Files} {l : SettingsLayer}
    (h : l.InForce files o.settingsFile?) :
    ∃ s, o.settings files = .ok s ∧
      s.datasetRoot = (o.dataset?.or l.datasetRoot?).getD "./dataset" ∧
      s.outputDirectory = (o.output?.or l.outputDirectory?).getD "./fixmine-out" ∧
      s.diffSuffix = (o.suffix?.or l.diffSuffix?).getD ".diff.json" ∧
      s.recordLog = l.recordLog?.getD "records.bin" ∧
      s.specialize = (if o.noSpecialize then false else l.specialize?.getD true) ∧
      (∀ level, l.compression? = some (.zstd level) → s.compression = .zstd level) ∧
      ((∀ level, l.compression? ≠ some (.zstd level)) →
        s.compression = if o.compress then .zstd 3 else .plain) ∧
      s.logPath = Path.join s.outputDirectory
        (if s.compression ≠ .plain ∧ ¬ ".zst".toList <:+ s.recordLog.toList then
          s.recordLog ++ ".zst" else s.recordLog) ∧
      (s.compression ≠ .plain → ".zst".toList <:+ s.logPath.toList) ∧
      (".zst.zst".toList <:+ s.logPath.toList → ".zst.zst".toList <:+ s.recordLog.toList) := by
  have hcompressed (c : Compression) : c.isCompressed = true ↔ c ≠ .plain := by
    cases c <;> simp [Compression.isCompressed]
  refine ⟨o.applyTo l.settings, MineOptions.settings_of_inForce h,
    MineOptions.getD_getD _ _ _, MineOptions.getD_getD _ _ _, MineOptions.getD_getD _ _ _, rfl, ?_,
    fun level hlevel => MineOptions.compression_of_level hlevel,
    fun hplain => MineOptions.compression_of_plain hplain, ?_, fun hne => ?_, fun htwice => ?_⟩
  · rw [MineOptions.applyTo, SettingsLayer.settings]
    cases o.noSpecialize <;> simp
  · simp only [← hcompressed]
    rw [Settings.logPath, Settings.recordLogName_eq]
    rfl
  · exact (Settings.suffix_logPath_iff _).mpr (.inl ((hcompressed _).mpr hne))
  · exact Settings.suffix_twice _ ((Path.suffix_join_iff (by decide) _ _).mp htwice)

/-- The members of a settings file. The first one is no setting. -/
def settingsMembers : List Member := [
  ⟨"x", quoted "x", [['['], "1e999".toList, [']']]⟩,
  ⟨"record_log", quoted "record_log", [quoted "a.zst"]⟩,
  ⟨"compression", quoted "compression", ['\x7b'] :: quoted "Zstd" :: [':'] ::
    (['\x7b'] :: commas [[quoted "level", [':'], "19".toList]] ++ [['\x7d']]) ++ [['\x7d']]⟩,
  ⟨"output_dir", quoted "output_dir", [quoted "out"]⟩]

/-- The members are some settings, in another order, and one that is none.

**Proof sketch.** The three members that belong to the settings are given with their spelling and
with what they say, in the order of the fields, and those that are missing are marked as absent. The
other member has a key that is none of theirs, and its value is an array of one number, spelt with
an exponent. -/
lemma isObject_settingsMembers :
    let l : SettingsLayer := { outputDirectory? := "out", recordLog? := "a.zst"
                               compression? := some (.zstd 19) }
    IsObject l.specs
      (['\x7b'] :: commas (settingsMembers.map Member.tokens) ++ [['\x7d']]) := by
  intro l
  have hlevel : IsObject [("level", some (IsInteger (19 : Int32).toInt))]
      (['\x7b'] :: commas [[quoted "level", [':'], "19".toList]] ++ [['\x7d']]) :=
    ⟨[⟨"level", quoted "level", ["19".toList]⟩], [], _, .present (isSpelled_quoted _ _) rfl .nil,
      List.forall_mem_nil _, .refl _, rfl⟩
  have hcompression := IsCompression.level hlevel (isTagged_quoted "Zstd" _)
  have hnumber : IsJson .value [['['], "1e999".toList, [']']] :=
    .array (.lastItem (.number ⟨[], ['1'], [], "e999".toList, rfl, .inl rfl,
      .inr ⟨⟨by decide, List.all_eq_true.mp rfl⟩, by decide⟩, .inl rfl,
      .inr ⟨'e', [], "999".toList, .inl rfl, .inl rfl,
        ⟨by decide, List.all_eq_true.mp rfl⟩, rfl⟩⟩))
  refine ⟨[⟨"output_dir", quoted "output_dir", [quoted "out"]⟩,
    ⟨"record_log", quoted "record_log", [quoted "a.zst"]⟩,
    ⟨"compression", quoted "compression", _⟩],
    [⟨"x", quoted "x", [['['], "1e999".toList, [']']]⟩], settingsMembers,
    .absent (.present (isSpelled_quoted _ _) (isString_quoted _)
      (.present (isSpelled_quoted _ _) (isString_quoted _)
        (.present (isSpelled_quoted _ _) hcompression (.absent (.absent .nil))))), ?_,
    by decide +kernel, rfl⟩
  exact List.forall_mem_singleton.mpr ⟨isSpelled_quoted _ _, by decide, hnumber⟩

/-- The level and the name of the log stay as they are in the file. -/
theorem settings_are_layered_level :
    let text := "\x7b\"x\":[1e999],\"record_log\":\"a.zst\",\"compression\":" ++
      "\x7b\"Zstd\":\x7b\"level\":19\x7d\x7d,\"output_dir\":\"out\"\x7d\n"
    let files : Files := { root := .directory [("s.json", .file (Text.bytes text))] }
    let l : SettingsLayer := { outputDirectory? := "out", recordLog? := "a.zst"
                               compression? := some (.zstd 19) }
    let o : MineOptions := { dataset? := "data", settingsFile? := "s.json", compress := true
                             noSpecialize := true }
    Command.parse ["mine", "data", "--config", "s.json", "--compress", "--no-specialize"] =
        .ok (.mine o) ∧
      l.InForce files o.settingsFile? ∧
      o.settings files = .ok { datasetRoot := "data", outputDirectory := "out"
                               recordLog := "a.zst", compression := .zstd 19
                               specialize := false } := by
  intro text files l o
  have hwritten : l.WrittenAs text :=
    ⟨_, isObject_settingsMembers, _, ['\n'], laid_flatten _, List.all_eq_true.mp rfl,
      by decide +kernel⟩
  have hforce : l.InForce files o.settingsFile? := .file rfl hwritten
  refine ⟨rfl, hforce, ?_⟩
  obtain ⟨s, hs, hroot, hout, hsuffix, hlog, hspecialize, hlevel, -⟩ := settings_are_layered hforce
  rw [hs]
  cases s
  cases hroot
  cases hout
  cases hsuffix
  cases hlog
  cases hspecialize
  cases hlevel 19 rfl
  rfl

end EditIdioms
