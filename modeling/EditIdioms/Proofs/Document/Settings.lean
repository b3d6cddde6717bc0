import EditIdioms.Proofs.Document.Restoring

set_option relaxedAutoImplicit false
set_option autoImplicit false

/-!
# Settings in JSON

Settings are written as an object that has any of the six fields, in any order, and members of other
names between them. A string may be spelled in any way, a level in one way only. What the object
says of the fields is a layer of settings, and the settings that are read from it are this layer
above the usual ones.

## Main definitions

* `IsString`, `IsTruth`, `IsCompression` — the tokens of the values.
* `SettingsLayer`, `SettingsLayer.WrittenAs` — some settings, and the texts that say them.

## Main results

* `reads_readCompression` — all ways to write how a log is compressed.
* `decode_readSettings` — the settings that are read from a text.
-/

namespace EditIdioms

open Json

/-! ## Values -/

/-- The tokens are a string, however its characters are spelled. -/
def IsString (s : String) (ts : List Token) : Prop :=
  ∃ text, Spells text s.toList ∧ ts = [inQuotes text]

/-- The tokens are a truth value. -/
def IsTruth (b : Bool) (ts : List Token) : Prop := ts = [(Value.boolean b).chars]

/-- The tokens are an integer. -/
def IsInteger (n : ℤ) (ts : List Token) : Prop := ts = [integerDigits n]

/-- The tokens are an object around a value, whose only key is a name. -/
def IsTagged (name : String) (value : List Token) (ts : List Token) : Prop :=
  ∃ text, Spells text name.toList ∧
    ts = ['\x7b'] :: inQuotes text :: [':'] :: value ++ [['\x7d']]

/-- The tokens say how a log is compressed. A log that is not compressed may have `null` behind its
name, and the level is a field, or stands in an array. -/
inductive IsCompression : Compression → List Token → Prop
  | plain {ts : List Token} (h : IsString "None" ts) : IsCompression .plain ts
  | plainNull {ts : List Token} (h : IsTagged "None" [Value.null.chars] ts) :
    IsCompression .plain ts
  | level {level : Int32} {value ts : List Token}
    (hvalue : IsObject [("level", some (IsInteger level.toInt))] value)
    (h : IsTagged "Zstd" value ts) : IsCompression (.zstd level) ts
  | levelAlone {level : Int32} {value ts : List Token} (hvalue : IsInteger level.toInt value)
    (h : IsTagged "Zstd" (['['] :: value ++ [[']']]) ts) : IsCompression (.zstd level) ts

/-- A string as it is written is spelled. -/
lemma isString_quoted (s : String) : IsString s [quoted s] := by
  obtain ⟨text, hquoted, hspells⟩ := spells_quoted s
  exact ⟨text, hspells, by rw [hquoted]⟩

/-- So is a name in front of a value. -/
lemma isTagged_quoted (name : String) (value : List Token) :
    IsTagged name value (['\x7b'] :: quoted name :: [':'] :: value ++ [['\x7d']]) := by
  obtain ⟨text, hquoted, hspells⟩ := spells_quoted name
  exact ⟨text, hspells, by rw [hquoted]⟩

namespace Document

/-- A string is read from every token that spells it. -/
lemma reads_string {s : String} {ts : List Token} (h : IsString s ts) : Reads string ts s := by
  obtain ⟨text, hspells, rfl⟩ := h
  exact (takes_string hspells).reads

/-- A truth value is read from the word for it. -/
lemma reads_boolean {b : Bool} {ts : List Token} (h : IsTruth b ts) : Reads boolean ts b := by
  rw [h]
  exact (takes_boolean b).reads

/-- The level of a compression is read. -/
lemma reads_level (level : Int32) {ts : List Token} (h : IsInteger level.toInt ts) :
    Opening ts ∧ Reads (signedInteger 32) ts level.toInt := by
  have hdigits : ts = [(integerText level.toInt).toList] := by
    rw [h, integerText, String.toList_ofList]
  rw [hdigits]
  exact restores_signedInteger (by decide) level.le_toInt level.toInt_lt _ (.number _)

/-- A record of one field is read from an array, whatever comes behind it. -/
lemma takes_record_alone {α : Type} (name : String) {read : Reader α} {a : α} {ts : List Token}
    (hopening : Opening ts) (hreads : Reads read ts a) :
    Takes (record (.required name read .done)) (['['] :: ts ++ [[']']]) (a, ()) := by
  have hclosing : Closing [[']']] := ⟨']', [], [], rfl, rfl⟩
  refine takes_of_first rfl fun inside rest hinside => ?_
  obtain ⟨item, bracket, hitem, hbracket, rfl⟩ := laid_append.mp hinside
  obtain ⟨behind, hbehind, hmore⟩ := run_moreItems true hopening hitem
  have hvalue := hreads behind (bracket ++ rest) hbehind (hclosing.closed hbracket rest)
  have hpositions : ((Fields.required name read .done).positions true).run
      (item ++ (bracket ++ rest)) = .ok ((a, ()), bracket ++ rest) := by
    change (moreItems true >>= fun more => _).run _ = _
    rw [run_bind_of_ok (hmore _), if_pos rfl, run_bind_of_ok hvalue]
    rfl
  rw [if_neg (by decide), if_pos rfl, run_advance_bind, List.nil_append, List.append_assoc,
    run_bind_of_ok hpositions, run_bind_of_ok (takes_expect rfl bracket rest hbracket)]
  rfl

/-- **How a log is compressed** is read.

**Proof sketch.** By the way in which it is written. Without compression it is a name alone, or a
name with `null`. A level is a record of one field, as an object with unknown members or as a list
of one item, and stands in an object under the name of the alternative. The level is read as a whole
number of 32 bits, from which it comes back. -/
lemma reads_readCompression {c : Compression} {ts : List Token} (h : IsCompression c ts) :
    Reads readCompression ts c := by
  have hlevel (level : Int32) :
      (pure (.zstd (.ofInt level.toInt)) : Reader Compression) = pure (.zstd level) := by
    rw [Int32.ofInt_toInt]
  cases h with
  | plain h =>
    obtain ⟨text, hspells, rfl⟩ := h
    exact (takes_oneOf_alone hspells rfl).reads
  | plainNull h =>
    obtain ⟨text, hspells, rfl⟩ := h
    exact (takes_oneOf_null hspells rfl).reads
  | @level level value _ hvalue h =>
    obtain ⟨text, hspells, rfl⟩ := h
    have hadmits : (Fields.required "level" (signedInteger 32) .done).Admits
        [("level", some (IsInteger level.toInt))] (level.toInt, ()) := by
      refine ⟨rfl, fun ok hok ts hts => ?_, nofun, rfl⟩
      cases hok
      exact (reads_level level hts).2
    have hnodup : ["level"].Nodup := by decide
    have hrecord := takes_record_of_isObject hadmits hnodup hvalue
    exact (takes_oneOf_containing hspells rfl (hrecord.map (hlevel level)).reads).reads
  | @levelAlone level value _ hvalue h =>
    obtain ⟨text, hspells, rfl⟩ := h
    obtain ⟨hopening, hreads⟩ := reads_level level hvalue
    have hrecord := takes_record_alone "level" hopening hreads
    exact (takes_oneOf_containing hspells rfl (hrecord.map (hlevel level)).reads).reads

end Document

/-! ## Settings -/

/-- Some settings, and nothing about the others. -/
structure SettingsLayer where
  datasetRoot? : Option String := none
  outputDirectory? : Option String := none
  recordLog? : Option String := none
  compression? : Option Compression := none
  specialize? : Option Bool := none
  diffSuffix? : Option String := none
deriving DecidableEq

namespace SettingsLayer

/-- The fields that the layer has. -/
def specs (l : SettingsLayer) : List FieldSpec := [
  ("dataset_root", l.datasetRoot?.map IsString),
  ("output_dir", l.outputDirectory?.map IsString),
  ("record_log", l.recordLog?.map IsString),
  ("compression", l.compression?.map IsCompression),
  ("specialize", l.specialize?.map IsTruth),
  ("diff_suffix", l.diffSuffix?.map IsString)]

/-- The text is an object that says what is in the layer. -/
def WrittenAs (l : SettingsLayer) (text : String) : Prop :=
  ∃ ts, IsObject l.specs ts ∧ SpacedOut ts text.toList

/-- The layer above the usual settings. -/
def settings (l : SettingsLayer) : Settings :=
  let usual : Settings := {}
  { datasetRoot := l.datasetRoot?.getD usual.datasetRoot
    outputDirectory := l.outputDirectory?.getD usual.outputDirectory
    recordLog := l.recordLog?.getD usual.recordLog
    compression := l.compression?.getD usual.compression
    specialize := l.specialize?.getD usual.specialize
    diffSuffix := l.diffSuffix?.getD usual.diffSuffix }

end SettingsLayer

namespace Document

/-- A field that has its usual value if it is not there. -/
lemma admits_withDefault {α δ τ : Type} {name : String} {read : Reader α} {usual : α}
    {a? : Option α} {IsValue : α → List Token → Prop} {rest : Fields δ τ} {specs : List FieldSpec}
    {value : τ} (hreads : ∀ {a ts}, IsValue a ts → Reads read ts a)
    (hrest : rest.Admits specs value) :
    (Fields.withDefault name read usual rest).Admits ((name, a?.map IsValue) :: specs)
      (a?.getD usual, value) := by
  refine ⟨rfl, fun ok hok ts hts => ?_, fun hnone => ?_, hrest⟩
  · obtain ⟨a, rfl, rfl⟩ := Option.map_eq_some_iff.mp hok
    exact hreads hts
  · rw [Option.map_eq_none_iff.mp hnone]
    rfl

/-- **Settings are read** from every object that says some of them, whatever comes behind it. -/
lemma takes_readSettings {l : SettingsLayer} {ts : List Token} (h : IsObject l.specs ts) :
    Takes readSettings ts l.settings := by
  have hnone : Fields.done.Admits [] () := rfl
  refine (takes_record_of_isObject (admits_withDefault reads_string
    (admits_withDefault reads_string (admits_withDefault reads_string
      (admits_withDefault reads_readCompression (admits_withDefault reads_boolean
        (admits_withDefault reads_string hnone)))))) ?_ h).map rfl
  show ["dataset_root", "output_dir", "record_log", "compression", "specialize",
    "diff_suffix"].Nodup
  decide

/-- **The settings that are read from a text.** -/
lemma decode_readSettings {l : SettingsLayer} {text : String} (h : l.WrittenAs text) :
    decode readSettings text = .ok l.settings := by
  obtain ⟨ts, hts, front, blanks, hfront, hblank, htext⟩ := h
  have hrun := takes_readSettings hts front blanks hfront
  unfold decode readWhole
  rw [htext, hrun]
  change (if blanks.all isBlank then pure l.settings else throw Fault.malformed) = _
  rw [if_pos (List.all_eq_true.mpr hblank)]
  rfl

end Document

end EditIdioms
