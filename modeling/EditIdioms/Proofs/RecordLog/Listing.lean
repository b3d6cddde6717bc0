import EditIdioms.Packed.Frame
import EditIdioms.Proofs.RecordLog.Records
import EditIdioms.RecordLog.Reader

set_option relaxedAutoImplicit false
set_option autoImplicit false

/-!
# Reading logs of any content

Whatever bytes a log has, taking records from it comes to an end, and the records that were given
are the longest sequence of records whose bytes stand in front. Something is wrong exactly when
there are bytes behind them. So a log that was cut somewhere gives the records that lie wholly
before the cut, and tells whether the cut went through a record.

How a source is read is followed by `Scan`, which has one constructor for each thing that can come
next: the end, something wrong, or a record.

## Main definitions

* `LogReader.Yields` — all that is given until nothing more is.
* `Scan` — how the bytes of a source are read.
* `boundary` — where the records of a log end.

## Main results

* `scan_read`, `Scan.yields` — taking records one by one gives what is read at once.
* `Scan.split`, `Scan.not_prefix` — the records in front, and none behind them.
* `readLog_of_openLog` — reading a log at once.
* `split_unique`, `exists_cut` — bytes split into records in one way, also those of a cut log.
* `openLog_yields` — reading a log that is not compressed.
-/

namespace EditIdioms

open RecordLog RecordLog.Source

/-- Taking records one by one gives `items` and then nothing more. -/
inductive LogReader.Yields : LogReader → List (Except LogFault Record) → Prop
  | done {reader : LogReader} (h : reader.next = (none, reader)) : Yields reader []
  | more {reader later : LogReader} {item : Except LogFault Record}
      {items : List (Except LogFault Record)} (h : reader.next = (some item, later))
      (rest : Yields later items) : Yields reader (item :: items)

/-- Only one sequence can be given.

**Proof sketch.** Induction on the first sequence. Asking the reader for its next item gives one
answer, so both sequences end there, or they have the same item there and go on from the same
reader. -/
lemma LogReader.Yields.unique {reader : LogReader} {items items' : List (Except LogFault Record)}
    (h : reader.Yields items) (h' : reader.Yields items') : items = items' := by
  induction h generalizing items' with
  | done hnext =>
    cases h' with
    | done => rfl
    | more hnext' =>
      rw [hnext] at hnext'
      cases hnext'
  | more hnext _ ih =>
    cases h' with
    | done hnext' =>
      rw [hnext] at hnext'
      cases hnext'
    | more hnext' hrest' =>
      rw [hnext] at hnext'
      cases hnext'
      rw [ih hrest']

/-- What is given for records and perhaps a fault behind them. -/
def listing (records : List Record) (fault? : Option LogFault) : List (Except LogFault Record) :=
  records.map .ok ++ (fault?.map .error).toList

/-! ## Scanning a source -/

namespace RecordLog

/-- How the bytes of a source are read whose end is told by `fault?`: the records, the bytes that
are left, and what is wrong if anything is. -/
inductive Scan (fault? : Option SourceFault) :
    List UInt8 → List Record → List UInt8 → Option LogFault → Prop
  | ended : Scan fault? [] [] [] (fault?.map .source)
  | broken {bytes : List UInt8} {fault : FormatFault} (hne : bytes ≠ [])
      (h : readRecord.run bytes = .error fault) :
      Scan fault? bytes [] bytes (some (recordFault fault? fault))
  | record {bytes middle rest : List UInt8} {r : Record} {records : List Record}
      {ending : Option LogFault} (h : readRecord.run bytes = .ok (r, middle))
      (tail : Scan fault? middle records rest ending) :
      Scan fault? bytes (r :: records) rest ending

variable {fault? : Option SourceFault} {bytes rest : List UInt8} {records : List Record}
  {ending : Option LogFault}

/-- Reading a record takes at least one byte. -/
lemma length_lt_of_run_readRecord {r : Record} (h : readRecord.run bytes = .ok (r, rest)) :
    rest.length < bytes.length := by
  obtain ⟨-, rfl⟩ := run_readRecord_eq_ok h
  have hpos := List.length_pos_of_ne_nil (recordBytes_ne_nil r)
  rw [List.length_append]
  omega

/-- Reading within a bound that is not reached is scanning.

**Proof sketch.** Induction on the bound. At the end of the bytes and at a fault scanning stops. A
record that is read takes at least one byte, so what is left is shorter and the smaller bound is not
reached either. -/
lemma scan_recordsWithin (fault? : Option SourceFault) {bound : ℕ} (h : bytes.length < bound) :
    ∃ rest, Scan fault? bytes (recordsWithin fault? bound bytes).1 rest
      (recordsWithin fault? bound bytes).2 := by
  induction bound generalizing bytes with
  | zero => omega
  | succ bound ih =>
    unfold recordsWithin
    cases bytes with
    | nil => exact ⟨[], .ended⟩
    | cons x b =>
      rw [if_neg (by simp)]
      cases hread : readRecord.run (x :: b) with
      | error fault => exact ⟨x :: b, .broken (List.cons_ne_nil x b) hread⟩
      | ok out =>
        obtain ⟨r, middle⟩ := out
        have hlt := length_lt_of_run_readRecord hread
        have hbound : middle.length < bound := by omega
        obtain ⟨rest, hscan⟩ := ih hbound
        exact ⟨rest, .record hread hscan⟩

/-- **Reading a source is scanning its bytes.** -/
lemma scan_read (s : Source) : ∃ rest, Scan s.fault? s.bytes s.read.1 rest s.read.2 :=
  scan_recordsWithin s.fault? (Nat.lt_succ_self _)

/-- Nothing is given after something was wrong. -/
lemma yields_failed (source : Source) : LogReader.Yields { source, hasFailed := true } [] :=
  .done rfl

/-- What a reader gives whose next bytes are those of a record. -/
lemma next_of_ok {r : Record} (h : readRecord.run bytes = .ok (r, rest)) :
    LogReader.next { source := ⟨bytes, fault?⟩ } =
      (some (.ok r), { source := ⟨rest, fault?⟩ }) := by
  have hne : bytes ≠ [] := by
    rintro rfl
    have := length_lt_of_run_readRecord h
    exact absurd this (Nat.not_lt_zero _)
  unfold LogReader.next
  rw [if_neg (by simp), if_neg (by simpa using hne)]
  simp only [h]

/-- What a reader gives whose next bytes are not those of a record. -/
lemma next_of_error {fault : FormatFault} (hne : bytes ≠ [])
    (h : readRecord.run bytes = .error fault) :
    LogReader.next { source := ⟨bytes, fault?⟩ } =
      (some (.error (recordFault fault? fault)),
        { source := ⟨bytes, fault?⟩, hasFailed := true }) := by
  unfold LogReader.next
  rw [if_neg (by simp), if_neg (by simpa using hne)]
  simp only [h]

/-- **Taking records one by one** gives what scanning gives. -/
lemma Scan.yields (h : Scan fault? bytes records rest ending) :
    LogReader.Yields { source := ⟨bytes, fault?⟩ } (listing records ending) := by
  induction h with
  | ended =>
    cases fault? with
    | none => exact .done rfl
    | some fault => exact .more rfl (yields_failed _)
  | broken hne h => exact .more (next_of_error hne h) (yields_failed _)
  | record h _ ih => exact .more (next_of_ok h) ih

/-- The bytes are those of the records and what is left. -/
lemma Scan.split (h : Scan fault? bytes records rest ending) :
    (∀ r ∈ records, r.Storable) ∧ bytes = records.flatMap recordBytes ++ rest := by
  induction h with
  | ended => exact ⟨by simp, rfl⟩
  | broken => exact ⟨by simp, rfl⟩
  | record h _ ih =>
    obtain ⟨hstorable, rfl⟩ := run_readRecord_eq_ok h
    obtain ⟨hall, hsplit⟩ := ih
    refine ⟨List.forall_mem_cons.mpr ⟨hstorable, hall⟩, ?_⟩
    rw [List.flatMap_cons, List.append_assoc, ← hsplit]

/-- What is left does not start with a record. -/
lemma Scan.not_prefix (h : Scan fault? bytes records rest ending) {r : Record} (hr : r.Storable) :
    ¬ recordBytes r <+: rest := by
  induction h with
  | ended => exact fun hstart => recordBytes_ne_nil r (List.prefix_nil.mp hstart)
  | broken _ h =>
    rintro ⟨tail, rfl⟩
    rw [run_readRecord_append hr] at h
    cases h
  | record _ _ ih => exact ih

/-- When the bytes are all there are, something is wrong exactly when bytes are left. -/
lemma Scan.ending_eq_none_iff (h : Scan none bytes records rest ending) :
    ending = none ↔ rest = [] := by
  induction h with
  | ended => simp
  | broken hne => simp [hne]
  | record _ _ ih => exact ih

/-! ## Splitting bytes into records -/

/-- **Bytes split into records in one way**, when no record stands in front of what is left.

**Proof sketch.** Induction on the first list of records. If one list is at its end and the other is
not, a record stands in front of what the first one leaves, which is excluded. If neither is, the
same bytes are read from both sides, and reading gives one record and one rest
(`run_readRecord_append`), so the first records are equal and what is behind them is the hypothesis
of the induction. -/
lemma split_unique {records records' : List Record} {rest rest' : List UInt8}
    (hrecords : ∀ r ∈ records, r.Storable) (hrecords' : ∀ r ∈ records', r.Storable)
    (hrest : ∀ r : Record, r.Storable → ¬ recordBytes r <+: rest)
    (hrest' : ∀ r : Record, r.Storable → ¬ recordBytes r <+: rest')
    (h : records.flatMap recordBytes ++ rest = records'.flatMap recordBytes ++ rest') :
    records = records' ∧ rest = rest' := by
  induction records generalizing records' with
  | nil =>
    cases records' with
    | nil => exact ⟨rfl, h⟩
    | cons r' records' =>
      refine absurd ?_ (hrest r' (hrecords' r' List.mem_cons_self))
      rw [List.flatMap_cons, List.append_assoc] at h
      exact ⟨_, h.symm⟩
  | cons r records ih =>
    rw [List.flatMap_cons, List.append_assoc] at h
    have hr := hrecords r List.mem_cons_self
    have hread := run_readRecord_append hr (records.flatMap recordBytes ++ rest)
    cases records' with
    | nil =>
      refine absurd ?_ (hrest' r hr)
      exact ⟨_, h⟩
    | cons r' records' =>
      -- both sides are read, and a reader gives one record and leaves one rest
      rw [List.flatMap_cons, List.append_assoc] at h
      rw [h, run_readRecord_append (hrecords' r' List.mem_cons_self)] at hread
      obtain ⟨rfl, htail⟩ := Prod.mk.inj (Except.ok.inj hread)
      obtain ⟨rfl, hrest⟩ := ih (fun r hr => hrecords r (List.mem_cons_of_mem _ hr))
        (fun r hr => hrecords' r (List.mem_cons_of_mem _ hr)) htail.symm
      exact ⟨rfl, hrest⟩

/-- Where the `count`-th record of a log ends that is not compressed. -/
def boundary [Packed.Codec] (records : List Record) (count : ℕ) : ℕ :=
  (logContent .plain (records.take count)).length

/-- Nothing stands before the first record. -/
@[simp] lemma boundary_zero [Packed.Codec] (records : List Record) : boundary records 0 = 0 := rfl

/-- The boundaries behind the first record. -/
@[simp] lemma boundary_cons_succ [Packed.Codec] (r : Record) (records : List Record) (count : ℕ) :
    boundary (r :: records) (count + 1) = (recordBytes r).length + boundary records count := by
  change ((r :: records.take count).flatMap recordBytes).length = _
  rw [List.flatMap_cons, List.length_append]
  rfl

/-- A place before the end of the first record is a boundary only if it is the start. -/
lemma exists_boundary_of_lt [Packed.Codec] {r : Record} {records : List Record} {n : ℕ}
    (hcut : n < (recordBytes r).length) :
    (∃ i ≤ (r :: records).length, boundary (r :: records) i = n) ↔ n = 0 := by
  constructor
  · rintro ⟨i, -, hi⟩
    cases i with
    | zero => exact hi.symm
    | succ i =>
      rw [boundary_cons_succ] at hi
      omega
  · rintro rfl
    exact ⟨0, Nat.zero_le _, rfl⟩

/-- A place behind the first record is a boundary if it is one of the other records. -/
lemma exists_boundary_add [Packed.Codec] {r : Record} {records : List Record} {m : ℕ} :
    (∃ i ≤ (r :: records).length, boundary (r :: records) i = (recordBytes r).length + m) ↔
      ∃ i ≤ records.length, boundary records i = m := by
  constructor
  · rintro ⟨i, hi, h⟩
    cases i with
    | zero =>
      have hpos := List.length_pos_of_ne_nil (recordBytes_ne_nil r)
      rw [boundary_zero] at h
      omega
    | succ i =>
      rw [boundary_cons_succ] at h
      exact ⟨i, Nat.le_of_succ_le_succ hi, by omega⟩
  · rintro ⟨i, hi, h⟩
    exact ⟨i + 1, Nat.succ_le_succ hi, by rw [boundary_cons_succ, h]⟩

/-- No record stands in front of a part of another one. -/
lemma not_start_take {r r' : Record} (hr : r.Storable) (hr' : r'.Storable) {n : ℕ}
    (hn : n < (recordBytes r).length) : ¬ recordBytes r' <+: (recordBytes r).take n := by
  intro hstart
  have hle := hstart.length_le
  rw [eq_of_recordBytes_start hr' hr (hstart.trans (List.take_prefix n _)), List.length_take] at hle
  omega

/-- **A log that was cut** holds the records that end before the cut, and of the next one less than
all its bytes.

**Proof sketch.** Induction on the records. The cut goes through the first record, or it is a cut of
the log of the others. -/
lemma exists_cut [Packed.Codec] {records : List Record} (hrecords : ∀ r ∈ records, r.Storable)
    {n : ℕ} (hn : n ≤ (logContent .plain records).length) :
    ∃ count rest, (logContent .plain records).take n =
        (records.take count).flatMap recordBytes ++ rest ∧
      (∀ r : Record, r.Storable → ¬ recordBytes r <+: rest) ∧
      (∀ i < records.length, i < count ↔ boundary records (i + 1) ≤ n) ∧
      (rest = [] ↔ ∃ i ≤ records.length, boundary records i = n) := by
  change n ≤ (records.flatMap recordBytes).length at hn
  change ∃ count rest, (records.flatMap recordBytes).take n = _ ∧ _
  induction records generalizing n with
  | nil =>
    obtain rfl : n = 0 := Nat.le_zero.mp hn
    refine ⟨0, [], rfl, fun r _ h => recordBytes_ne_nil r (List.prefix_nil.mp h), ?_, ?_⟩
    · exact fun i hi => absurd hi (Nat.not_lt_zero i)
    · exact iff_of_true rfl ⟨0, Nat.le_refl 0, rfl⟩
  | cons r records ih =>
    have hr := hrecords r List.mem_cons_self
    rw [List.flatMap_cons, List.length_append] at hn
    rw [List.flatMap_cons]
    by_cases hcut : n < (recordBytes r).length
    · -- the cut goes through the first record, or is right in front of it
      refine ⟨0, (recordBytes r).take n, ?_, fun r' hr' => not_start_take hr hr' hcut,
        fun i _ => ?_, ?_⟩
      · rw [List.take_append_of_le_length (Nat.le_of_lt hcut)]
        rfl
      · rw [boundary_cons_succ]
        omega
      · rw [exists_boundary_of_lt hcut, List.take_eq_nil_iff, or_iff_left (recordBytes_ne_nil r)]
    · obtain ⟨m, rfl⟩ := Nat.exists_eq_add_of_le (Nat.le_of_not_lt hcut)
      have hm : m ≤ (records.flatMap recordBytes).length := by omega
      obtain ⟨count, rest, hsplit, hrest, hcount, hboundary⟩ :=
        ih (fun r hr => hrecords r (List.mem_cons_of_mem _ hr)) hm
      refine ⟨count + 1, rest, ?_, hrest, fun i hi => ?_,
        hboundary.trans exists_boundary_add.symm⟩
      · rw [List.take_length_add_append, hsplit, List.take_succ_cons, List.flatMap_cons,
          List.append_assoc]
      · cases i with
        | zero =>
          rw [boundary_cons_succ, boundary_zero]
          omega
        | succ i =>
          have := hcount i (Nat.lt_of_succ_lt_succ hi)
          rw [boundary_cons_succ]
          omega

end RecordLog

/-- **Reading a log at once** gives what taking its records one by one gives: all of them, or the
first thing that is wrong. -/
lemma readLog_of_openLog [Packed.Codec] {files : Files} {path : String}
    {compression : Compression} {reader : LogReader}
    (h : files.openLog path compression = .ok reader) :
    ∃ records fault?, reader.Yields (listing records fault?) ∧
      (fault? = none → files.readLog path compression = .ok records) ∧
      ∀ fault, fault? = some fault → files.readLog path compression = .error (.log fault) := by
  unfold Files.openLog at h
  unfold Files.readLog
  cases hsource : files.logSource path compression with
  | error cause =>
    rw [hsource] at h
    cases h
  | ok source =>
    rw [hsource] at h
    cases h
    obtain ⟨rest, hscan⟩ := scan_read source
    refine ⟨_, _, hscan.yields, fun hnone => ?_, fun fault hsome => ?_⟩
    · dsimp only
      rw [show source.read = (source.read.1, none) from Prod.ext rfl hnone]
    · dsimp only
      rw [show source.read = (source.read.1, some fault) from Prod.ext rfl hsome]

/-! ## Logs that are not compressed -/

/-- **Reading any bytes as a log that is not compressed.** Taking records comes to an end. The
records that are given are those in front of the bytes, and something is wrong exactly when bytes
are left, which then do not start with a record. If the bytes are those of a log that was cut, the
records are those that end before the cut, and something is wrong exactly when the cut is not where
a record ends.

**Proof sketch.** Scanning splits the bytes into records and a rest that starts with none. Bytes
split in only one way (`split_unique`), and a cut log splits at the cut (`exists_cut`). -/
theorem openLog_yields [Packed.Codec] {files : Files} {path : String} {bytes : List UInt8}
    (hfile : files.entry path = .ok (.file bytes)) :
    ∃ reader records rest fault?,
      files.openLog path .plain = .ok reader ∧
      reader.Yields (listing records fault?) ∧
      (∀ r ∈ records, r.Storable) ∧
      bytes = records.flatMap recordBytes ++ rest ∧
      (∀ r : Record, r.Storable → ¬ recordBytes r <+: rest) ∧
      (fault? = none ↔ rest = []) ∧
      ∀ (written : List Record) (n : ℕ), (∀ r ∈ written, r.Storable) →
        n ≤ (logContent .plain written).length → bytes = (logContent .plain written).take n →
        (∃ count, records = written.take count ∧
          ∀ i < written.length, i < count ↔ boundary written (i + 1) ≤ n) ∧
        (fault? = none ↔ ∃ i ≤ written.length, boundary written i = n) := by
  have hopen : files.openLog path .plain = .ok { source := .ofContent .plain bytes } := by
    unfold Files.openLog Files.logSource
    rw [hfile]
    rfl
  obtain ⟨rest, hscan⟩ := scan_read (.ofContent .plain bytes)
  change Scan none bytes _ rest _ at hscan
  obtain ⟨hstorable, hsplit⟩ := hscan.split
  refine ⟨_, _, rest, _, hopen, hscan.yields, hstorable, hsplit, fun r hr => hscan.not_prefix hr,
    hscan.ending_eq_none_iff, fun written n hwritten hn hbytes => ?_⟩
  obtain ⟨count, rest', hcut, hrest', hcount, hboundary⟩ := exists_cut hwritten hn
  obtain ⟨hrecords, rfl⟩ := split_unique hstorable
    (fun r hr => hwritten r (List.mem_of_mem_take hr)) (fun r hr => hscan.not_prefix hr) hrest'
    (hsplit.symm.trans (hbytes.trans hcut))
  exact ⟨⟨count, hrecords, hcount⟩, hscan.ending_eq_none_iff.trans hboundary⟩

/-- A log of two records that was cut in the second one gives the first one and tells that something
is wrong. -/
theorem openLog_yields_cut :
    let a : Record := { rule := .conditionalNegated, project := "p" }
    let b : Record := { rule := .nullGuardBeforeFieldRead "x", project := "q" }
    let files : Files := { root := .directory [("l", .file ((logContent .plain [a, b]).take 20))] }
    files.entry "l" = .ok (.file ((logContent .plain [a, b]).take 20)) ∧
      ∃ reader fault, files.openLog "l" .plain = .ok reader ∧
        reader.Yields [.ok a, .error fault] := by
  intro a b files
  have hfile : files.entry "l" = .ok (.file ((logContent .plain [a, b]).take 20)) := by rfl
  obtain ⟨reader, records, rest, fault?, hopen, hyields, -, -, -, -, hcut⟩ := openLog_yields hfile
  obtain ⟨⟨count, rfl, hcount⟩, hfault⟩ := hcut [a, b] 20 (by decide) (by decide) rfl
  obtain rfl : count = 1 := by
    have h₀ : 0 < count := (hcount 0 (by decide)).mpr (by decide)
    have h₁ : ¬ 1 < count := fun h => absurd ((hcount 1 (by decide)).mp h) (by decide)
    omega
  cases fault? with
  | none => exact absurd (hfault.mp rfl) (by decide)
  | some fault => exact ⟨hfile, reader, fault, hopen, hyields⟩

end EditIdioms
