import EditIdioms.Proofs.RecordLog.Reads
import EditIdioms.RecordLog.Format

set_option relaxedAutoImplicit false
set_option autoImplicit false

/-!
# Records and their bytes

Reading a record accepts exactly the bytes that writing a record produces. So no two records have
the same bytes, the bytes of one are never the start of those of another, and whatever bytes come
after a record, reading stops right before them.

A text is stored with its number of bytes as a word of eight bytes. All texts that fit into a
memory have that few bytes; records with such texts are called storable.

## Main definitions

* `Literal.Storable`, `Rule.Storable`, `Record.Storable` — all texts fit.

## Main results

* `reads_literal`, `reads_rule`, `reads_record` — what is accepted as a literal, rule and record.
* `eq_of_recordBytes_start` — no record's bytes are the start of another record's bytes.
-/

namespace EditIdioms

/-- The texts of the literal fit into a log. -/
def Literal.Storable : Literal → Prop
  | .string s => Text.Fits s
  | _ => True

/-- The texts of the rule fit into a log. -/
def Rule.Storable : Rule → Prop
  | .preconditionGuardInserted s | .nullGuardBeforeFieldRead s | .nullGuardBeforeInvocation s =>
    Text.Fits s
  | .literalReplaced src dst => src.Storable ∧ ∀ l ∈ dst, l.Storable
  | _ => True

/-- The texts of the record fit into a log. -/
def Record.Storable (r : Record) : Prop := r.rule.Storable ∧ Text.Fits r.project

instance : (l : Literal) → Decidable l.Storable
  | .string s => inferInstanceAs (Decidable (Text.Fits s))
  | .byte _ | .short _ | .int _ | .long _ | .float _ | .double _ | .char _ | .boolean _ | .null =>
    .isTrue trivial

instance : (r : Rule) → Decidable r.Storable
  | .preconditionGuardInserted s | .nullGuardBeforeFieldRead s | .nullGuardBeforeInvocation s =>
    inferInstanceAs (Decidable (Text.Fits s))
  | .literalReplaced src dst =>
    inferInstanceAs (Decidable (src.Storable ∧ ∀ l ∈ dst, l.Storable))
  | .missingBreakInCase | .missingReturnInCase | .conditionalNegated
  | .binaryOperatorReplaced _ _ | .binaryOperatorDeleted _ | .argumentPropagated _
  | .arithmeticOperatorDeleted | .arithmeticOperatorReplaced | .conditionalBoundary
  | .relationalOperatorReplaced | .negatedConditional | .inlineConstant | .invertNegatives
  | .nakedReceiver => .isTrue trivial

instance (r : Record) : Decidable r.Storable :=
  inferInstanceAs (Decidable (r.rule.Storable ∧ Text.Fits r.project))

namespace RecordLog

/-! ## Literals -/

/-- Every type of literal is in the list that numbers them. -/
lemma mem_literalTypes (t : LiteralType) : t ∈ LiteralType.all := by
  cases t <;> decide

/-- **The value of a literal** of known type is read from the bytes that are written for it: a
number from as many bytes as its type has, a character and a text from their encoding, a flag from
one byte, and `null` from nothing.

**Proof sketch.** By the type. Each is read by the reader of one kind of data, and the literal is
made from what it gives. A literal has the type exactly if it is made in this way, and of the
conditions on what can be stored only the length of a text is not met by every value. -/
lemma reads_literalValue (t : LiteralType) :
    Reads (readLiteralValue t) fun l front =>
      literalType l = t ∧ l.Storable ∧ front = literalValueBytes l := by
  cases t with
  | byte =>
    refine (reads_bits rfl (fun _ => rfl) (fun _ => rfl) Literal.byte
      (f := Int8.ofBitVec) (g := Int8.toBitVec)).congr fun l front => ?_
    cases l <;> simp [literalType, Literal.Storable, literalValueBytes]
  | short =>
    refine (reads_bits rfl (fun _ => rfl) (fun _ => rfl) Literal.short
      (f := Int16.ofBitVec) (g := Int16.toBitVec)).congr fun l front => ?_
    cases l <;> simp [literalType, Literal.Storable, literalValueBytes]
  | int =>
    refine (reads_bits rfl (fun _ => rfl) (fun _ => rfl) Literal.int
      (f := Int32.ofBitVec) (g := Int32.toBitVec)).congr fun l front => ?_
    cases l <;> simp [literalType, Literal.Storable, literalValueBytes]
  | long =>
    refine (reads_bits rfl (fun _ => rfl) (fun _ => rfl) Literal.long
      (f := Int64.ofBitVec) (g := Int64.toBitVec)).congr fun l front => ?_
    cases l <;> simp [literalType, Literal.Storable, literalValueBytes]
  | float =>
    refine (reads_bits rfl (fun _ => rfl) (fun _ => rfl) Literal.float
      (f := Floating.mk) (g := Floating.bits)).congr fun l front => ?_
    cases l <;> simp [literalType, Literal.Storable, literalValueBytes]
  | double =>
    refine (reads_bits rfl (fun _ => rfl) (fun _ => rfl) Literal.double
      (f := Floating.mk) (g := Floating.bits)).congr fun l front => ?_
    cases l <;> simp [literalType, Literal.Storable, literalValueBytes]
  | char =>
    refine (reads_char.map Literal.char).congr fun l front => ?_
    cases l <;> simp [literalType, Literal.Storable, literalValueBytes]
  | boolean =>
    refine (reads_flag.map Literal.boolean).congr fun l front => ?_
    cases l <;> simp [literalType, Literal.Storable, literalValueBytes]
  | string =>
    refine (reads_text.map Literal.string).congr fun l front => ?_
    cases l <;> simp [literalType, Literal.Storable, literalValueBytes]
  | null =>
    refine (reads_pure Literal.null).congr fun l front => ?_
    cases l <;> simp [literalType, Literal.Storable, literalValueBytes]

/-- **A literal** is read from its type and its value, if its text fits. -/
lemma reads_literal :
    Reads readLiteral fun l front => l.Storable ∧ front = literalBytes l := by
  refine (reads_bind (reads_alternative (l := LiteralType.all) (by decide) (by decide))
    reads_literalValue).congr fun l front => ?_
  constructor
  · rintro ⟨t, first, second, rfl, ⟨-, rfl⟩, rfl, hstorable, rfl⟩
    exact ⟨hstorable, rfl⟩
  · rintro ⟨hstorable, rfl⟩
    exact ⟨_, _, _, rfl, ⟨mem_literalTypes _, rfl⟩, rfl, hstorable, rfl⟩

/-! ## Rules -/

/-- Every operator is in the list that numbers them. -/
lemma mem_operators (op : BinaryOperator) : op ∈ BinaryOperator.all := by
  cases op <;> decide

/-- A binary operator is read from its number among all operators. -/
lemma reads_operator : Reads readOperator fun op front => front = operatorBytes op := by
  refine (reads_alternative (l := BinaryOperator.all) (by decide) (by decide)).congr
    fun op front => ?_
  simp only [mem_operators, true_and]
  rfl

/-- **The payload of a rule** of known tag is read from the bytes that are written for it, and only
from these. A rule can be stored if the lengths of its texts fit eight bytes.

**Proof sketch.** By the tag. Rules without a payload are read from nothing. A rule with one text,
one operator, two operators or a position is made from what the reader of that kind of data gives,
and no other rule has the tag. A replaced literal is read with the literal that takes its place, if
there is one; both directions go through that choice, as the conditions on what can be stored depend
on it. -/
lemma reads_payload (tag : RuleTag) :
    Reads (readPayload tag) fun r front =>
      r.tag = tag ∧ r.Storable ∧ front = payloadBytes r := by
  cases tag with
  | missingBreakInCase | missingReturnInCase | conditionalNegated | arithmeticOperatorDeleted
  | arithmeticOperatorReplaced | conditionalBoundary | relationalOperatorReplaced
  | negatedConditional | inlineConstant | invertNegatives | nakedReceiver =>
    refine (reads_pure _).congr fun r front => ?_
    cases r <;> simp [Rule.tag, Rule.Storable, payloadBytes]
  | preconditionGuardInserted =>
    refine (reads_text.map Rule.preconditionGuardInserted).congr fun r front => ?_
    cases r <;> simp [Rule.tag, Rule.Storable, payloadBytes]
  | nullGuardBeforeFieldRead =>
    refine (reads_text.map Rule.nullGuardBeforeFieldRead).congr fun r front => ?_
    cases r <;> simp [Rule.tag, Rule.Storable, payloadBytes]
  | nullGuardBeforeInvocation =>
    refine (reads_text.map Rule.nullGuardBeforeInvocation).congr fun r front => ?_
    cases r <;> simp [Rule.tag, Rule.Storable, payloadBytes]
  | binaryOperatorReplaced =>
    refine (reads_bind reads_operator fun src =>
      reads_operator.map (Rule.binaryOperatorReplaced src)).congr fun r front => ?_
    cases r <;> simp [Rule.tag, Rule.Storable, payloadBytes]
  | binaryOperatorDeleted =>
    refine (reads_operator.map Rule.binaryOperatorDeleted).congr fun r front => ?_
    cases r <;> simp [Rule.tag, Rule.Storable, payloadBytes]
  | literalReplaced =>
    refine (reads_bind reads_literal fun src =>
      (reads_option reads_literal).map (Rule.literalReplaced src)).congr fun r front => ?_
    constructor
    · rintro ⟨src, first, second, rfl, ⟨hsrc, rfl⟩, dst, rfl, hdst⟩
      obtain ⟨rfl, rfl⟩ | ⟨l, tail, rfl, rfl, hl, rfl⟩ := hdst
      · exact ⟨rfl, ⟨hsrc, by simp⟩, rfl⟩
      · exact ⟨rfl, ⟨hsrc, by simpa using hl⟩, rfl⟩
    · rintro ⟨htag, hstorable, rfl⟩
      cases r with
      | literalReplaced src dst =>
        obtain ⟨hsrc, hdst⟩ := hstorable
        refine ⟨src, _, _, rfl, ⟨hsrc, rfl⟩, dst, rfl, ?_⟩
        cases dst with
        | none => exact .inl ⟨rfl, rfl⟩
        | some l => exact .inr ⟨l, _, rfl, rfl, hdst l rfl, rfl⟩
      | _ => cases htag
  | argumentPropagated =>
    refine (reads_bits rfl (fun _ => rfl) (fun _ => rfl) Rule.argumentPropagated
      (f := UInt64.ofBitVec) (g := UInt64.toBitVec)).congr fun r front => ?_
    cases r <;> simp [Rule.tag, Rule.Storable, payloadBytes]

/-- **A rule** is read from its tag and its payload, if its texts fit. -/
lemma reads_rule : Reads readRule fun r front => r.Storable ∧ front = ruleBytes r := by
  refine (reads_bind (reads_alternative (l := RuleTag.all) (by decide) (by decide))
    reads_payload).congr fun r front => ?_
  constructor
  · rintro ⟨tag, first, second, rfl, ⟨-, rfl⟩, rfl, hstorable, rfl⟩
    exact ⟨hstorable, rfl⟩
  · rintro ⟨hstorable, rfl⟩
    exact ⟨_, _, _, rfl, ⟨RuleTag.mem_all _, rfl⟩, rfl, hstorable, rfl⟩

/-! ## Records -/

/-- **A record.** Exactly the bytes of storable records are accepted, whatever comes after them. -/
lemma reads_record : Reads readRecord fun r front => r.Storable ∧ front = recordBytes r := by
  refine (reads_bind reads_rule fun rule =>
    reads_text.map fun project => { rule, project : Record }).congr fun r front => ?_
  constructor
  · rintro ⟨rule, first, second, rfl, ⟨hrule, rfl⟩, project, rfl, hproject, rfl⟩
    exact ⟨⟨hrule, hproject⟩, rfl⟩
  · rintro ⟨⟨hrule, hproject⟩, rfl⟩
    exact ⟨r.rule, _, _, rfl, ⟨hrule, rfl⟩, r.project, rfl, hproject, rfl⟩

/-- Reading takes a record off the front of whatever comes after it. -/
lemma run_readRecord_append {r : Record} (h : r.Storable) (rest : List UInt8) :
    readRecord.run (recordBytes r ++ rest) = .ok (r, rest) :=
  (reads_record _ _ _).mpr ⟨_, rfl, h, rfl⟩

/-- What is read is the bytes of a record and what comes after them. -/
lemma run_readRecord_eq_ok {b rest : List UInt8} {r : Record}
    (h : readRecord.run b = .ok (r, rest)) : r.Storable ∧ b = recordBytes r ++ rest := by
  obtain ⟨front, rfl, hstorable, rfl⟩ := (reads_record _ _ _).mp h
  exact ⟨hstorable, rfl⟩

/-- **No record is the start of another.** If the bytes of one record are in front of the bytes of
another one, the records are the same. -/
lemma eq_of_recordBytes_start {r r' : Record} (h : r.Storable) (h' : r'.Storable)
    (hstart : recordBytes r <+: recordBytes r') : r = r' := by
  obtain ⟨rest, hrest⟩ := hstart
  have hread := run_readRecord_append h rest
  have hread' := run_readRecord_append h' []
  rw [List.append_nil, ← hrest, hread] at hread'
  cases hread'
  rfl

/-- A record is never stored as no bytes. -/
lemma recordBytes_ne_nil (r : Record) : recordBytes r ≠ [] := by
  simp [recordBytes, ruleBytes, alternativeBytes, wordBytes]

/-- The second byte of a record is zero, as there are few rules. -/
lemma exists_recordBytes_eq (r : Record) : ∃ first rest, recordBytes r = first :: 0 :: rest := by
  have hfew : RuleTag.all.idxOf r.rule.tag / 256 = 0 := by
    cases r.rule.tag <;> rfl
  simp [recordBytes, ruleBytes, alternativeBytes, wordBytes, hfew]

end RecordLog

end EditIdioms
