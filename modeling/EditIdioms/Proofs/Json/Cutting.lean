import EditIdioms.Proofs.Json.Integers

set_option relaxedAutoImplicit false
set_option autoImplicit false

/-!
# Reading text that was cut off

Most tokens show by themselves where they end, so a reader that is given the beginning of one knows
that more has to come. A number does not: its first digits are a number too, and only what a reader
wants behind it is missed then. So it is enough that a reader takes what is left of a cut number up
to the end, when the characters behind a number are wanted in any case.

## Main definitions

* `NeedsAll` — a reader finds that each proper beginning of a text is truncated.
* `UsesAll` — it finds this, or it takes all of the beginning for a value.

## Main results

* `NeedsAll.bind`, `UsesAll.bind` — reading one part after another.
* `needsAll_string`, `usesAll_integerWithin` — strings and integers.
-/

namespace EditIdioms.Json

/-! ## Readers and cut text -/

/-- Wherever the text was cut, the reader finds what is left of it truncated. -/
def NeedsAll {α : Type} (read : Reader α) (text : List Char) : Prop :=
  ∀ front back, text = front ++ back → back ≠ [] → read.run front = .error .truncated

/-- Wherever the text was cut, the reader finds what is left of it truncated or takes all of it. -/
def UsesAll {α : Type} (read : Reader α) (text : List Char) : Prop :=
  ∀ front back, text = front ++ back → back ≠ [] →
    read.run front = .error .truncated ∨ ∃ a, read.run front = .ok (a, [])

section Run

variable {α β : Type} {read : Reader α} {next : α → Reader β} {first second text cs : List Char}
  {c : Char} {a : α}

/-- A reader that finds a text truncated does so whatever it was to read behind it. -/
lemma run_bind_of_error {fault : Fault} (h : read.run text = .error fault) :
    (read >>= next).run text = .error fault := by
  rw [StateT.run_bind, h]
  rfl

/-- What is behind the end of a text is nothing. -/
lemma eq_nil_of_cut {front back : List Char} (h : [] = front ++ back) : back = [] :=
  (List.append_eq_nil_iff.mp h.symm).2

/-- **A text with a first character** was cut before it or behind it. -/
lemma needsAll_cons (hnil : read.run [] = .error .truncated)
    (h : ∀ front back, cs = front ++ back → back ≠ [] →
      read.run (c :: front) = .error .truncated) : NeedsAll read (c :: cs) := by
  intro front back htext hback
  cases front with
  | nil => exact hnil
  | cons d front =>
    obtain ⟨rfl, hcs⟩ := List.cons.inj htext
    exact h front back hcs hback

/-- One character is needed if any is. -/
lemma needsAll_singleton (hnil : read.run [] = .error .truncated) : NeedsAll read [c] :=
  needsAll_cons hnil fun _ _ htext hback => absurd (eq_nil_of_cut htext) hback

/-- A reader that needs all of a text leaves nothing unused. -/
lemma NeedsAll.usesAll (h : NeedsAll read text) : UsesAll read text := fun front back htext hback =>
  .inl (h front back htext hback)

/-- What is to be read behind a text does not matter where it was cut. -/
lemma NeedsAll.left (h : NeedsAll read text) : NeedsAll (read >>= next) text :=
  fun front back htext hback => run_bind_of_error (h front back htext hback)

/-- Making another value of what is read. -/
lemma UsesAll.map (h : UsesAll read text) (hnext : ∀ a, ∃ b, next a = pure b) :
    UsesAll (read >>= next) text := by
  intro front back htext hback
  rcases h front back htext hback with hcut | ⟨a, ha⟩
  · exact .inl (run_bind_of_error hcut)
  · obtain ⟨b, hb⟩ := hnext a
    exact .inr ⟨b, by rw [run_bind_of_ok ha, hb]; rfl⟩

/-- What ends a number does so when it was cut. -/
lemma Closed.left {front back : List Char} (h : Closed (front ++ back)) : Closed front := by
  cases front with
  | nil => exact fun c hc => by cases hc
  | cons c front => exact fun d hd => h d hd

/-- A text in two parts was cut in the first of them, or behind it. -/
lemma cut_append {front back : List Char} (h : first ++ second = front ++ back) :
    (∃ middle, middle ≠ [] ∧ first = front ++ middle) ∨
      ∃ front', front = first ++ front' ∧ second = front' ++ back := by
  rcases List.append_eq_append_iff.mp h with ⟨front', hfront, hsecond⟩ | ⟨middle, hfirst, hback⟩
  · exact .inr ⟨front', hfront, hsecond⟩
  · cases middle with
    | nil => exact .inr ⟨[], by simpa using hfirst.symm, by simpa using hback.symm⟩
    | cons d middle => exact .inl ⟨d :: middle, List.cons_ne_nil d middle, hfirst⟩

/-- **Reading on** behind a part that shows where it ends, up to a part that does, too. -/
lemma NeedsAll.bind (h : NeedsAll read first)
    (hrun : ∀ rest, read.run (first ++ rest) = .ok (a, rest)) (h' : NeedsAll (next a) second) :
    NeedsAll (read >>= next) (first ++ second) := by
  intro front back htext hback
  rcases cut_append htext with ⟨middle, hmiddle, hfirst⟩ | ⟨front', rfl, hsecond⟩
  · exact run_bind_of_error (h front middle hfirst hmiddle)
  · rw [run_bind_of_ok (hrun front')]
    exact h' front' back hsecond hback

/-- **Reading on** behind a part that shows where it ends, up to one that need not. -/
lemma NeedsAll.bind_usesAll (h : NeedsAll read first)
    (hrun : ∀ rest, read.run (first ++ rest) = .ok (a, rest)) (h' : UsesAll (next a) second) :
    UsesAll (read >>= next) (first ++ second) := by
  intro front back htext hback
  rcases cut_append htext with ⟨middle, hmiddle, hfirst⟩ | ⟨front', rfl, hsecond⟩
  · exact .inl (run_bind_of_error (h front middle hfirst hmiddle))
  · rw [run_bind_of_ok (hrun front')]
    exact h' front' back hsecond hback

/-- **Reading on** behind a part that need not show where it ends. More is wanted behind it,
whatever was read of it. -/
lemma UsesAll.bind (h : UsesAll read first)
    (hrun : ∀ rest, Closed rest → read.run (first ++ rest) = .ok (a, rest))
    (hwants : ∀ a, (next a).run [] = .error .truncated) (hclosed : Closed second)
    (h' : NeedsAll (next a) second) : NeedsAll (read >>= next) (first ++ second) := by
  intro front back htext hback
  rcases cut_append htext with ⟨middle, hmiddle, hfirst⟩ | ⟨front', rfl, rfl⟩
  · rcases h front middle hfirst hmiddle with hcut | ⟨a', ha'⟩
    · exact run_bind_of_error hcut
    · rw [run_bind_of_ok ha', hwants]
  · rw [run_bind_of_ok (hrun front' hclosed.left)]
    exact h' front' back rfl hback

/-- The first character, with no blanks before it. -/
lemma run_peek_bind_cons {next : Char → Reader β} (hc : isBlank c = false) (rest : List Char) :
    (peek >>= next).run (c :: rest) = (next c).run (c :: rest) :=
  run_peek_bind (List.forall_mem_nil _) hc

/-- **A text that is told by its first character.** -/
lemma needsAll_of_first {next : Char → Reader β} (hc : isBlank c = false)
    (h : ∀ front back, cs = front ++ back → back ≠ [] →
      (next c).run (c :: front) = .error .truncated) : NeedsAll (peek >>= next) (c :: cs) := by
  refine needsAll_cons (run_bind_of_error rfl) fun front back hcs hback => ?_
  rw [run_peek_bind_cons hc]
  exact h front back hcs hback

/-! ## Tokens -/

/-- A word is truncated wherever it was cut. -/
lemma needsAll_keyword (cs : List Char) : NeedsAll (keyword cs) cs := by
  induction cs with
  | nil => exact fun _ _ htext hback => absurd (eq_nil_of_cut htext) hback
  | cons c cs ih =>
    refine needsAll_cons rfl fun front back hcs hback => ?_
    change (if c = c then advance >>= fun _ => keyword cs else throw Fault.malformed).run
      (c :: front) = _
    rw [if_pos rfl, run_advance_bind]
    exact ih front back hcs hback

/-- A given character is truncated if it is not there. -/
lemma needsAll_expect (c : Char) : NeedsAll (expect c) [c] := needsAll_singleton rfl

/-- The word for nothing is truncated wherever it was cut. -/
lemma needsAll_null : NeedsAll null Value.null.chars := by
  refine needsAll_of_first rfl fun front back htext hback => ?_
  rw [if_pos rfl, run_advance_bind]
  exact needsAll_keyword _ front back htext hback

/-- The words for truth values are truncated wherever they were cut. -/
lemma needsAll_boolean (b : Bool) : NeedsAll boolean (Value.boolean b).chars := by
  cases b with
  | true =>
    refine needsAll_of_first rfl fun front back htext hback => ?_
    rw [if_pos rfl, run_advance_bind]
    exact run_bind_of_error (needsAll_keyword _ front back htext hback)
  | false =>
    refine needsAll_of_first rfl fun front back htext hback => ?_
    rw [if_neg (by decide), if_pos rfl, run_advance_bind]
    exact run_bind_of_error (needsAll_keyword _ front back htext hback)

/-- The word for nothing is truncated wherever it was cut, also where something else may come in its
place, if the reader of that wants more. -/
lemma needsAll_optional_null (hwants : read.run [] = .error .truncated) :
    NeedsAll (optional read) Value.null.chars := by
  refine needsAll_cons ?_ fun front back htext hback => ?_
  · change (read >>= fun a => pure (some a)).run [] = _
    exact run_bind_of_error hwants
  · have hnull := needsAll_null ('n' :: front) back (by rw [Value.chars, htext]; rfl) hback
    have hpeek : peek?.run ('n' :: front) = .ok (some 'n', 'n' :: front) :=
      run_peek? (List.forall_mem_nil _) rfl
    unfold optional
    rw [run_bind_of_ok hpeek, if_pos rfl]
    exact run_bind_of_error hnull

/-- Something, which does not start as the word for nothing. -/
lemma UsesAll.optional (h : UsesAll read (c :: cs)) (hc : isBlank c = false) (hsome : c ≠ 'n') :
    UsesAll (optional read) (c :: cs) := by
  intro front back htext hback
  have hsome' : UsesAll (read >>= fun a => pure (some a)) (c :: cs) := h.map fun a => ⟨_, rfl⟩
  have hread := hsome' front back htext hback
  cases front with
  | nil => exact hread
  | cons d front =>
    obtain ⟨rfl, -⟩ := List.cons.inj htext
    have hpeek : peek?.run (c :: front) = .ok (some c, c :: front) :=
      run_peek? (List.forall_mem_nil _) hc
    unfold Json.optional
    rw [run_bind_of_ok hpeek, if_neg (by simpa using hsome)]
    exact hread

/-! ## Strings -/

/-- The characters of a string that ends with the text are all needed.

**Proof sketch.** Induction on the text. If the machine stopped before the end, it would have left
something of the text. -/
lemma stringFrom_cut {state : StringState} {taken front back : List Char} {s : String}
    (h : stringFrom state taken (front ++ back) = .ok (s, [])) (hback : back ≠ []) :
    stringFrom state taken front = .error .truncated := by
  induction front generalizing state taken with
  | nil => rfl
  | cons c front ih =>
    rw [List.cons_append] at h
    unfold stringFrom at h ⊢
    cases hstep : state.step true c with
    | more next =>
      rw [hstep] at h
      exact ih h
    | give d =>
      rw [hstep] at h
      exact ih h
    | close =>
      rw [hstep] at h
      have hnil : front ++ back = [] := (Prod.mk.inj (Except.ok.inj h)).2
      exact absurd (eq_nil_of_cut hnil.symm) hback
    | bad =>
      rw [hstep] at h
      cases h

/-- **A string** whose opening quote was taken. -/
lemma needsAll_stringBody {text cs : List Char} (h : Spells text cs) :
    NeedsAll stringBody (text ++ ['"']) := by
  intro front back htext hback
  have hall := run_stringBody h []
  rw [htext] at hall
  exact stringFrom_cut hall hback

/-- **A string** is truncated wherever it was cut, the closing quote included. -/
lemma needsAll_string (s : String) : NeedsAll string (quoted s) := by
  obtain ⟨text, hquoted, hspells⟩ := spells_quoted s
  rw [hquoted]
  refine needsAll_of_first rfl fun front back htext hback => ?_
  rw [if_pos rfl, run_advance_bind]
  exact needsAll_stringBody hspells front back htext hback

/-- A string as it is written is taken whole. -/
lemma run_string (s : String) (rest : List Char) :
    string.run (quoted s ++ rest) = .ok (s, rest) := by
  obtain ⟨text, hquoted, hspells⟩ := spells_quoted s
  have hrun := takes_string hspells _ rest (laid_flatten [inQuotes text])
  rw [List.flatten_singleton] at hrun
  rw [hquoted, hrun]

end Run

/-! ## Integers -/

/-- **The first digits of a number** are those of a smaller one.

**Proof sketch.** Strong induction on the number. If nothing is cut off, it is the number itself.
Otherwise the last digit is cut off; if it was the only one, nothing is left in front, and if not,
what is left begins as the digits of a tenth of the number. -/
lemma exists_decimalDigits_of_append {n : ℕ} {front back : List Char}
    (h : decimalDigits n = front ++ back) (hfront : front ≠ []) :
    ∃ m ≤ n, front = decimalDigits m := by
  induction n using Nat.strongRecOn generalizing back with
  | _ n ih =>
    rcases List.eq_nil_or_concat back with rfl | ⟨back, d, rfl⟩
    · exact ⟨n, Nat.le_refl n, by rw [h, List.append_nil]⟩
    · by_cases hsmall : n < 10
      · have hone : decimalDigits n = [n.digitChar] := Nat.toDigits_of_lt_base hsmall
        rw [hone, List.concat_eq_append, ← List.append_assoc] at h
        have hnil : [] = front ++ back :=
          (List.append_inj' (show [] ++ [n.digitChar] = front ++ back ++ [d] from h) rfl).1
        exact absurd (List.append_eq_nil_iff.mp hnil.symm).1 hfront
      · have hdigits : decimalDigits n = decimalDigits (n / 10) ++ [(n % 10).digitChar] :=
          Nat.toDigits_of_base_le (by decide) (Nat.le_of_not_lt hsmall)
        rw [hdigits, List.concat_eq_append, ← List.append_assoc] at h
        obtain ⟨m, hm, hdigits⟩ := ih (n / 10) (by omega) (List.append_inj' h rfl).1
        exact ⟨m, by omega, hdigits⟩

/-- **The beginning of an integer** is nothing, a sign, or an integer that is nearer to zero.

**Proof sketch.** A beginning of the digits of a natural number is the digits of a smaller one
(`exists_decimalDigits_of_append`). If the integer is negative, its sign comes first and may stand
alone; otherwise the digits behind it begin as those of a number other than zero, since they do not
start with a zero, and so they are those of a negative integer. -/
lemma cut_integerDigits {n : ℤ} {front back : List Char} (h : integerDigits n = front ++ back) :
    front = [] ∨ front = ['-'] ∨
      ∃ m : ℤ, front = integerDigits m ∧ (0 ≤ m ∧ m ≤ n ∨ n ≤ m ∧ m ≤ 0) := by
  cases front with
  | nil => exact .inl rfl
  | cons c front =>
    unfold integerDigits at h
    split at h
    · obtain ⟨rfl, hdigits⟩ := List.cons.inj h
      cases front with
      | nil => exact .inr (.inl rfl)
      | cons d front =>
        obtain ⟨m, hm, hfront⟩ := exists_decimalDigits_of_append hdigits (List.cons_ne_nil d front)
        obtain ⟨e, es, hes, he⟩ := exists_decimalDigits (n := n.natAbs) (by omega)
        -- the digits behind the sign do not start with a zero, so the integer is negative
        have hm0 : m ≠ 0 := by
          rintro rfl
          rw [hes] at hdigits
          obtain ⟨rfl, -⟩ := List.cons.inj hdigits
          exact he (List.cons.inj hfront).1
        refine .inr (.inr ⟨-m, ?_, .inr (by omega)⟩)
        rw [integerDigits, if_pos (by omega), Int.natAbs_neg, Int.natAbs_natCast, hfront]
    · obtain ⟨m, hm, hfront⟩ := exists_decimalDigits_of_append h (List.cons_ne_nil c front)
      refine .inr (.inr ⟨m, ?_, .inl (by omega)⟩)
      rw [integerDigits, if_neg (by omega), Int.natAbs_natCast, hfront]

/-- **An integer within bounds.** What is left of its digits is within them, too. -/
lemma usesAll_integerWithin {low high n : ℤ} (hlow : low ≤ n) (hhigh : n ≤ high)
    (hlow' : -(negativeLimit : ℤ) ≤ low) (hhigh' : high ≤ significandLimit) (hzero : low ≤ 0)
    (hzero' : 0 ≤ high) : UsesAll (integerWithin low high) (integerDigits n) := by
  intro front back htext hback
  rcases cut_integerDigits htext with rfl | rfl | ⟨m, rfl, hm⟩
  · exact .inl rfl
  · exact .inl rfl
  · have hwithin : low ≤ m ∧ m ≤ high := by omega
    have hreads := reads_integerWithin hwithin.1 hwithin.2 hlow' hhigh'
    have hrun := hreads _ [] (laid_flatten [integerDigits m]) (fun c hc => by cases hc)
    rw [List.flatten_singleton, List.append_nil] at hrun
    exact .inr ⟨m, hrun⟩

end EditIdioms.Json
