import EditIdioms.Text.CaseTables

/-!
# Lower case

Text in lower case, by the full case mappings: most characters map on their own, the capital I with
a dot becomes two characters, and a capital sigma takes its final shape at the end of a word.

## Main definitions

* `Text.lowerCase` — a text in lower case.
-/

set_option autoImplicit false

namespace EditIdioms.Text

/-- The lower-case form of a character on its own. -/
def lowerChar (c : Char) : Char :=
  let n := c.toNat
  let covers (run : CaseRun) : Bool :=
    run.first ≤ n && n ≤ run.last && (n - run.first) % run.step == 0
  match lowerRuns.find? covers with
  | some run => Char.ofNat ((n : Int) + run.offset).toNat
  | none => c

/-- Whether a letter comes next, looking through the characters that do not count. -/
def startsWithLetter (s : List Char) : Bool :=
  (s.dropWhile isCaseIgnorable).head?.any isCased

/-- The lower-case form of the characters `s`, which follow the characters `before`, last one first.
A sigma is final when a letter precedes it and none follows. -/
def lowerAfter (before : List Char) : (s : List Char) → List Char
  | [] => []
  | c :: rest =>
    let here :=
      if c = 'Σ' then
        if startsWithLetter before && !startsWithLetter rest then ['ς'] else ['σ']
      else if c = 'İ' then ['i', Char.ofNat 0x307]
      else [lowerChar c]
    here ++ lowerAfter (c :: before) rest

/-- The text in lower case. -/
def lowerCase (s : List Char) : List Char := lowerAfter [] s

end EditIdioms.Text
