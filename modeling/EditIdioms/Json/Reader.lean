/-!
# Reading JSON text

A reader takes characters from the front of a text and stops at the first problem. There are three
kinds of problem, told apart by what a longer or another text could have done about it.

## Main definitions

* `Fault` — why reading stopped.
* `Reader` — a computation that takes characters from the front of a text.
* `peek?`, `peek` — the next character that is not blank.
* `keyword` — the rest of a literal word.
* `readWhole` — reads a text from its first to its last character.
-/

set_option autoImplicit false

namespace EditIdioms.Json

/-- Why a text cannot be read. -/
inductive Fault where
  /-- The text ends inside a value. -/
  | truncated
  /-- The text is not JSON, or has more than one value. -/
  | malformed
  /-- The value is not of the shape wanted. -/
  | mismatched
deriving DecidableEq

/-- A computation that takes characters from the front of a text. -/
abbrev Reader (α : Type) := StateT (List Char) (Except Fault) α

/-- Whether a character may stand between tokens. -/
def isBlank (c : Char) : Bool := c == ' ' || c == '\t' || c == '\n' || c == '\r'

/-- Passes over blanks and looks at the next character, if there is one. -/
def peek? : Reader (Option Char) := do
  modify (·.dropWhile isBlank)
  return (← get).head?

/-- Passes over blanks and looks at the next character, of which there must be one. -/
def peek : Reader Char := do
  match ← peek? with
  | some c => return c
  | none => throw .truncated

/-- Takes one character. -/
def advance : Reader Unit := modify List.tail

/-- Takes the given characters, one by one. -/
def keyword : List Char → Reader Unit
  | [] => return ()
  | c :: cs => do
    match (← get).head? with
    | none => throw .truncated
    | some d =>
      if d = c then
        advance
        keyword cs
      else throw .malformed

/-- Takes the given character after blanks. -/
def expect (c : Char) : Reader Unit := do
  if (← peek) = c then advance else throw .malformed

/-- Reads a text that holds one value and otherwise only blanks. -/
def readWhole {α : Type} (read : Reader α) (text : List Char) : Except Fault α := do
  let (value, rest) ← read.run text
  if rest.all isBlank then return value else throw .malformed

end EditIdioms.Json
