import EditIdioms.Json.Reader

/-!
# Strings in JSON text

A string is read by a small machine that takes one character after the other. An escape by number
has four hexadecimal digits, and a character above U+FFFF takes two of them, a surrogate pair. The
digits are judged only once four bytes of them are there, so a text that ends before that is
truncated, not malformed.

## Main definitions

* `StringState`, `StringState.step` — the machine. It can be told to let lone surrogates pass, for
  text whose value does not matter.
* `stringBody` — reads a string whose opening quote has been taken.
* `escapeChar`, `quoted` — writes a string.
-/

set_option autoImplicit false

namespace EditIdioms.Json

/-- The value of a hexadecimal digit. -/
def hexValue? (c : Char) : Option Nat :=
  if '0' ≤ c ∧ c ≤ '9' then some (c.toNat - '0'.toNat)
  else if 'a' ≤ c ∧ c ≤ 'f' then some (c.toNat - 'a'.toNat + 10)
  else if 'A' ≤ c ∧ c ≤ 'F' then some (c.toNat - 'A'.toNat + 10)
  else none

/-- Whether a 16-bit unit is the first half of a surrogate pair. -/
def isHighSurrogate (n : Nat) : Bool := 0xD800 ≤ n && n ≤ 0xDBFF

/-- Whether a 16-bit unit is the second half of a surrogate pair. -/
def isLowSurrogate (n : Nat) : Bool := 0xDC00 ≤ n && n ≤ 0xDFFF

/-- The character of a surrogate pair. -/
def joinSurrogates (high low : Nat) : Char :=
  .ofNat (0x10000 + (high - 0xD800) * 0x400 + (low - 0xDC00))

/-- Where in a string the machine is. -/
inductive StringState where
  /-- Between two characters. -/
  | plain
  /-- After a backslash. -/
  | escape
  /-- Inside an escape by number: a first half read before, the bytes to come, and the value of the
  digits so far unless one was no digit. -/
  | hex (high? : Option Nat) (bytes : Nat) (value? : Option Nat)
  /-- After a first half, where the backslash of the second must come. -/
  | lowEscape (high : Nat)
  /-- After that backslash, where the letter must come. -/
  | lowMark (high : Nat)
deriving DecidableEq

/-- What one character does. -/
inductive StringStep where
  | more (state : StringState)
  | give (c : Char)
  | close
  | bad
deriving DecidableEq

/-- The character an escape of one letter stands for. -/
def escaped? : Char → Option Char
  | '"' => some '"'
  | '\\' => some '\\'
  | '/' => some '/'
  | 'b' => some '\x08'
  | 'f' => some '\x0c'
  | 'n' => some '\n'
  | 'r' => some '\r'
  | 't' => some '\t'
  | _ => none

/-- What a finished escape by number does. -/
def finishHex (strict : Bool) (high? : Option Nat) : Option Nat → StringStep
  | none => .bad
  | some n =>
    if strict then
      match high? with
      | none =>
        if isHighSurrogate n then .more (.lowEscape n)
        else if isLowSurrogate n then .bad
        else .give (.ofNat n)
      | some high => if isLowSurrogate n then .give (joinSurrogates high n) else .bad
    else .more .plain

namespace StringState

/-- Takes one character. When not `strict`, surrogates need not be paired. -/
def step (strict : Bool) : StringState → Char → StringStep
  | plain, c =>
    if c = '"' then .close
    else if c = '\\' then .more escape
    else if c.toNat < 0x20 then .bad
    else .give c
  | escape, c =>
    if c = 'u' then .more (hex none 4 (some 0))
    else
      match escaped? c with
      | some d => .give d
      | none => .bad
  | hex high? bytes value?, c =>
    let value? := do return (← value?) * 16 + (← hexValue? c)
    if c.utf8Size < bytes then .more (hex high? (bytes - c.utf8Size) value?)
    else finishHex strict high? value?
  | lowEscape high, c => if c = '\\' then .more (lowMark high) else .bad
  | lowMark high, c => if c = 'u' then .more (hex (some high) 4 (some 0)) else .bad

end StringState

/-- Reads on in a string of which `taken` has been read, last character first. -/
def stringFrom : StringState → (taken : List Char) → List Char → Except Fault (String × List Char)
  | _, _, [] => .error .truncated
  | state, taken, c :: rest =>
    match state.step true c with
    | .more state => stringFrom state taken rest
    | .give d => stringFrom .plain (d :: taken) rest
    | .close => .ok (String.ofList taken.reverse, rest)
    | .bad => .error .malformed

/-- Reads a string whose opening quote has been taken. -/
def stringBody : Reader String := fun text => stringFrom .plain [] text

/-- A hexadecimal digit. -/
def hexDigit (n : Nat) : Char := Nat.digitChar n

/-- A character as it is written in a string: the quote, the backslash and controls are escaped. -/
def escapeChar (c : Char) : List Char :=
  if c = '"' then ['\\', '"']
  else if c = '\\' then ['\\', '\\']
  else if c = '\x08' then ['\\', 'b']
  else if c = '\x0c' then ['\\', 'f']
  else if c = '\n' then ['\\', 'n']
  else if c = '\r' then ['\\', 'r']
  else if c = '\t' then ['\\', 't']
  else if c.toNat < 0x20 then
    ['\\', 'u', '0', '0', hexDigit (c.toNat / 16), hexDigit (c.toNat % 16)]
  else [c]

/-- A string between quotes. -/
def quoted (s : String) : List Char := '"' :: s.toList.flatMap escapeChar ++ ['"']

end EditIdioms.Json
