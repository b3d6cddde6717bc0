import EditIdioms.Numeric.Word
import EditIdioms.Text.Bytes

/-!
# Reading and writing bytes

Words are stored with their least significant byte first, texts as a count of bytes and the bytes,
characters as their bytes alone.

## Main definitions

* `FormatFault` — why bytes cannot be read.
* `ByteReader` — a computation that takes bytes from the front of a list.
* `readWord` — words of a given number of bytes.
* `textBytes`, `readText` — texts.
* `charBytes`, `readChar` — characters.
* `flagBytes`, `readFlag`, `optionBytes`, `readOption` — bytes that are zero or one.
-/

set_option autoImplicit false

namespace EditIdioms.RecordLog

/-- Why bytes cannot be read. -/
inductive FormatFault where
  /-- The bytes end too early. -/
  | cut
  /-- The bytes of a text are not UTF-8. -/
  | text
  /-- The bytes of a character are not UTF-8, or not all there. -/
  | character
  /-- A byte for true or false is neither zero nor one. -/
  | flag
  /-- A byte for something or nothing is neither zero nor one. -/
  | option
  /-- A word that numbers an alternative is too large. -/
  | alternative
deriving DecidableEq

/-- A computation that takes bytes from the front of a list. -/
abbrev ByteReader (α : Type) := StateT (List UInt8) (Except FormatFault) α

/-- Reads one byte. -/
def readByte : ByteReader UInt8 := do
  match ← get with
  | [] => throw .cut
  | b :: rest =>
    set rest
    return b

/-- Reads a number of bytes. -/
def takeBytes : (count : Nat) → ByteReader (List UInt8)
  | 0 => return []
  | count + 1 => return (← readByte) :: (← takeBytes count)

/-- Reads a word of `count` bytes. -/
def readWord (count : Nat) : ByteReader Nat := return wordOfBytes (← takeBytes count)

/-- A text: the number of its bytes as a word of eight, then the bytes. -/
def textBytes (s : String) : List UInt8 :=
  let b := Text.bytes s
  wordBytes 8 b.length ++ b

/-- Reads a text. -/
def readText : ByteReader String := do
  let count ← readWord 8
  match Text.ofBytes? (← takeBytes count) with
  | some s => return s
  | none => throw .text

/-- The bytes of a character. -/
def charBytes (c : Char) : List UInt8 := Text.bytes (String.singleton c)

/-- How many bytes a character has, by the first of them; nothing for a byte that starts none. -/
def charLength? (first : UInt8) : Option Nat :=
  if first < 0x80 then some 1
  else if first < 0xC2 then none
  else if first < 0xE0 then some 2
  else if first < 0xF0 then some 3
  else if first < 0xF5 then some 4
  else none

/-- Reads a character. A character that lacks bytes is bad, not cut. -/
def readChar : ByteReader Char := do
  let b ← get
  match b with
  | [] => throw .cut
  | first :: _ =>
    match charLength? first with
    | none => throw .character
    | some count =>
      match (Text.ofBytes? (b.take count)).map String.toList with
      | some [c] =>
        set (b.drop count)
        return c
      | _ => throw .character

/-- A byte for true or false. -/
def flagBytes (b : Bool) : List UInt8 := [if b then 1 else 0]

/-- Reads true or false. -/
def readFlag : ByteReader Bool := do
  match ← readByte with
  | 0 => return false
  | 1 => return true
  | _ => throw .flag

/-- A byte for something or nothing, and the bytes of something. -/
def optionBytes {α : Type} (bytes : α → List UInt8) : Option α → List UInt8
  | none => [0]
  | some a => 1 :: bytes a

/-- Reads something or nothing. -/
def readOption {α : Type} (read : ByteReader α) : ByteReader (Option α) := do
  match ← readByte with
  | 0 => return none
  | 1 => return some (← read)
  | _ => throw .option

/-- Reads a word of four bytes that numbers an alternative. -/
def readAlternative {α : Type} (alternatives : List α) : ByteReader α := do
  match alternatives[← readWord 4]? with
  | some a => return a
  | none => throw .alternative

end EditIdioms.RecordLog
