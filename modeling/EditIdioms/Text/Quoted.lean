import EditIdioms.Text.Printable

/-!
# Quoted text

Text between double quotes in which nothing is invisible: what has no shape of its own is written as
an escape.

## Main definitions

* `Text.quote` — a text between quotes.
* `Text.quoteList` — a list of quoted texts between brackets.
-/

set_option autoImplicit false

namespace EditIdioms.Text

/-- The escape that gives a scalar value in hexadecimal. -/
def hexEscape (c : Char) : List Char :=
  ['\\', 'u', '\x7b'] ++ Nat.toDigits 16 c.toNat ++ ['\x7d']

/-- A character as it stands between quotes. -/
def quoteChar (c : Char) : List Char :=
  if c = '\x00' then ['\\', '0']
  else if c = '\t' then ['\\', 't']
  else if c = '\r' then ['\\', 'r']
  else if c = '\n' then ['\\', 'n']
  else if c = '"' then ['\\', '"']
  else if c = '\\' then ['\\', '\\']
  else if extendsGrapheme c || isUnprintable c then hexEscape c
  else [c]

/-- The text between quotes. -/
def quote (s : String) : String :=
  String.ofList ('"' :: s.toList.flatMap quoteChar ++ ['"'])

/-- The texts, each quoted, between brackets. -/
def quoteList (l : List String) : String :=
  "[" ++ ", ".intercalate (l.map quote) ++ "]"

end EditIdioms.Text
