import EditIdioms.Json.Text

/-!
# JSON values

## Main definitions

* `Value` — a JSON value; numbers are kept as they are to be written.
* `Value.render` — the text of a value, without blanks.
-/

set_option autoImplicit false

namespace EditIdioms.Json

/-- A JSON value. -/
inductive Value where
  | null
  | boolean (value : Bool)
  | number (text : String)
  | string (text : String)
  | array (items : List Value)
  | object (members : List (String × Value))

namespace Value

mutual

/-- The characters of a value. -/
def chars : Value → List Char
  | null => ['n', 'u', 'l', 'l']
  | boolean true => ['t', 'r', 'u', 'e']
  | boolean false => ['f', 'a', 'l', 's', 'e']
  | number text => text.toList
  | string text => quoted text
  | array [] => ['[', ']']
  | array (first :: rest) => '[' :: first.chars ++ itemsChars rest
  | object [] => ['\x7b', '\x7d']
  | object ((key, value) :: rest) =>
    '\x7b' :: quoted key ++ ':' :: value.chars ++ membersChars rest

/-- The characters of the items behind the first. -/
def itemsChars : List Value → List Char
  | [] => [']']
  | item :: rest => ',' :: item.chars ++ itemsChars rest

/-- The characters of the members behind the first. -/
def membersChars : List (String × Value) → List Char
  | [] => ['\x7d']
  | (key, value) :: rest => ',' :: quoted key ++ ':' :: value.chars ++ membersChars rest

end

/-- The text of a value. -/
def render (v : Value) : String := String.ofList v.chars

end Value

end EditIdioms.Json
