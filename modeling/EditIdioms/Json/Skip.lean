import EditIdioms.Json.Text
import EditIdioms.Json.Number

/-!
# Skipping JSON values

A value that nobody asked for must be JSON but may be anything: of any depth, with numbers of any
size and with surrogates that have no partner. It is passed over by a machine that takes one
character after the other and keeps the open arrays and objects on a stack.

## Main definitions

* `SkipMode`, `SkipMode.step` — the machine.
* `skip` — passes over one value.
-/

set_option autoImplicit false

namespace EditIdioms.Json

/-- What an item can be in. -/
inductive Container where
  | array
  | object
deriving DecidableEq

/-- The last character of a container. -/
def Container.closer : Container → Char
  | array => ']'
  | object => '}'

/-- Where in a number the machine is. -/
inductive NumberPart where
  /-- After the minus sign. -/
  | sign
  /-- After a leading zero. -/
  | zero
  /-- After a digit before the point. -/
  | whole
  /-- After the point. -/
  | point
  /-- After a digit behind the point. -/
  | fraction
  /-- After the letter of the exponent. -/
  | mark
  /-- After the sign of the exponent. -/
  | markSign
  /-- After a digit of the exponent. -/
  | exponent
deriving DecidableEq

namespace NumberPart

/-- Whether a number may end here. -/
def isComplete : NumberPart → Bool
  | zero | whole | fraction | exponent => true
  | _ => false

/-- Where the number goes on with a character, if it does. -/
def next? : NumberPart → Char → Option NumberPart
  | sign, c => if c = '0' then some zero else if isDigit c then some whole else none
  | zero, c => if c = '.' then some point else if c = 'e' ∨ c = 'E' then some mark else none
  | whole, c =>
    if isDigit c then some whole
    else if c = '.' then some point
    else if c = 'e' ∨ c = 'E' then some mark
    else none
  | point, c => if isDigit c then some fraction else none
  | fraction, c =>
    if isDigit c then some fraction else if c = 'e' ∨ c = 'E' then some mark else none
  | mark, c =>
    if c = '+' ∨ c = '-' then some markSign else if isDigit c then some exponent else none
  | markSign, c => if isDigit c then some exponent else none
  | exponent, c => if isDigit c then some exponent else none

end NumberPart

/-- What must or may come next. -/
inductive SkipMode where
  /-- A value. -/
  | value
  /-- The first item of the innermost container, or its end. -/
  | opened
  /-- A comma, or the end of the innermost container. -/
  | between
  /-- A key. -/
  | key
  /-- The colon behind a key. -/
  | colon
  /-- The rest of a string, perhaps of a key. -/
  | inString (isKey : Bool) (state : StringState)
  /-- The rest of a literal word. -/
  | inWord (rest : List Char)
  /-- The rest of a number. -/
  | inNumber (part : NumberPart)
deriving DecidableEq

/-- What one character does. -/
inductive SkipStep where
  | more (mode : SkipMode) (stack : List Container)
  /-- The value ended with the character. -/
  | doneAfter
  /-- The value ended before the character. -/
  | doneBefore
  | bad
deriving DecidableEq

namespace SkipMode

/-- What follows an item that ended with the last character. -/
def afterItem : List Container → SkipStep
  | [] => .doneAfter
  | stack => .more between stack

/-- The first character of a value. -/
def stepValue (stack : List Container) (c : Char) : SkipStep :=
  if isBlank c then .more value stack
  else if c = 'n' then .more (inWord ['u', 'l', 'l']) stack
  else if c = 't' then .more (inWord ['r', 'u', 'e']) stack
  else if c = 'f' then .more (inWord ['a', 'l', 's', 'e']) stack
  else if c = '-' then .more (inNumber .sign) stack
  else if c = '0' then .more (inNumber .zero) stack
  else if isDigit c then .more (inNumber .whole) stack
  else if c = '"' then .more (inString false .plain) stack
  else if c = '[' then .more opened (.array :: stack)
  else if c = '\x7b' then .more opened (.object :: stack)
  else .bad

/-- The first character of a key. -/
def stepKey (stack : List Container) (c : Char) : SkipStep :=
  if isBlank c then .more key stack
  else if c = '"' then .more (inString true .plain) stack
  else .bad

/-- What may stand behind an item. -/
def stepBetween (stack : List Container) (c : Char) : SkipStep :=
  if isBlank c then .more between stack
  else
    match stack with
    | [] => .bad
    | container :: outer =>
      if c = container.closer then afterItem outer
      else if c = ',' then
        match container with
        | .array => .more value stack
        | .object => .more key stack
      else .bad

/-- What may stand behind the first character of a container. -/
def stepOpened (stack : List Container) (c : Char) : SkipStep :=
  if isBlank c then .more opened stack
  else
    match stack with
    | [] => .bad
    | container :: outer =>
      if c = container.closer then afterItem outer
      else
        match container with
        | .array => stepValue stack c
        | .object => stepKey stack c

/-- Takes one character. -/
def step (stack : List Container) : SkipMode → Char → SkipStep
  | value, c => stepValue stack c
  | opened, c => stepOpened stack c
  | between, c => stepBetween stack c
  | key, c => stepKey stack c
  | colon, c =>
    if isBlank c then .more colon stack else if c = ':' then .more value stack else .bad
  | inString isKey state, c =>
    match state.step false c with
    | .more state => .more (inString isKey state) stack
    | .give _ => .more (inString isKey .plain) stack
    | .close => if isKey then .more colon stack else afterItem stack
    | .bad => .bad
  | inWord [], _ => .bad
  | inWord [last], c => if c = last then afterItem stack else .bad
  | inWord (first :: rest), c => if c = first then .more (inWord rest) stack else .bad
  | inNumber part, c =>
    match part.next? c with
    | some part => .more (inNumber part) stack
    | none =>
      -- a leading zero is not followed by a digit
      if !part.isComplete || isDigit c then .bad
      else if stack.isEmpty then .doneBefore
      else stepBetween stack c

/-- What the end of the text does. -/
def atEnd (stack : List Container) : SkipMode → Except Fault (Unit × List Char)
  | inNumber part =>
    if !part.isComplete then .error .malformed
    else if stack.isEmpty then .ok ((), [])
    else .error .truncated
  | _ => .error .truncated

end SkipMode

/-- Passes over the rest of a value. -/
def skipFrom : SkipMode → List Container → List Char → Except Fault (Unit × List Char)
  | mode, stack, [] => mode.atEnd stack
  | mode, stack, c :: rest =>
    match mode.step stack c with
    | .more mode stack => skipFrom mode stack rest
    | .doneAfter => .ok ((), rest)
    | .doneBefore => .ok ((), c :: rest)
    | .bad => .error .malformed

/-- Passes over one value. -/
def skip : Reader Unit := fun text => skipFrom .value [] text

end EditIdioms.Json
