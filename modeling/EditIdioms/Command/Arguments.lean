/-!
# Command-line arguments

The first argument names a command, the others belong to it. An option that takes a value has it
attached behind an equals sign, or, in its short form, directly behind its letter, or takes the next
argument, unless that looks like an option. An option that waits for its value, or has just got it,
is settled when the next thing is recognised; an argument that is not recognised is reported first.

## Main definitions

* `UsageFault` — why arguments are refused; asking for help counts as one.
* `OptionSpec`, `ArgumentSpec` — which arguments a command has.
* `Given`, `ArgumentSpec.parse` — the arguments of a command as given.
* `MineOptions`, `Command`, `Command.parse` — commands.
-/

set_option autoImplicit false

namespace EditIdioms

/-- Why arguments are refused. -/
inductive UsageFault where
  /-- Help was asked for. -/
  | helpWanted
  /-- The version was asked for. -/
  | versionWanted
  /-- There is no command. -/
  | noCommand
  | unknownCommand
  | unknownArgument
  /-- An option has no value. -/
  | missingValue
  /-- An option is given twice. -/
  | givenTwice
  /-- An option that takes no value has one. -/
  | unwantedValue
  | missingArgument
deriving DecidableEq

/-- The exit code: asking for something is no error. -/
def UsageFault.exitCode : UsageFault → Nat
  | helpWanted | versionWanted => 0
  | _ => 2

/-- What an option does. -/
inductive OptionEffect where
  /-- It is on when given. -/
  | flag
  /-- It takes a value. -/
  | value
  /-- It asks for something else than the command. -/
  | ask (fault : UsageFault)
deriving DecidableEq

/-- An option with its names. -/
structure OptionSpec where
  long : String
  short? : Option Char := none
  effect : OptionEffect
deriving DecidableEq

/-- The arguments of a command: its options, and how many arguments that are no options it takes and
needs. -/
structure ArgumentSpec where
  options : List OptionSpec
  allowed : Nat
  needed : Nat

/-- The arguments given so far. -/
structure Given where
  flags : List String := []
  values : List (String × String) := []
  plain : List String := []
  /-- An option that is not settled, and its value if it has got it. -/
  open? : Option (String × Option String) := none

namespace Given

/-- Records a flag. -/
def setFlag (g : Given) (name : String) : Except UsageFault Given :=
  if name ∈ g.flags then .error .givenTwice else .ok { g with flags := name :: g.flags }

/-- Records the value of an option. -/
def setValue (g : Given) (name value : String) : Except UsageFault Given :=
  if (g.values.lookup name).isSome then .error .givenTwice
  else .ok { g with values := (name, value) :: g.values }

/-- Settles the open option. -/
def settle (g : Given) : Except UsageFault Given :=
  match g.open? with
  | none => .ok g
  | some (_, none) => .error .missingValue
  | some (name, some value) => { g with open? := none }.setValue name value

end Given

/-- The name and the value of an argument, split at the first equals sign. -/
def splitValue : List Char → List Char × Option (List Char)
  | [] => ([], none)
  | c :: rest =>
    if c = '=' then ([], some rest)
    else let (name, value?) := splitValue rest; (c :: name, value?)

namespace ArgumentSpec

/-- What an option does whose value, if any, is attached. -/
def take (g : Given) (option : OptionSpec) (value? : Option String) : Except UsageFault Given :=
  match option.effect, value? with
  | .value, some value => do (← g.settle).setValue option.long value
  | .value, none => do return { ← g.settle with open? := some (option.long, none) }
  | _, some _ => .error .unwantedValue
  | .flag, none => do (← g.settle).setFlag option.long
  | .ask fault, none => do
    let _ ← g.settle
    throw fault

/-- Options by their letters, of which the last one may have its value attached. -/
def takeLetters (spec : ArgumentSpec) : Given → List Char → Except UsageFault Given
  | g, [] => .ok g
  | g, letter :: rest =>
    match spec.options.find? (·.short? = some letter) with
    | none => .error .unknownArgument
    | some option =>
      match option.effect, rest with
      | .value, [] => take g option none
      | .value, '=' :: value => take g option (some (String.ofList value))
      | .value, value => take g option (some (String.ofList value))
      | _, rest => do takeLetters spec (← take g option none) rest

/-- An argument that is no option. -/
def takePlain (spec : ArgumentSpec) (g : Given) (argument : String) : Except UsageFault Given :=
  if g.plain.length < spec.allowed then do
    let g ← g.settle
    return { g with plain := g.plain ++ [argument] }
  else .error .unknownArgument

/-- One argument that may be an option. -/
def takeArgument (spec : ArgumentSpec) (g : Given) (argument : String) : Except UsageFault Given :=
  match argument.toList with
  | '-' :: '-' :: rest =>
    let (name, value?) := splitValue rest
    match spec.options.find? (·.long.toList = name) with
    | none => .error .unknownArgument
    | some option => take g option (value?.map String.ofList)
  | '-' :: letter :: rest => spec.takeLetters g (letter :: rest)
  | _ =>
    match g.open? with
    | some (name, none) => .ok { g with open? := some (name, some argument) }
    | _ => spec.takePlain g argument

/-- All arguments; behind two dashes there are no options. -/
def takeAll (spec : ArgumentSpec) (g : Given) : List String → Except UsageFault Given
  | [] => g.settle
  | argument :: rest =>
    if argument = "--" then do (← rest.foldlM spec.takePlain g).settle
    else do takeAll spec (← spec.takeArgument g argument) rest

/-- The arguments of a command. -/
def parse (spec : ArgumentSpec) (arguments : List String) : Except UsageFault Given := do
  let g ← spec.takeAll {} arguments
  if g.plain.length < spec.needed then throw .missingArgument else return g

end ArgumentSpec

/-- What a run can be told on the command line. -/
structure MineOptions where
  dataset? : Option String := none
  output? : Option String := none
  settingsFile? : Option String := none
  suffix? : Option String := none
  compress : Bool := false
  noSpecialize : Bool := false
deriving DecidableEq

/-- A command. -/
inductive Command where
  /-- Mines a dataset. -/
  | mine (options : MineOptions)
  /-- Prints a record log. -/
  | dump (log : String) (compressed : Bool)
  /-- Lists the rules. -/
  | rules
deriving DecidableEq

namespace Command

/-- The option every command has. -/
def helpOption : OptionSpec := ⟨"help", some 'h', .ask .helpWanted⟩

/-- The arguments of `mine`. -/
def mineArguments : ArgumentSpec where
  options := [
    ⟨"out", some 'o', .value⟩,
    ⟨"config", none, .value⟩,
    ⟨"suffix", none, .value⟩,
    ⟨"compress", none, .flag⟩,
    ⟨"no-specialize", none, .flag⟩,
    helpOption]
  allowed := 1
  needed := 0

/-- The arguments of `dump`. -/
def dumpArguments : ArgumentSpec where
  options := [⟨"compressed", none, .flag⟩, helpOption]
  allowed := 1
  needed := 1

/-- The arguments of `rules`. -/
def rulesArguments : ArgumentSpec where
  options := [helpOption]
  allowed := 0
  needed := 0

/-- The options that may stand in place of a command. -/
def topArguments : ArgumentSpec where
  options := [helpOption, ⟨"version", some 'V', .ask .versionWanted⟩]
  allowed := 0
  needed := 0

/-- Reads the arguments of `mine`. -/
def parseMine (arguments : List String) : Except UsageFault Command := do
  let g ← mineArguments.parse arguments
  return .mine {
    dataset? := g.plain.head?
    output? := g.values.lookup "out"
    settingsFile? := g.values.lookup "config"
    suffix? := g.values.lookup "suffix"
    compress := "compress" ∈ g.flags
    noSpecialize := "no-specialize" ∈ g.flags }

/-- Reads the arguments of `dump`. -/
def parseDump (arguments : List String) : Except UsageFault Command := do
  let g ← dumpArguments.parse arguments
  return .dump (g.plain.head?.getD "") ("compressed" ∈ g.flags)

/-- Reads the arguments of `rules`. -/
def parseRules (arguments : List String) : Except UsageFault Command := do
  let _ ← rulesArguments.parse arguments
  return .rules

/-- The commands by name. -/
def parsers : List (String × (List String → Except UsageFault Command)) :=
  [("mine", parseMine), ("dump", parseDump), ("rules", parseRules)]

/-- The command that explains commands. -/
def helpName : String := "help"

/-- Whether a name is that of a command. -/
def isName (name : String) : Bool := name = helpName || (parsers.lookup name).isSome

/-- Help on the named commands: no command has commands of its own. -/
def parseHelp : List String → UsageFault
  | [] => .helpWanted
  | name :: rest => if isName name && rest.isEmpty then .helpWanted else .unknownCommand

/-- Reads a command line. -/
def parse : List String → Except UsageFault Command
  | [] => .error .noCommand
  | first :: rest =>
    match parsers.lookup first with
    | some parser => parser rest
    | none =>
      if first = helpName then .error (parseHelp rest)
      else if first = "--" then
        match rest with
        | [] => .error .noCommand
        | name :: _ => .error (if isName name then .unknownArgument else .unknownCommand)
      else
        match first.toList with
        | '-' :: _ :: _ => do
          let _ ← topArguments.takeArgument {} first
          throw .unknownArgument
        | _ => .error .unknownCommand

end Command

end EditIdioms
