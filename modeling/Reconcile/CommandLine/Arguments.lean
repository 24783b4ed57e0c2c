namespace Reconcile

/-- Why a command line is not understood. -/
inductive UsageError where
  | unknownArgument (argument : String)
  | unknownCommand (name : String)
  | missingCommand
  | missingValue (option : String)
  | unexpectedValue (option : String)
  | repeatedOption (option : String)
  | emptyPath
  | missingArgument (name : String)
deriving DecidableEq, Repr, Inhabited

def UsageError.message : UsageError → String
  | unknownArgument argument => s!"error: unexpected argument '{argument}' found"
  | unknownCommand name => s!"error: unrecognized subcommand '{name}'"
  | missingCommand => "error: a subcommand is required but one was not provided"
  | missingValue option => s!"error: a value is required for '--{option}' but none was supplied"
  | unexpectedValue option => s!"error: unexpected value for '--{option}' found"
  | repeatedOption option => s!"error: the argument '--{option}' cannot be used multiple times"
  | emptyPath => "error: a path must not be empty"
  | missingArgument name => s!"error: the required argument '{name}' was not provided"

/-- Why a command line does not lead to a command: it is not understood, or it only asks for
    information. -/
inductive Stop where
  | usage (error : UsageError)
  /-- The help on a command inside commands. -/
  | help (topic : List String)
  | version
deriving DecidableEq, Repr, Inhabited

/-- What is written after an option. -/
inductive OptionKind where
  /-- Nothing. -/
  | flag
  /-- Any text. -/
  | text
  /-- A path, which is not empty. -/
  | path
deriving DecidableEq, Repr, Inhabited

/-- An option. -/
structure OptionSpec where
  name : String
  short : Option Char := none
  kind : OptionKind := .text
  /-- Whether the option may be given more than once. -/
  repeats : Bool := false
deriving DecidableEq, Repr, Inhabited

/-- What a command accepts. -/
structure Level where
  /-- The names that lead to the command. -/
  topic : List String := []
  options : List OptionSpec := []
  commands : List String := []
  /-- How many places there are, without a limit if nothing is said. -/
  places : Option Nat := some 0
  tellsVersion : Bool := false
deriving DecidableEq, Repr, Inhabited

/-- What was given to a command. -/
structure Given where
  /-- The options in order; a flag has an empty value. -/
  options : List (String × String) := []
  places : List String := []
deriving DecidableEq, Repr, Inhabited

namespace Given

def value? (given : Given) (name : String) : Option String :=
  given.options.reverse.lookup name

def values (given : Given) (name : String) : List String :=
  (given.options.filter (·.1 == name)).map (·.2)

def has (given : Given) (name : String) : Bool :=
  given.options.any (·.1 == name)

end Given

namespace Level

def addOption (given : Given) (option : OptionSpec) (value : String) : Except Stop Given :=
  if given.has option.name ∧ !option.repeats then .error (.usage (.repeatedOption option.name))
  else if option.kind = .path ∧ value = "" then .error (.usage .emptyPath)
  else .ok { given with options := given.options ++ [(option.name, value)] }

/-- Fills the next place. -/
def addPlace (level : Level) (given : Given) (value : String) : Except Stop Given :=
  if level.places.any (· ≤ given.places.length) then
    if level.commands.isEmpty then .error (.usage (.unknownArgument value))
    else .error (.usage (.unknownCommand value))
  else if value = "" then .error (.usage .emptyPath)
  else .ok { given with places := given.places ++ [value] }

/-- What comes after an argument: nothing in particular, or the value of an option. -/
abbrev Pending := Option OptionSpec

/-- An option by its long name, perhaps with a value after an equals sign. -/
def readLong (level : Level) (given : Given) (name : List Char) :
    Except Stop (Given × Pending) :=
  let (key, attached) := match name.span (· != '=') with
    | (key, []) => (String.ofList key, none)
    | (key, _ :: value) => (String.ofList key, some (String.ofList value))
  match level.options.find? (·.name == key) with
  | some option =>
    match option.kind, attached with
    | .flag, none => (addOption given option "").map (·, none)
    | .flag, some _ => .error (.usage (.unexpectedValue key))
    | _, some value => (addOption given option value).map (·, none)
    | _, none => .ok (given, some option)
  | none =>
    if key = "help" ∧ attached = none then .error (.help level.topic)
    else if key = "version" ∧ attached = none ∧ level.tellsVersion then .error .version
    else .error (.usage (.unknownArgument key))

/-- Options by their short names. What follows the name of an option with a value is that value,
    perhaps after an equals sign. -/
def readShort (level : Level) (given : Given) : List Char → Except Stop (Given × Pending)
  | [] => .ok (given, none)
  | c :: rest =>
    match level.options.find? (·.short == some c) with
    | some option =>
      if option.kind = .flag then do readShort level (← addOption given option "") rest
      else
        match rest with
        | [] => .ok (given, some option)
        | '=' :: value => (addOption given option (String.ofList value)).map (·, none)
        | value => (addOption given option (String.ofList value)).map (·, none)
    | none =>
      if c = 'h' then .error (.help level.topic)
      else if c = 'V' ∧ level.tellsVersion then .error .version
      else .error (.usage (.unknownArgument (String.ofList ['-', c])))

/-- Whether an argument can be the value of an option before it: it does not look like an option
    itself. -/
def canBeValue (argument : String) : Bool :=
  argument = "-" || !argument.startsWith '-'

/-- Takes a row of arguments apart, up to a command and what is given to it. An option may stand
    anywhere before the command, and after two dashes every argument fills a place. -/
def scan (level : Level) (given : Given) (pending : Pending) (onlyPlaces : Bool) :
    List String → Except Stop (Given × Option (String × List String))
  | [] =>
    match pending with
    | some option => .error (.usage (.missingValue option.name))
    | none => .ok (given, none)
  | argument :: rest =>
    match pending with
    | some option =>
      if canBeValue argument then do
        level.scan (← addOption given option argument) none false rest
      else .error (.usage (.missingValue option.name))
    | none =>
      if onlyPlaces then do level.scan (← level.addPlace given argument) none true rest
      else if level.commands.contains argument then .ok (given, some (argument, rest))
      else
        match argument.toList with
        | ['-', '-'] => level.scan given none true rest
        | '-' :: '-' :: name => do
          let (given, pending) ← level.readLong given name
          level.scan given pending false rest
        | '-' :: c :: names => do
          let (given, pending) ← level.readShort given (c :: names)
          level.scan given pending false rest
        | _ => do level.scan (← level.addPlace given argument) none false rest

end Level

end Reconcile
