import Reconcile.CommandLine.Arguments
import Reconcile.LocalPath

namespace Reconcile

structure CheckinOptions where
  /-- The recorded servers. -/
  snapshot : LocalPath
  message : String := ""
  /-- Notes, each with its name before an equals sign. -/
  notes : List String := []
  /-- Work items, each with a number and perhaps a title after a colon. -/
  workItems : List String := []
  /-- Whether the work items are resolved by the check-in. -/
  resolve : Bool := false
  overrideReason : Option String := none
  json : Bool := false
  files : List LocalPath
deriving DecidableEq, Repr, Inhabited

inductive Command where
  /-- Sets up a configuration, without questions if `defaults`. -/
  | setup (output : Option LocalPath) (defaults : Bool)
  | validate
  | checkin (options : CheckinOptions)
  | listConflicts (dump : LocalPath) (json : Bool)
  | mergeFiles (base yours theirs : LocalPath) (output : Option LocalPath)
deriving DecidableEq, Repr, Inhabited

/-- A command, and the configuration file if one is named. -/
structure Invocation where
  config : Option LocalPath
  command : Command
deriving DecidableEq, Repr, Inhabited

namespace Invocation

/-- The option that names a configuration file; every command accepts it. -/
def configOption : OptionSpec :=
  { name := "config", short := some 'c', kind := .path }

/-- The command line as a whole. -/
def topLevel : Level :=
  { options := [configOption]
    commands := ["init", "validate", "checkin", "conflicts", "help"]
    tellsVersion := true }

def setupLevel : Level :=
  { topic := ["init"]
    options :=
      [configOption, { name := "output", short := some 'o', kind := .path },
        { name := "defaults", kind := .flag }] }

def validateLevel : Level :=
  { topic := ["validate"], options := [configOption] }

def checkinLevel : Level :=
  { topic := ["checkin"]
    options :=
      [configOption, { name := "snapshot", kind := .path },
        { name := "message", short := some 'm' }, { name := "note", repeats := true },
        { name := "work-item", repeats := true }, { name := "resolve", kind := .flag },
        { name := "override-reason" }, { name := "json", kind := .flag }]
    places := none }

def conflictsLevel : Level :=
  { topic := ["conflicts"], options := [configOption], commands := ["list", "merge", "help"] }

def listLevel : Level :=
  { topic := ["conflicts", "list"]
    options := [configOption, { name := "json", kind := .flag }]
    places := some 1 }

def mergeLevel : Level :=
  { topic := ["conflicts", "merge"]
    options := [configOption, { name := "output", short := some 'o', kind := .path }]
    places := some 3 }

/-- What was given to the commands on the way, the innermost first. -/
abbrev Path := List Given

/-- The configuration file named by the innermost command that names one. -/
def configOf (path : Path) : Option LocalPath :=
  (path.findSome? (·.value? "config")).map LocalPath.ofString

/-- What is given to a command that has no commands inside. -/
def leaf (level : Level) (args : List String) : Except Stop Given :=
  (level.scan {} none false args).map (·.1)

def demand (name : String) : Option α → Except Stop α
  | some value => .ok value
  | none => .error (.usage (.missingArgument name))

/-- The commands inside a command, which is given by the names that lead to it. -/
def commandsInside : (topic : List String) → List String
  | [] => topLevel.commands
  | ["conflicts"] => conflictsLevel.commands
  | _ => []

/-- The topic of a request for help: the names of commands, one inside the other. -/
def helpTopic (topic : List String) : (names : List String) → Except Stop (List String)
  | [] => .ok topic
  | name :: names =>
    if (commandsInside topic).contains name then helpTopic (topic ++ [name]) names
    else .error (.usage (.unknownCommand name))

def stopForHelp (level : Level) (names : List String) : Except Stop α := do
  throw (.help (← helpTopic level.topic names))

def readSetup (path : Path) (args : List String) : Except Stop Invocation := do
  let given ← leaf setupLevel args
  let output := (given.value? "output").map LocalPath.ofString
  return ⟨configOf (given :: path), .setup output (given.has "defaults")⟩

def readValidate (path : Path) (args : List String) : Except Stop Invocation := do
  let given ← leaf validateLevel args
  return ⟨configOf (given :: path), .validate⟩

def readCheckin (path : Path) (args : List String) : Except Stop Invocation := do
  let given ← leaf checkinLevel args
  let snapshot ← demand "--snapshot" (given.value? "snapshot")
  if given.places.isEmpty then throw (.usage (.missingArgument "FILES"))
  return ⟨configOf (given :: path), .checkin
    { snapshot := .ofString snapshot
      message := (given.value? "message").getD ""
      notes := given.values "note"
      workItems := given.values "work-item"
      resolve := given.has "resolve"
      overrideReason := given.value? "override-reason"
      json := given.has "json"
      files := given.places.map LocalPath.ofString }⟩

def readList (path : Path) (args : List String) : Except Stop Invocation := do
  let given ← leaf listLevel args
  let dump ← demand "DUMP" given.places[0]?
  return ⟨configOf (given :: path), .listConflicts (.ofString dump) (given.has "json")⟩

def readMerge (path : Path) (args : List String) : Except Stop Invocation := do
  let given ← leaf mergeLevel args
  let base ← demand "BASE" given.places[0]?
  let yours ← demand "YOURS" given.places[1]?
  let theirs ← demand "THEIRS" given.places[2]?
  let output := (given.value? "output").map LocalPath.ofString
  return ⟨configOf (given :: path), .mergeFiles (.ofString base) (.ofString yours) (.ofString theirs) output⟩

def readConflicts (path : Path) (args : List String) : Except Stop Invocation := do
  match ← conflictsLevel.scan {} none false args with
  | (given, some ("list", rest)) => readList (given :: path) rest
  | (given, some ("merge", rest)) => readMerge (given :: path) rest
  | (_, some (_, rest)) => stopForHelp conflictsLevel rest
  | (_, none) => throw (.usage .missingCommand)

/-- What a command line asks for. -/
def ofArguments (args : List String) : Except Stop Invocation := do
  match ← topLevel.scan {} none false args with
  | (given, some ("init", rest)) => readSetup [given] rest
  | (given, some ("validate", rest)) => readValidate [given] rest
  | (given, some ("checkin", rest)) => readCheckin [given] rest
  | (given, some ("conflicts", rest)) => readConflicts [given] rest
  | (_, some (_, rest)) => stopForHelp topLevel rest
  | (_, none) => throw (.usage .missingCommand)

end Invocation

end Reconcile
