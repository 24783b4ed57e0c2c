import Reconcile.Files
import Reconcile.Policy.Compatibility
import Reconcile.Text.Case
import Reconcile.Text.Number
import Reconcile.Workspace

namespace Reconcile

structure WorkspaceSettings where
  name : String
  owner : String := ""
  server : String
  folders : List WorkingFolder := []
deriving DecidableEq, Repr, Inhabited

def WorkspaceSettings.workspace (settings : WorkspaceSettings) : Workspace :=
  { name := settings.name
    owner := settings.owner
    server := .ofUri settings.server
    folders := settings.folders }

/-- The settings of the client: the local workspaces, the compatibility flags that hold unless a
    team project overrides them, and how much is logged. -/
structure Config where
  /-- The least serious kind of event that is logged. -/
  logLevel : String := "info"
  policies : Compatibility := {}
  workspaces : List WorkspaceSettings := []
deriving DecidableEq, Repr, Inhabited

/-- What can be wrong with a configuration or its file. -/
inductive ConfigError where
  | fileNotFound (path : String)
  /-- The file is not the written form of a configuration. -/
  | unreadable (detail : String)
  | invalidValue (field detail : String)
  | files (error : FileError)
deriving DecidableEq, Repr, Inhabited

def ConfigError.message : ConfigError → String
  | fileNotFound path => s!"configuration file not found: {path}"
  | unreadable detail => s!"configuration parse error: {detail}"
  | invalidValue field detail => s!"invalid configuration value for '{field}': {detail}"
  | files error => s!"configuration I/O error: {error.message}"

def levelNames : List String :=
  ["error", "warn", "info", "debug", "trace"]

/-- The number that a text writes in digits, perhaps after a plus sign. -/
def levelNumber? (s : List Char) : Option Nat :=
  let digits := match s with
    | '+' :: digits => digits
    | digits => digits
  if digits ≠ [] ∧ digits.all Char.isDigit then some (Decimal.ofDigits digits) else none

/-- Whether a text stands for a log level: a name in any case, or a number from one to five, with
    blanks around it. -/
def isLogLevel (text : String) : Bool :=
  let level := Text.trimmed text
  (levelNumber? level.toList).any (fun n => 1 ≤ n && n ≤ levelNames.length) ||
    levelNames.any (Text.equalIgnoringCase level)

namespace Config

def allWorkspaces (config : Config) : List Workspace :=
  config.workspaces.map (·.workspace)

/-- What is wrong with a folder: its field and why. -/
def folderProblem? (folder : WorkingFolder) : Option (String × String) :=
  if (Text.after? ServerPath.root folder.serverPath.toList).isNone then
    some ("server_path", "server path must start with '$/'")
  else if folder.localPath.text = "" then
    some ("local_path", "local path must not be empty")
  else none

/-- What is wrong with a workspace in view of the ones before it: its field and why. -/
def workspaceProblem? (earlier : List WorkspaceSettings) (settings : WorkspaceSettings) :
    Option (String × String) :=
  if Text.isBlankText settings.name then some ("name", "workspace name must not be empty")
  else if earlier.any fun other => Text.lower other.name == Text.lower settings.name then
    some ("name", s!"duplicate workspace name '{settings.name}'")
  else if Text.isBlankText settings.server then
    some ("server", "server URI must not be empty")
  else
    settings.folders.zipIdx.findSome? fun (folder, index) =>
      (folderProblem? folder).map fun (field, detail) => (s!"folders[{index}].{field}", detail)

/-- The first thing that is wrong with a configuration: the workspaces come before the log level. -/
def violation? (config : Config) : Option ConfigError :=
  let ofWorkspaces := config.workspaces.zipIdx.findSome? fun (settings, index) =>
    (workspaceProblem? (config.workspaces.take index) settings).map fun (field, detail) =>
      ConfigError.invalidValue s!"workspaces[{index}].{field}" detail
  ofWorkspaces <|>
    if isLogLevel config.logLevel then none
    else some (.invalidValue "logging.level" s!"unknown level '{config.logLevel}'")

def validate (config : Config) : Except ConfigError Unit :=
  match config.violation? with
  | some error => .error error
  | none => .ok ()

end Config

end Reconcile
