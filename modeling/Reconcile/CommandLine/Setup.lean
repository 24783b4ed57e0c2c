import Reconcile.CommandLine.Output
import Reconcile.Config.Document
import Reconcile.Table
import Reconcile.Text.Display

namespace Reconcile

/-- The causes of a configuration error. An error of the file system tells its own cause, and
    then the cause is told again. -/
def ConfigError.causes (error : ConfigError) : List String :=
  match error with
  | .files cause => [error.message, cause.message]
  | _ => [error.message]

/-- The causes of a question that could not be asked, because there is no terminal. -/
def noTerminal (question : String) : List String :=
  [s!"failed to read {question}", "IO error: not a terminal", "not a terminal"]

namespace Config

/-- The file of a user's configuration below the folder for settings: the one that is named, if
    its path begins at the root, or else the usual one in the home folder. -/
def defaultPath? (settingsFolder home : Option LocalPath) : Option LocalPath :=
  let named := settingsFolder.filter fun folder => folder.components.head? = some .root
  let usual := (home.filter fun folder : LocalPath => folder.text ≠ "").map (·.push ".config")
  (named <|> usual).map fun folder => (folder.push "tfvc").push "config.toml"

def sample : Config :=
  { workspaces :=
      [{ name := "default"
         server := "http://tfs.example.com:8080/tfs/DefaultCollection"
         folders := [⟨"$/Project", ⟨"project"⟩⟩] }] }

def settingLines (config : Config) : List String :=
  ["Policy compatibility",
    s!"  Team Explorer policies : {Text.yesNo config.policies.teamExplorer}",
    s!"  Teamprise policies     : {Text.yesNo config.policies.teamprise}",
    s!"  Report missing policies: {Text.yesNo config.policies.nonInstalled}",
    s!"  Log level              : {config.logLevel}"]

def workspaceRow (workspace : Workspace) : List String :=
  let folders := workspace.folders.map fun folder =>
    s!"{folder.serverPath} → {folder.localPath.display}"
  [workspace.name, if workspace.owner = "" then "-" else workspace.owner,
    workspace.server.presentable, "\n".intercalate folders]

def workspaceTable (config : Config) : Table :=
  { header := ["Name", "Owner", "Server", "Working folders"]
    rows := config.allWorkspaces.map workspaceRow }

def workspaceLines (config : Config) : List String :=
  if config.workspaces.isEmpty then [Text.markWarning "No workspaces configured"]
  else
    [s!"Workspaces ({config.workspaces.length})", config.workspaceTable.text, "",
      Text.markSuccess "Configuration is valid."]

def lines (config : Config) : List String :=
  config.settingLines ++ [""] ++ config.workspaceLines

end Config

namespace Command

open CommandM

variable {m : Type → Type} [Monad m]

/-- The configuration in a file, for a command that needs a valid one. -/
def loadConfig (files : FileAccess m) (path : LocalPath) : CommandM m Config := do
  let config ← orFail (fun error : ConfigError =>
    "failed to load configuration file" :: error.causes) (← outside (Config.load files path))
  orFail (fun error => "invalid configuration" :: error.causes) config.validate
  return config

/-- Shows a configuration and whether it is valid. -/
def runValidate (files : FileAccess m) (path : LocalPath) : CommandM m ExitCode := do
  showLines [s!"Validating configuration: {path.display}", ""]
  let config ← orFail (fun error : ConfigError =>
    "failed to parse configuration" :: error.causes) (← outside (Config.load files path))
  showLine ("  " ++ Text.markSuccess "TOML structure is valid")
  match config.validate with
  | .error error =>
    showLine ("  " ++ Text.markError s!"Validation error: {error.message}")
    throw ["configuration validation failed"]
  | .ok () =>
    showLines (["  " ++ Text.markSuccess "All fields are valid", ""] ++ config.lines)
    return .success

/-- The lines before the first question of the setup. -/
def setupLines : List String :=
  ["", "=== tfvc Setup Wizard ===", "",
    "This wizard creates the configuration used by `tfvc checkin` and `tfvc conflicts`.", "",
    "1/3  Logging", ""]

/-- The lines after a configuration was written. -/
def nextStepLines (path : LocalPath) : List String :=
  let written := path.display
  ["", Text.markSuccess s!"Configuration written to {written}", "",
    "Next steps:",
    "  1. Review the working folder mappings",
    s!"  2. Validate with: tfvc validate --config {written}",
    s!"  3. Check a change: tfvc checkin --config {written} --snapshot server.json <files>",
    ""]

/-- Sets up a configuration in a file. The questions are asked at a terminal; where there is none,
    only a sample can be written, and never over a file that is there already. -/
def runSetup (files : FileAccess m) (path : LocalPath) (defaults : Bool) :
    CommandM m ExitCode := do
  if ← outside (files.isPresent path) then
    if defaults then
      throw [s!"file already exists: {path.display}. " ++
        "Use a different path or remove the existing file."]
    else throw (noTerminal "confirmation")
  if !defaults then
    showLines setupLines
    throw (noTerminal "log level")
  orFail (fun error => "generated configuration is invalid" :: error.causes)
    Config.sample.validate
  orFail (fun error : ConfigError => "failed to write config file" :: error.causes)
    (← outside (Config.save files path Config.sample))
  showLines (nextStepLines path)
  return .success

end Command

end Reconcile
