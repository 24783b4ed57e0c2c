import Reconcile.Config
import Reconcile.Toml
import Reconcile.Toml.Printer
import Reconcile.Toml.Reader

namespace Reconcile

def WorkingFolder.ofToml? (value : Toml) : Option WorkingFolder := do
  let fields ← value.asRecord? ["server_path", "local_path"]
  return {
    serverPath := ← fields.required? "server_path" Toml.asString?
    localPath := .ofString (← fields.required? "local_path" Toml.asString?) }

def WorkspaceSettings.ofToml? (value : Toml) : Option WorkspaceSettings := do
  let fields ← value.asRecord? ["name", "owner", "server", "folders"]
  return {
    name := ← fields.required? "name" Toml.asString?
    owner := ← fields.optional? "owner" Toml.asString? ""
    server := ← fields.required? "server" Toml.asString?
    folders := ← fields.optional? "folders" (Toml.asList? WorkingFolder.ofToml?) [] }

def Compatibility.ofToml? (value : Toml) : Option Compatibility := do
  let fields ← value.asRecord? ["team_explorer", "teamprise", "non_installed"]
  return {
    teamExplorer := ← fields.optional? "team_explorer" Toml.asBool? true
    teamprise := ← fields.optional? "teamprise" Toml.asBool? true
    nonInstalled := ← fields.optional? "non_installed" Toml.asBool? false }

namespace Config

def logLevelOfToml? (value : Toml) : Option String := do
  let fields ← value.asRecord? ["level"]
  fields.optional? "level" Toml.asString? "info"

/-- The configuration that a text writes, as a TOML document. Everything but the names and servers
    of workspaces and the two paths of a folder may be left out. -/
def ofText? (text : String) : Option Config := do
  let fields : Toml.Fields ← Toml.ofText? text
  return {
    logLevel := ← fields.optional? "logging" logLevelOfToml? "info"
    policies := ← fields.optional? "policies" Compatibility.ofToml? {}
    workspaces := ← fields.optional? "workspaces" (Toml.asList? WorkspaceSettings.ofToml?) [] }

def textLine (key value : String) : String :=
  s!"{key} = {Toml.quote value}\n"

def flagLine (key : String) (value : Bool) : String :=
  s!"{key} = {value}\n"

/-- The table of a folder, unless its local path is no text. -/
def folderTable? (folder : WorkingFolder) : Option String :=
  folder.localPath.text.toString?.map fun path =>
    "[[workspaces.folders]]\n" ++ textLine "server_path" folder.serverPath ++
      textLine "local_path" path

/-- The tables of a workspace: its own, and one for each folder. -/
def workspaceTables? (settings : WorkspaceSettings) : Option (List String) :=
  (settings.folders.mapM folderTable?).map fun folders =>
    ("[[workspaces]]\n" ++ textLine "name" settings.name ++ textLine "owner" settings.owner ++
        textLine "server" settings.server ++
        (if settings.folders.isEmpty then "folders = []\n" else "")) ::
      folders

/-- The parts of a written configuration: first the keys that stand in no table, then the tables. -/
def parts? (config : Config) : Option (List String) :=
  (config.workspaces.mapM workspaceTables?).map fun tables =>
    (if config.workspaces.isEmpty then ["workspaces = []\n"] else []) ++
      ["[logging]\n" ++ textLine "level" config.logLevel,
        "[policies]\n" ++ flagLine "team_explorer" config.policies.teamExplorer ++
          flagLine "teamprise" config.policies.teamprise ++
          flagLine "non_installed" config.policies.nonInstalled] ++
      tables.flatten

/-- The written form of a configuration, with a blank line between its parts. A local path that is
    no text cannot be written. -/
def written (config : Config) : Except ConfigError String :=
  match config.parts? with
  | some parts => .ok ("\n".intercalate parts)
  | none => .error (.unreadable "path contains invalid UTF-8 characters")

/-- The configuration in a file. It is not validated. -/
def load [Monad m] (files : FileAccess m) (path : LocalPath) : m (Except ConfigError Config) := do
  if ← files.isPresent path then
    match ← files.readText path with
    | .error error => return .error (.files error)
    | .ok text =>
      match ofText? text with
      | some config => return .ok config
      | none => return .error (.unreadable "not the written form of a configuration")
  else return .error (.fileNotFound path.display)

/-- Writes a configuration into a file, and creates the folders above it. -/
def save [Monad m] (files : FileAccess m) (path : LocalPath) (config : Config) :
    m (Except ConfigError Unit) := do
  let created ← match path.parent? with
    | some folder => files.createFolders folder
    | none => pure (.ok ())
  match created with
  | .error error => return .error (.files error)
  | .ok () =>
    match config.written with
    | .error error => return .error error
    | .ok text => return (← files.writeText path text).mapError .files

end Config

end Reconcile
