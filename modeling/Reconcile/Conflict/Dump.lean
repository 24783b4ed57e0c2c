import Reconcile.Conflict.Document
import Reconcile.Conflict.Registry
import Reconcile.Json.Reader
import Reconcile.Text.Case

namespace Reconcile

structure ConflictGroup where
  workspaceName : String
  conflicts : List Conflict := []
deriving DecidableEq, Repr, Inhabited

def ConflictGroup.ofJson? (value : Json) : Option ConflictGroup := do
  let fields ← value.asRecord? ["workspace", "conflicts"]
  return {
    workspaceName := ← fields.required? "workspace" Json.asString?
    conflicts := ← fields.optional? "conflicts" (Json.asList? Conflict.ofJson?) [] }

/-- The conflicts listed for workspaces, which are known by their names. Names are looked up among
    the configured workspaces without regard to case; a dump that names an unknown workspace is
    refused as a whole. -/
abbrev ConflictDump := List ConflictGroup

namespace ConflictDump

def ofText? (text : String) : Option ConflictDump :=
  (Json.ofText? text).bind (Json.asList? ConflictGroup.ofJson?)

/-- The configured workspace with a name. -/
def workspace? (workspaces : List Workspace) (name : String) : Option Workspace :=
  workspaces.find? fun workspace => Text.equalIgnoringCase workspace.name name

/-- The unresolved conflicts of each group with the workspace of the group, or the first name
    that belongs to no workspace. -/
def locate (workspaces : List Workspace) (dump : ConflictDump) :
    Except String (List (Workspace × List Conflict)) :=
  dump.mapM fun group =>
    match workspace? workspaces group.workspaceName with
    | some workspace => .ok (workspace, Conflict.unresolved group.conflicts)
    | none => .error group.workspaceName

/-- The registry of the unresolved conflicts of a dump, or the first unknown workspace name. -/
def registry (workspaces : List Workspace) (dump : ConflictDump) :
    Except String ConflictRegistry :=
  (dump.locate workspaces).map ConflictRegistry.ofGroups

end ConflictDump

end Reconcile
