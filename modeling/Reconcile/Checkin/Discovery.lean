import Reconcile.Checkin.Note
import Reconcile.Policy.Descriptor
import Reconcile.Remote.Basic
import Reconcile.Workspace

namespace Reconcile

/-- Why the validation of a check-in ends without a result. -/
inductive CheckinError where
  /-- No file is covered by a workspace. -/
  | noMappings
  /-- A query failed that cannot be done without. -/
  | remote (error : RemoteError)
  | cancelled
deriving DecidableEq, Repr, Inhabited

def CheckinError.message : CheckinError → String
  | noMappings => "Team Foundation Server mappings not found."
  | remote error => s!"check-in validation failed: {error.message}"
  | cancelled => "Validation cancelled by user"

/-- A failed server call as an error of the check-in; a cancelled call stays a cancellation. -/
def CheckinError.ofRemote : RemoteError → CheckinError
  | .cancelled => .cancelled
  | error => .remote error

/-- The policies in force for a team project. -/
structure ProjectPolicies where
  compatibility : Compatibility
  /-- The enabled descriptors, stateless ones first. -/
  policies : List PolicyDescriptor := []
deriving DecidableEq, Repr, Inhabited

/-- The team projects of a server, in order of their names. -/
abbrev ProjectTable := List (ServerPath × ProjectPolicies)

/-- Changes the entry of a project, if there is one. -/
def ProjectTable.modify (table : ProjectTable) (project : ServerPath)
    (f : ProjectPolicies → ProjectPolicies) : ProjectTable :=
  table.map fun entry => if entry.1 = project then (entry.1, f entry.2) else entry

structure DiscoveredServer where
  server : Server
  notes : List CheckinNote
  files : List LocalPath
  /-- The server path of each file. -/
  serverPaths : List ServerPath
  projects : ProjectTable
deriving DecidableEq, Repr, Inhabited

structure Discovery where
  /-- The servers, by presentable address. -/
  servers : List DiscoveredServer
  /-- The problems met while loading policies, one line for each server that had one. -/
  loadError : Option String
deriving DecidableEq, Repr, Inhabited

namespace Discovery

structure ServerFiles where
  server : Server
  files : List MappedFile
deriving DecidableEq, Repr, Inhabited

/-- The names of the team projects that files belong to, in order and without repetition. -/
def ServerFiles.projects (group : ServerFiles) : List ServerPath :=
  Sorted.ofList (fun a b => decide (a < b)) (group.files.map (ServerPath.project ·.serverPath))

/-- The files of each server, in the order in which the servers are visited. The files of a
    server come workspace by workspace. -/
def serverFiles (workspaces : List Workspace) (files : List LocalPath) : List ServerFiles :=
  let owned := (Workspace.partition workspaces files).filterMap fun (index, items) =>
    workspaces[index]?.map fun workspace => (workspace.server, items)
  let servers := Sorted.ofList Server.before (owned.map (·.1))
  servers.map fun server => ⟨server, ((owned.filter (·.1 == server)).map (·.2)).flatten⟩

/-- A problem met while loading the policies of a server. -/
inductive LoadProblem where
  | remote (error : RemoteError)
  | unreadable (error : AnnotationError)
deriving DecidableEq, Repr, Inhabited

def LoadProblem.message : LoadProblem → String
  | remote error => error.message
  | unreadable error => error.message

/-- Loading a server's policies: what was loaded before a problem stays in the table. -/
abbrev LoadM (m : Type → Type) := ExceptT LoadProblem (StateT ProjectTable m)

/-- The annotations of a kind that have a value, each with the team project of its item. The
    projects are queried one after the other. -/
def annotationValues [Monad m] (queries : Queries m) (server : Server) (kind : AnnotationKind) :
    List ServerPath → LoadM m (List (ServerPath × String))
  | [] => pure []
  | project :: projects => do
    match ← queries.annotations server kind project with
    | .error error => throw (.remote error)
    | .ok annotations =>
      let values := annotations.filterMap fun entry =>
        entry.value.map fun value => (entry.item.project, value)
      return values ++ (← annotationValues queries server kind projects)

/-- What was read from an annotation, or a stop with the problem that reading it had. -/
def orUnreadable [Monad m] (result : Except AnnotationError α) : LoadM m α :=
  match result with
  | .ok a => pure a
  | .error error => throw (.unreadable error)

/-- Puts the flags of override annotations in force. An annotation of a project that is not in
    the table is passed over unread. The answer says whether any flags honour stateless
    definitions, and whether any honour stateful ones; `found` is what is known before. -/
def applyOverrides [Monad m] (found : Bool × Bool) :
    List (ServerPath × String) → LoadM m (Bool × Bool)
  | [] => pure found
  | (project, value) :: values => do
    if ((← get).lookup project).isNone then applyOverrides found values
    else
      let flags ← orUnreadable (Compatibility.ofAnnotation value)
      modify (ProjectTable.modify · project fun data => { data with compatibility := flags })
      applyOverrides (found.1 || flags.teamExplorer, found.2 || flags.teamprise) values

/-- Adds the enabled descriptors of policy annotations. An annotation of a project that is not
    in the table, or whose flags do not honour its kind, is passed over unread. -/
def addDescriptors [Monad m] (honours : Compatibility → Bool)
    (read : String → Except AnnotationError (List PolicyDescriptor)) :
    List (ServerPath × String) → LoadM m Unit
  | [] => pure ()
  | (project, value) :: values => do
    match (← get).lookup project with
    | none => pure ()
    | some data =>
      if honours data.compatibility then
        let descriptors ← orUnreadable (read value)
        let enabled := descriptors.filter (·.enabled)
        modify (ProjectTable.modify · project fun data =>
          { data with policies := data.policies ++ enabled })
    addDescriptors honours read values

/-- Loads the policies of a server into the table: first the overrides, then the definitions of
    each kind that some project honours, stateless ones first. -/
def loadPolicies [Monad m] (queries : Queries m) (server : Server) (projects : List ServerPath)
    (defaults : Compatibility) : LoadM m Unit := do
  let overrides ← annotationValues queries server .overrides projects
  let (stateless, stateful) ← applyOverrides (defaults.teamExplorer, defaults.teamprise) overrides
  if stateless then
    let values ← annotationValues queries server .statelessPolicies projects
    addDescriptors (·.teamExplorer) PolicyDescriptor.ofStatelessAnnotation values
  if stateful then
    let values ← annotationValues queries server .statefulPolicies projects
    addDescriptors (·.teamprise) PolicyDescriptor.ofStatefulAnnotation values

/-- Discovers one server. The second part of the answer is the line about policies that could
    not be loaded. -/
def discoverServer [Monad m] (queries : Queries m) (cancellation : Cancellation m)
    (defaults : Compatibility) (group : ServerFiles) :
    ExceptT CheckinError m (DiscoveredServer × Option String) := do
  let projects := group.projects
  let definitions ← match ← queries.noteDefinitions group.server projects with
    | .ok definitions => pure definitions
    | .error error => throw (.ofRemote error)
  cancellation.check .cancelled
  let table : ProjectTable := projects.map fun project => (project, { compatibility := defaults })
  let (result, table) ← (loadPolicies queries group.server projects defaults).run.run table
  let problem ← match result with
    | .ok () => pure none
    | .error (.remote .cancelled) => throw .cancelled
    | .error problem => pure (some s!"{group.server.presentable}: {problem.message}")
  cancellation.check .cancelled
  let discovered := {
    server := group.server
    notes := CheckinNote.ofDefinitions definitions
    files := group.files.map (·.localPath)
    serverPaths := group.files.map (·.serverPath)
    projects := table }
  return (discovered, problem)

def discoverServers [Monad m] (queries : Queries m) (cancellation : Cancellation m)
    (defaults : Compatibility) :
    List ServerFiles → ExceptT CheckinError m (List (DiscoveredServer × Option String))
  | [] => pure []
  | group :: groups => do
    let discovered ← discoverServer queries cancellation defaults group
    return discovered :: (← discoverServers queries cancellation defaults groups)

def ofServers (discovered : List (DiscoveredServer × Option String)) : Discovery :=
  let problems := discovered.filterMap (·.2)
  { servers := discovered.map (·.1)
    loadError := if problems.isEmpty then none else some ("\n".intercalate problems) }

end Discovery

/-- Discovers notes and policies for the files of a check-in, from the servers that own them. A
    server that does not give its note fields ends the discovery; one whose policies cannot be
    loaded is only noted, and keeps what was loaded before the problem. Files outside every
    workspace are ignored; if no file is left, no server is asked at all. -/
def discover [Monad m] (queries : Queries m) (cancellation : Cancellation m)
    (workspaces : List Workspace) (files : List LocalPath) (defaults : Compatibility) :
    ExceptT CheckinError m Discovery := do
  let groups := Discovery.serverFiles workspaces files
  if groups.isEmpty then throw .noMappings
  cancellation.check .cancelled
  let discovered ← Discovery.discoverServers queries cancellation defaults groups
  return Discovery.ofServers discovered

end Reconcile
