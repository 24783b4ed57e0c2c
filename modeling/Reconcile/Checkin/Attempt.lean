import Reconcile.Checkin.Evaluation

namespace Reconcile

structure ServerAttempt where
  notes : List CheckinNote
  /-- The names of missing notes, as of the last validation. -/
  missingNotes : Option (List String) := none
  workItems : WorkItems := .empty
  /-- The failures of the last evaluation that got through this server. -/
  failures : Option (List PolicyFailure) := none
  files : List LocalPath
  serverPaths : List ServerPath
  projects : ProjectTable
deriving DecidableEq, Repr, Inhabited

namespace ServerAttempt

/-- Whether some project of the server honours policy definitions. -/
def evaluates (data : ServerAttempt) : Bool :=
  data.projects.any fun (_, project) => project.compatibility.evaluates

/-- The missing notes; none before the first validation. -/
def missing (data : ServerAttempt) : List String :=
  data.missingNotes.getD []

/-- Whether the last validation found a missing note. -/
def hasMissingNotes (data : ServerAttempt) : Bool :=
  !data.missing.isEmpty

/-- The recorded failures; none before the first evaluation. -/
def recorded (data : ServerAttempt) : List PolicyFailure :=
  data.failures.getD []

/-- What policies see of the server. -/
def context (data : ServerAttempt) (commitMessage : String) : CheckinContext :=
  { files := data.files
    serverPaths := data.serverPaths
    commitMessage
    workItems := data.workItems }

end ServerAttempt

/-- One attempt to check in: the state of every server, and over all of them the commit message,
    whether the policies were evaluated, and the reason for overriding their failures. Failures
    count only once an evaluation of all servers has finished. -/
structure CheckinAttempt where
  /-- The servers involved, in the order of the discovery. -/
  servers : List (Server × ServerAttempt)
  /-- Whether an evaluation of all servers has finished. -/
  evaluated : Bool := false
  /-- The lines about policies that could not be loaded. -/
  loadError : Option String := none
  overrideReason : Option String := none
  commitMessage : String := ""
deriving DecidableEq, Repr, Inhabited

/-- What is recorded to commit in spite of failures. -/
structure PolicyOverride where
  reason : String
  /-- Policy names with their last message, in the order in which the names came first. -/
  failures : List (String × String)
deriving DecidableEq, Repr, Inhabited

namespace CheckinAttempt

/-- The attempt for what was discovered. Its notes are not validated yet. -/
def ofDiscovery (discovery : Discovery) : CheckinAttempt :=
  { servers := discovery.servers.map fun found =>
      (found.server,
        { notes := found.notes
          files := found.files
          serverPaths := found.serverPaths
          projects := found.projects })
    loadError := discovery.loadError }

def server? (attempt : CheckinAttempt) (server : Server) : Option ServerAttempt :=
  attempt.servers.lookup server

/-- Changes the state of a server, if it is involved. -/
def modifyServer (attempt : CheckinAttempt) (server : Server)
    (f : ServerAttempt → ServerAttempt) : CheckinAttempt :=
  { attempt with
    servers := attempt.servers.map fun entry =>
      if entry.1 = server then (entry.1, f entry.2) else entry }

/-- Whether a server is involved and has a note of that name. -/
def hasNote (attempt : CheckinAttempt) (server : Server) (name : String) : Bool :=
  (attempt.server? server).any fun data => data.notes.any (·.name == name)

/-- Writes into a note; a note that is not there stays so. What is missing is found out by the
    next validation. -/
def setNote (attempt : CheckinAttempt) (server : Server) (name value : String) : CheckinAttempt :=
  attempt.modifyServer server fun data =>
    { data with notes := CheckinNote.setFirst name value data.notes }

/-- Finds out for every server which required notes are missing. -/
def validateNotes (attempt : CheckinAttempt) : CheckinAttempt :=
  { attempt with
    servers := attempt.servers.map fun (server, data) =>
      (server, { data with missingNotes := some (CheckinNote.missingNames data.notes) }) }

def hasMissingNotes (attempt : CheckinAttempt) (server : Server) : Bool :=
  (attempt.server? server).any (·.hasMissingNotes)

/-- The missing notes of a server, as of the last validation. -/
def missingNotes (attempt : CheckinAttempt) (server : Server) : List String :=
  ((attempt.server? server).map (·.missing)).getD []

def setWorkItem (attempt : CheckinAttempt) (server : Server) (item : WorkItem)
    (action : WorkItemAction) : CheckinAttempt :=
  attempt.modifyServer server fun data =>
    { data with workItems := data.workItems.set item action }

def removeWorkItem (attempt : CheckinAttempt) (server : Server) (id : Int) : CheckinAttempt :=
  attempt.modifyServer server fun data => { data with workItems := data.workItems.remove id }

/-- Whether some project of some server honours policy definitions. -/
def evaluates (attempt : CheckinAttempt) : Bool :=
  attempt.servers.any fun (_, data) => data.evaluates

/-- Evaluates servers in order. The state of every server comes back, also if the evaluation
    ends early: the servers it got through then have their new failures and the rest their old
    ones. -/
def evaluateServers [Monad m] (registry : PolicyRegistry m) (cancellation : Cancellation m)
    (commitMessage : String) :
    List (Server × ServerAttempt) →
      m (Except CheckinError Unit × List (Server × ServerAttempt))
  | [] => pure (.ok (), [])
  | (server, data) :: servers => do
    let context := data.context commitMessage
    match ← (Evaluation.runServer registry cancellation context data.projects).run with
    | .error error => return (.error error, (server, data) :: servers)
    | .ok failures =>
      let data := { data with failures := some failures }
      let (result, servers) ← evaluateServers registry cancellation commitMessage servers
      return (result, (server, data) :: servers)

/-- Evaluates the policies of all servers. The attempt counts as evaluated once all are through,
    and stays so when a later evaluation is cancelled. -/
def evaluate [Monad m] (registry : PolicyRegistry m) (cancellation : Cancellation m)
    (attempt : CheckinAttempt) : m (Except CheckinError Unit × CheckinAttempt) := do
  let (result, servers) ←
    evaluateServers registry cancellation attempt.commitMessage attempt.servers
  return match result with
    | .ok () => (.ok (), { attempt with servers, evaluated := true })
    | .error error => (.error error, { attempt with servers })

/-- The failures of a server; none until all servers were evaluated. -/
def failures (attempt : CheckinAttempt) (server : Server) : List PolicyFailure :=
  if attempt.evaluated then ((attempt.server? server).map (·.recorded)).getD [] else []

def allFailures (attempt : CheckinAttempt) : List PolicyFailure :=
  if attempt.evaluated then attempt.servers.flatMap fun (_, data) => data.recorded else []

/-- Whether the policies of a server need attention: they are to be evaluated and either were
    not, or failed. -/
def hasPolicyFailures (attempt : CheckinAttempt) (server : Server) : Bool :=
  (attempt.server? server).any fun data =>
    data.evaluates && (!attempt.evaluated || !data.recorded.isEmpty)

/-- Adds a failure to the messages by policy name: a later message takes the place of an earlier
    one with its name. -/
def addMessage (messages : List (String × String)) (failure : PolicyFailure) :
    List (String × String) :=
  if messages.any (·.1 == failure.policyName) then
    messages.map fun entry =>
      if entry.1 = failure.policyName then (entry.1, failure.message) else entry
  else messages ++ [(failure.policyName, failure.message)]

/-- The override to send for a server; none without a reason. -/
def policyOverride? (attempt : CheckinAttempt) (server : Server) : Option PolicyOverride :=
  attempt.overrideReason.map fun reason =>
    { reason
      failures := (((attempt.server? server).map (·.recorded)).getD []).foldl addMessage [] }

/-- A copy for editing. The reason for an override is not taken along. -/
def copy (attempt : CheckinAttempt) : CheckinAttempt :=
  { attempt with overrideReason := none }

end CheckinAttempt

/-- Discovers what a check-in needs and validates its notes, which are still empty. The policies
    are not evaluated yet. -/
def startCheckin [Monad m] (queries : Queries m) (cancellation : Cancellation m)
    (workspaces : List Workspace) (files : List LocalPath) (defaults : Compatibility) :
    ExceptT CheckinError m CheckinAttempt := do
  let discovery ← discover queries cancellation workspaces files defaults
  return (CheckinAttempt.ofDiscovery discovery).validateNotes

end Reconcile
