import Reconcile.Checkin.Report
import Reconcile.CommandLine.Command
import Reconcile.CommandLine.Output
import Reconcile.Config
import Reconcile.Glob
import Reconcile.Policy.Builtin
import Reconcile.Remote.Document
import Reconcile.Text.Number

namespace Reconcile

/-- Why an argument is neither a note nor a work item. -/
inductive CheckinArgumentError where
  | noteWithoutValue (argument : String)
  | noteWithoutName (argument : String)
  | notWorkItem (argument : String) (problem : Text.IntegerError)
deriving DecidableEq, Repr, Inhabited

def CheckinArgumentError.causes : CheckinArgumentError → List String
  | noteWithoutValue argument => [s!"invalid note '{argument}': expected NAME=VALUE"]
  | noteWithoutName argument => [s!"invalid note '{argument}': empty name"]
  | notWorkItem argument problem =>
    [s!"invalid work item '{argument}': expected ID[:TITLE]", problem.message]

namespace CheckinOptions

/-- The name and value of a note, which stand on both sides of the first equals sign. -/
def readNote (argument : String) : Except CheckinArgumentError (String × String) :=
  match Text.cutAt? '=' argument with
  | none => .error (.noteWithoutValue argument)
  | some (name, value) =>
    if Text.isBlankText name then .error (.noteWithoutName argument)
    else .ok (Text.trimmed name, value)

/-- The work item of an argument: its number stands before the first colon, its title after it. -/
def readWorkItem (argument : String) : Except CheckinArgumentError WorkItem :=
  let (number, title) := (Text.cutAt? ':' argument).getD (argument, "")
  match Text.readInt32 (Text.trim number.toList) with
  | .error problem => .error (.notWorkItem argument problem)
  | .ok id => .ok ⟨id, Text.trimmed title⟩

def action (options : CheckinOptions) : WorkItemAction :=
  if options.resolve then .resolve else .associate

end CheckinOptions

namespace CheckinAttempt

def declaresNote (attempt : CheckinAttempt) (name : String) : Bool :=
  attempt.servers.any fun (_, data) => data.notes.any (·.name == name)

def setNoteEverywhere (attempt : CheckinAttempt) (name value : String) : CheckinAttempt :=
  { attempt with
    servers := attempt.servers.map fun (server, data) =>
      (server, { data with notes := CheckinNote.setFirst name value data.notes }) }

/-- Writes values into notes, one after the other. -/
def fillNotes (attempt : CheckinAttempt) (values : List (String × String)) : CheckinAttempt :=
  values.foldl (fun attempt (name, value) => attempt.setNoteEverywhere name value) attempt

def selectEverywhere (attempt : CheckinAttempt) (items : List WorkItem)
    (action : WorkItemAction) : CheckinAttempt :=
  { attempt with
    servers := attempt.servers.map fun (server, data) =>
      let selected := items.foldl (fun chosen item => chosen.set item action) data.workItems
      (server, { data with workItems := selected }) }

/-- An attempt ready for the evaluation of its policies: with notes, which are validated, a
    commit message and work items. -/
def prepared (attempt : CheckinAttempt) (notes : List (String × String))
    (commitMessage : String) (items : List WorkItem) (action : WorkItemAction) :
    CheckinAttempt :=
  { (attempt.fillNotes notes).validateNotes.selectEverywhere items action with commitMessage }

end CheckinAttempt

/-- Whether a message keeps a check-in from being committed. -/
def ValidationMessage.blocks (message : ValidationMessage) : Bool :=
  message.severity == .error

/-- Whether the check-in may not be committed. -/
def CheckinReport.isBlocked (report : CheckinReport) : Bool :=
  report.message.any (·.blocks)

namespace Command

open CommandM

variable {m : Type → Type} [Monad m]

/-- The line for a note that nobody asked for. -/
def undeclaredNote (name : String) : String :=
  Text.markWarning s!"No server declares checkin note '{name}'"

/-- What the recorded servers ask for, as an attempt with empty notes. -/
def discoverCheckin (config : Config) (snapshot : Snapshot) (files : List LocalPath) :
    Except CheckinError CheckinAttempt :=
  Id.run (startCheckin snapshot.queries .never config.allWorkspaces files config.policies).run

/-- The evaluation of an attempt by the policies that are always installed. -/
def evaluateCheckin (attempt : CheckinAttempt) : Except CheckinError CheckinAttempt :=
  let (result, evaluated) := Id.run (attempt.evaluate (.builtins Glob.fits .never) .never)
  result.map fun () => evaluated

/-- Takes a pending check-in up to the point of committing: discovers what the recorded servers ask
    for, fills in the notes and work items that were given, evaluates the installed policies and
    reports. The check-in is blocked exactly if the message about it is an error. -/
def runCheckin (files : FileAccess m) (config : Config) (options : CheckinOptions) :
    CommandM m ExitCode := do
  let snapshot ← orFail (fun error : RemoteError =>
    ["failed to load server snapshot", error.message])
    (← outside (Snapshot.load files options.snapshot))
  let notes ← orFail CheckinArgumentError.causes (options.notes.mapM CheckinOptions.readNote)
  let items ← orFail CheckinArgumentError.causes
    (options.workItems.mapM CheckinOptions.readWorkItem)
  let attempt ← orFail (fun error : CheckinError =>
    ["failed to load checkin notes and policies", error.message])
    (discoverCheckin config snapshot options.files)
  for (name, _) in notes do
    if !attempt.declaresNote name then warnLine (undeclaredNote name)
  let prepared := attempt.prepared notes options.message items options.action
  let evaluated ← orFail (fun error : CheckinError =>
    ["failed to evaluate checkin policies", error.message]) (evaluateCheckin prepared)
  let report := { evaluated with overrideReason := options.overrideReason }.report
  if options.json then showLine report.toJson.pretty
  else showLines report.lines
  return if report.isBlocked then .failure else .success

end Command

end Reconcile
