import Reconcile.Checkin.Message
import Reconcile.Json.Printer
import Reconcile.Table
import Reconcile.Text.Display

namespace Reconcile

structure ServerReport where
  server : Server
  /-- The team projects involved, in order of their names. -/
  projects : List ServerPath
  fileCount : Nat
  notes : List CheckinNote
  failures : List PolicyFailure
  policyOverride : Option PolicyOverride
deriving DecidableEq, Repr, Inhabited

/-- What was found out about a check-in, to be written as JSON or in lines. Nothing is decided here;
    whether the check-in is blocked is read off its message. -/
structure CheckinReport where
  servers : List ServerReport
  loadError : Option String
  message : Option ValidationMessage
deriving DecidableEq, Repr, Inhabited

def CheckinAttempt.report (attempt : CheckinAttempt) : CheckinReport :=
  { servers := attempt.servers.map fun (server, data) =>
      { server
        projects := data.projects.map (·.1)
        fileCount := data.files.length
        notes := data.notes
        failures := attempt.failures server
        policyOverride := attempt.policyOverride? server }
    loadError := attempt.loadError
    message := attempt.message? .both }

def Server.toJson (server : Server) : Json :=
  .ofMembers
    [("uri", .ofString server.uri), ("presentable_uri", .ofString server.presentable)]

def CheckinNote.toJson (note : CheckinNote) : Json :=
  .ofMembers
    [("name", .ofString note.name), ("required", .bool note.required),
      ("value", .ofString? note.value)]

def FailureKind.toJson : FailureKind → Json
  | reported => .ofString "reported"
  | notInstalled stateless =>
    .ofMembers [("not_installed", .ofMembers [("stateless", .bool stateless)])]
  | duplicateId => .ofString "duplicate_id"
  | loadFailed => .ofString "load_failed"
  | evaluationFailed => .ofString "evaluation_failed"

def PolicyFailure.toJson (failure : PolicyFailure) : Json :=
  .ofMembers
    [("policy_name", .ofString failure.policyName), ("message", .ofString failure.message),
      ("tooltip", .ofString? failure.tooltip), ("kind", failure.kind.toJson)]

/-- An override: its failures are pairs of a policy name and a message. -/
def PolicyOverride.toJson (policyOverride : PolicyOverride) : Json :=
  let pair := fun (name, message) => Json.array [.ofString name, .ofString message]
  .ofMembers
    [("reason", .ofString policyOverride.reason),
      ("failures", .array (policyOverride.failures.map pair))]

def Severity.name : Severity → String
  | error => "error"
  | warning => "warning"

def ValidationMessage.toJson (message : ValidationMessage) : Json :=
  .ofMembers
    [("text", .ofString message.text), ("severity", .ofString message.severity.name)]

/-- The report on one server. How many files there are is not told. -/
def ServerReport.toJson (report : ServerReport) : Json :=
  .ofMembers
    [("server", report.server.toJson),
      ("team_projects", .array (report.projects.map Json.ofString)),
      ("notes", .array (report.notes.map CheckinNote.toJson)),
      ("failures", .array (report.failures.map PolicyFailure.toJson)),
      ("policy_override", (report.policyOverride.map PolicyOverride.toJson).getD .null)]

def CheckinReport.toJson (report : CheckinReport) : Json :=
  .ofMembers
    [("servers", .array (report.servers.map ServerReport.toJson)),
      ("load_error", .ofString? report.loadError),
      ("message", (report.message.map ValidationMessage.toJson).getD .null)]

def CheckinNote.table (notes : List CheckinNote) : Table :=
  { header := ["Checkin note", "Required", "Value"]
    rows := notes.map fun note => [note.name, Text.yesNo note.required, note.value.getD "—"] }

def PolicyFailure.table (failures : List PolicyFailure) : Table :=
  { header := ["Policy", "Message", "Details"]
    rows := failures.map fun failure =>
      [failure.policyName, failure.message, failure.tooltip.getD ""] }

/-- The lines about one server. Empty tables are left out, and so is an override of nothing. -/
def ServerReport.lines (report : ServerReport) : List String :=
  let listed := ", ".intercalate report.projects
  let overrides := match report.policyOverride with
    | some ⟨reason, failures⟩ =>
      if failures.isEmpty then []
      else [s!"Overriding {failures.length} policy warning(s): {reason}"]
    | none => []
  ["", report.server.presentable, s!"{report.fileCount} file(s) in {listed}"] ++
    (if report.notes.isEmpty then [] else [(CheckinNote.table report.notes).text]) ++
    (if report.failures.isEmpty then [] else [(PolicyFailure.table report.failures).text]) ++
    overrides

def CheckinReport.loadLines (problems : String) : List String :=
  ["", Text.markWarning "Some checkin policies could not be loaded:"] ++
    (Text.lines problems.toList).map fun line => "  " ++ String.ofList (Text.withoutLineEnd line)

/-- The line that says what to do. -/
def CheckinReport.closingLine : Option ValidationMessage → String
  | none => Text.markSuccess "Ready to check in"
  | some ⟨text, .error⟩ => Text.markError text
  | some ⟨text, .warning⟩ => Text.markWarning text

def CheckinReport.lines (report : CheckinReport) : List String :=
  report.servers.flatMap ServerReport.lines ++
    (report.loadError.map loadLines).getD [] ++
    ["", closingLine report.message, ""]

end Reconcile
