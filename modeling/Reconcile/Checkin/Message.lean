import Reconcile.Checkin.Attempt

namespace Reconcile

/-- Which problems a message is to tell about. -/
inductive MessageScope where
  | errors
  | warnings
  | both
deriving DecidableEq, Repr, Inhabited

namespace MessageScope

def includesErrors : MessageScope → Bool
  | errors | both => true
  | warnings => false

def includesWarnings : MessageScope → Bool
  | warnings | both => true
  | errors => false

end MessageScope

inductive Severity where
  | error
  | warning
deriving DecidableEq, Repr, Inhabited

/-- What is told to the user before committing: missing notes are errors, policy failures are
    warnings. The message is an error exactly if it tells about a missing note. -/
structure ValidationMessage where
  text : String
  severity : Severity
deriving DecidableEq, Repr, Inhabited

namespace ValidationMessage

def notesLine : List String → String
  | [name] => s!"Checkin note '{name}' is required to commit"
  | names =>
    let listed := "', '".intercalate names
    s!"Checkin notes '{listed}' are required to commit"

def failuresLine : String := "Checkin policy warnings found"

def notEvaluatedLine : String := "Checkin policies were not evaluated"

/-- What there is to report about one server: its missing notes and its failures, as far as they
    are asked for. -/
structure Report where
  server : Server
  missing : List String
  hasFailures : Bool
deriving DecidableEq, Repr, Inhabited

def Report.isEmpty (report : Report) : Bool :=
  report.missing.isEmpty && !report.hasFailures

/-- The lines of a report, under the name of the server if `headed`. -/
def Report.lines (headed : Bool) (report : Report) : List String :=
  (if headed then [report.server.presentable] else []) ++
    (if report.missing.isEmpty then [] else [notesLine report.missing]) ++
    (if report.hasFailures then [failuresLine] else [])

/-- The reports of the servers that have something to report. Failures are reported only after
    an evaluation. -/
def reports (attempt : CheckinAttempt) (scope : MessageScope) : List Report :=
  let all := attempt.servers.map fun (server, data) =>
    { server
      missing := if scope.includesErrors then data.missing else []
      hasFailures := scope.includesWarnings && attempt.evaluated && !data.recorded.isEmpty }
  all.filter (!·.isEmpty)

/-- Whether the message tells that policies were not evaluated. -/
def tellsNotEvaluated (attempt : CheckinAttempt) (scope : MessageScope) : Bool :=
  scope.includesWarnings && !attempt.evaluated && attempt.evaluates

end ValidationMessage

open ValidationMessage in
/-- The message of an attempt; none if there is nothing to tell. Servers are named if there is
    more than one. -/
def CheckinAttempt.message? (attempt : CheckinAttempt) (scope : MessageScope) :
    Option ValidationMessage :=
  let reports := reports attempt scope
  let headed := attempt.servers.length > 1
  let lines :=
    (if tellsNotEvaluated attempt scope then [notEvaluatedLine] else []) ++
      reports.flatMap (Report.lines headed)
  if lines.isEmpty then none
  else some
    { text := "\n".intercalate lines
      severity := if reports.any (!·.missing.isEmpty) then .error else .warning }

end Reconcile
