import Reconcile.Remote.Basic
import Reconcile.Text.Case

namespace Reconcile

/-- A recorded note field, for one team project or, without one, for all of them. -/
structure RecordedNote where
  project : Option ServerPath
  definition : NoteDefinition
deriving DecidableEq, Repr, Inhabited

structure RecordedAnnotation where
  kind : AnnotationKind
  content : Annotation
deriving DecidableEq, Repr, Inhabited

structure ServerRecord where
  notes : List RecordedNote := []
  annotations : List RecordedAnnotation := []
deriving DecidableEq, Repr, Inhabited

/-- What is recorded of a number of servers about notes and annotations, each under its address, so
    that a check-in can be validated without reaching them. An address occurs once. -/
structure Snapshot where
  servers : List (String × ServerRecord) := []
deriving DecidableEq, Repr, Inhabited

namespace Snapshot

/-- The record of a server, which is found by its address or else by its presentable form. -/
def record (snapshot : Snapshot) (server : Server) : Except RemoteError ServerRecord :=
  match snapshot.servers.lookup server.uri <|> snapshot.servers.lookup server.presentable with
  | some record => .ok record
  | none => .error (.transport server.presentable "server not present in snapshot")

/-- The note fields that hold for all projects or for one of `projects`, whose names are
    compared without regard to case. -/
def noteDefinitions (snapshot : Snapshot) (server : Server) (projects : List ServerPath) :
    Except RemoteError (List NoteDefinition) := do
  let record ← snapshot.record server
  let applies (note : RecordedNote) : Bool :=
    note.project.all fun project => projects.any (Text.equalIgnoringCase · project)
  return (record.notes.filter applies).map (·.definition)

/-- The annotations of a kind on `project` and on items below it. -/
def annotations (snapshot : Snapshot) (server : Server) (kind : AnnotationKind)
    (project : ServerPath) : Except RemoteError (List Annotation) := do
  let record ← snapshot.record server
  let applies (recorded : RecordedAnnotation) : Bool :=
    recorded.kind == kind && recorded.content.item.isUnder project
  return (record.annotations.filter applies).map (·.content)

/-- The answer of a snapshot to the report of a resolution. -/
def resolveError : RemoteError :=
  .unsupported "conflict resolution needs a live server"

/-- The answer of a snapshot when it is asked for a content. -/
def downloadError : RemoteError :=
  .unsupported "content download needs a live server"

/-- The queries of a snapshot, in any monad. -/
def queries [Pure m] (snapshot : Snapshot) : Queries m where
  noteDefinitions server projects := pure (snapshot.noteDefinitions server projects)
  annotations server kind project := pure (snapshot.annotations server kind project)

end Snapshot

end Reconcile
