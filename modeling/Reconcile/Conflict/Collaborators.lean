import Reconcile.Conflict.Basic
import Reconcile.Conflict.Ledger
import Reconcile.Conflict.ResolveError
import Reconcile.Diff.ThreeWay
import Reconcile.Remote.Basic
import Reconcile.Workspace

namespace Reconcile

/-- The three contents of a file in conflict. -/
structure MergeContents where
  base : ByteArray := .empty
  yours : ByteArray := .empty
  theirs : ByteArray := .empty
deriving DecidableEq, Inhabited

/-- What came of applying operations: the failures, and the files that were touched. -/
structure ApplyReport where
  errors : List ApplyError := []
  touched : List (FileGroup × String) := []
deriving DecidableEq, Repr, Inhabited

/-- Everything that resolving a conflict calls, in a monad `m` that stands for the outside. -/
structure Collaborators (m : Type → Type) where
  /-- The content of an item in a version, if there is one. -/
  download : Workspace → (version itemId : Int) → m (Except RemoteError (Option ByteArray))
  /-- Reports a resolution to the server. -/
  resolve : Workspace → ResolveRequest → m (Except RemoteError ResolveResponse)
  /-- Applies all of some operations to the working copy, with the ledger that the touched files
      go into if there is one. -/
  apply : Workspace → List GetOperation → DownloadMode → Option Ledger → m ApplyReport
  /-- Picks the server path of a renamed item; nothing if the user gave up. -/
  mergeName : Workspace → Conflict → m (Except ResolveError (Option ServerPath))
  /-- Merges the contents into the local file, for which the second path is the new name, and
      says whether nothing is left to do. -/
  mergeContent : Conflict → MergeContents → (file name : LocalPath) →
    m (Except ResolveError Bool)
  files : FileAccess m
  cancellation : Cancellation m

/-- A call to the outside together with its answer. -/
inductive Event where
  | cancelled (answer : Bool)
  | download (workspace : Workspace) (version itemId : Int)
      (answer : Except RemoteError (Option ByteArray))
  | resolve (workspace : Workspace) (request : ResolveRequest)
      (answer : Except RemoteError ResolveResponse)
  | apply (workspace : Workspace) (operations : List GetOperation) (mode : DownloadMode)
      (ledger : Option Ledger) (answer : ApplyReport)
  | mergeName (workspace : Workspace) (conflict : Conflict)
      (answer : Except ResolveError (Option ServerPath))
  | mergeContent (conflict : Conflict) (contents : MergeContents) (file name : LocalPath)
      (answer : Except ResolveError Bool)
  | isPresent (path : LocalPath) (answer : Bool)
  | isFile (path : LocalPath) (answer : Bool)
  | read (path : LocalPath) (answer : Except FileError ByteArray)
  | write (path : LocalPath) (content : ByteArray) (answer : Except FileError Unit)
  | makeWritable (path : LocalPath) (answer : Except FileError Unit)
  | createFolders (path : LocalPath) (answer : Except FileError Unit)

/-- An action on a world that leaves a record of what it asked. -/
def Recorder (σ α : Type) : Type :=
  σ → α × List Event × σ

namespace Recorder

instance {σ : Type} : Monad (Recorder σ) where
  pure a := fun world => (a, [], world)
  bind action next := fun world =>
    let (a, events, world) := action world
    let (b, more, world) := next a world
    (b, events ++ more, world)

/-- A single call, recorded with its answer. -/
def ask {σ α : Type} (action : StateM σ α) (event : α → Event) : Recorder σ α := fun world =>
  let (answer, world) := action.run world
  (answer, [event answer], world)

end Recorder

/-- The same collaborators with a record of the calls made to them. -/
def Collaborators.recorded {σ : Type} (outside : Collaborators (StateM σ)) :
    Collaborators (Recorder σ) where
  download workspace version itemId :=
    .ask (outside.download workspace version itemId) (.download workspace version itemId)
  resolve workspace request := .ask (outside.resolve workspace request) (.resolve workspace request)
  apply workspace operations mode ledger :=
    .ask (outside.apply workspace operations mode ledger) (.apply workspace operations mode ledger)
  mergeName workspace conflict :=
    .ask (outside.mergeName workspace conflict) (.mergeName workspace conflict)
  mergeContent conflict contents file name :=
    .ask (outside.mergeContent conflict contents file name) (.mergeContent conflict contents file name)
  files :=
    { isPresent := fun path => .ask (outside.files.isPresent path) (.isPresent path)
      isFile := fun path => .ask (outside.files.isFile path) (.isFile path)
      read := fun path => .ask (outside.files.read path) (.read path)
      write := fun path content => .ask (outside.files.write path content) (.write path content)
      makeWritable := fun path => .ask (outside.files.makeWritable path) (.makeWritable path)
      createFolders := fun path => .ask (outside.files.createFolders path) (.createFolders path) }
  cancellation := ⟨.ask outside.cancellation.isCancelled .cancelled⟩

/-- The three contents as texts, if all of them are. -/
def MergeContents.texts? (contents : MergeContents) : Option (String × String × String) := do
  let base ← String.fromUTF8? contents.base
  let yours ← String.fromUTF8? contents.yours
  let theirs ← String.fromUTF8? contents.theirs
  return (base, yours, theirs)

/-- Merges contents into the local file with a merge of texts. Says whether nothing is left to
    do. -/
def mergeIntoFile [Monad m] (merge : (base yours theirs : String) → MergedText)
    (files : FileAccess m) (contents : MergeContents) (file : LocalPath) :
    m (Except ResolveError Bool) :=
  match contents.texts? with
  | none => pure (.ok false)
  | some (base, yours, theirs) => do
    let merged := merge base yours theirs
    match ← files.writeText file merged.text with
    | .ok () => pure (.ok (!merged.hasConflicts))
    | .error error => pure (.error (.files error))

/-- The content merger that merges line by line. -/
def threeWayContentMerger [Monad m] (files : FileAccess m) (_conflict : Conflict)
    (contents : MergeContents) (file _name : LocalPath) : m (Except ResolveError Bool) :=
  mergeIntoFile MergedText.merge files contents file

end Reconcile
