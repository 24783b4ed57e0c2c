import Reconcile.Conflict.Collaborators
import Reconcile.Conflict.Registry

namespace Reconcile

/-- What became of a conflict. -/
inductive Outcome where
  /-- It is reported and gone from the registry. -/
  | resolved
  /-- The merge of the contents left something to do. -/
  | mergeIncomplete
  /-- The user gave up merging the names. -/
  | nameMergeCancelled
  /-- It was left for later. -/
  | skipped
deriving DecidableEq, Repr, Inhabited

/-- What the resolution of conflicts works on. -/
structure Session where
  registry : ConflictRegistry := {}
  /-- The report of touched files, if one is kept. -/
  ledger : Option Ledger := none
deriving DecidableEq, Repr, Inhabited

/-- Adds a file to the ledger, if there is one. -/
def Session.note (session : Session) (group : FileGroup) (path : String) : Session :=
  { session with ledger := session.ledger.map (·.add group path) }

/-- A step of resolving conflicts. A failure keeps what was done before it. -/
abbrev ResolveM (m : Type → Type) := ExceptT ResolveError (StateT Session m)

namespace ResolveM

variable {m : Type → Type} [Monad m]

/-- A call to the outside. -/
def call (action : m α) : ResolveM m α :=
  ExceptT.lift (StateT.lift action)

/-- A call to the outside that may fail, with its error made one of the resolution. -/
def attempt (toError : ε → ResolveError) (action : m (Except ε α)) : ResolveM m α := do
  match ← call action with
  | .ok a => pure a
  | .error error => throw (toError error)

/-- Fails once the operation has been cancelled. -/
def checkCancelled (outside : Collaborators m) : ResolveM m Unit := do
  if ← call outside.cancellation.isCancelled then throw .cancelled

def owner (conflict : Conflict) : ResolveM m Workspace := do
  match (← get).registry.workspaceOf? conflict.id with
  | some workspace => pure workspace
  | none => throw (.unknownConflict conflict.id)

/-- The content of an item in a version; an item without content counts as empty. -/
def download (outside : Collaborators m) (workspace : Workspace) (path : LocalPath)
    (version itemId : Int) : ResolveM m ByteArray := do
  checkCancelled outside
  let content ← attempt (ResolveError.ofDownload path) (outside.download workspace version itemId)
  pure (content.getD .empty)

/-- The content of the local file; a missing file counts as empty. -/
def localContent (outside : Collaborators m) (path : LocalPath) : ResolveM m ByteArray := do
  match ← call (outside.files.read path) with
  | .ok content => pure content
  | .error .notFound => pure .empty
  | .error error => throw (.files error)

/-- Yours and theirs: for a merge both come from the server, otherwise yours is the local file. -/
def bothSides (outside : Collaborators m) (workspace : Workspace) (conflict : Conflict)
    (path : LocalPath) : ResolveM m (ByteArray × ByteArray) :=
  if conflict.conflictType = .merge then do
    let yours ← download outside workspace path conflict.targetVersion conflict.targetItemId
    let theirs ← download outside workspace path conflict.yourVersion conflict.yourItemId
    pure (yours, theirs)
  else do
    let yours ← localContent outside path
    let theirs ← download outside workspace path conflict.targetVersion conflict.targetItemId
    pure (yours, theirs)

/-- The contents to merge. They are needed if the contents of a file are in conflict. -/
def contents (outside : Collaborators m) (workspace : Workspace) (conflict : Conflict)
    (path : LocalPath) : ResolveM m MergeContents :=
  if conflict.isContentConflict ∧ conflict.itemType = .file then do
    let (yours, theirs) ← bothSides outside workspace conflict path
    let base ← download outside workspace path conflict.baseVersion conflict.baseItemId
    checkCancelled outside
    pure { base, yours, theirs }
  else pure {}

/-- The local path that the item is going to have; nothing if the user gave up merging names. -/
def mergedPath (outside : Collaborators m) (workspace : Workspace) (conflict : Conflict)
    (path : LocalPath) : ResolveM m (Option LocalPath) :=
  if conflict.isNameConflict then do
    match ← attempt id (outside.mergeName workspace conflict) with
    | none => pure none
    | some merged =>
      match workspace.toLocal? merged with
      | some path => pure (some path)
      | none => throw (.unmappedServerPath merged workspace.name)
  else pure (some ((conflict.targetOrSource.map LocalPath.ofWire).getD path))

/-- Merges the contents into the local file, which has to be there. Says whether nothing is left
    to do; where contents are not in conflict there is nothing to do. -/
def mergeContents (outside : Collaborators m) (conflict : Conflict) (contents : MergeContents)
    (path name : LocalPath) : ResolveM m Bool :=
  if conflict.isContentConflict then
    if conflict.itemType ≠ .file then throw (.notAFile conflict.id)
    else do
      if ← call (outside.files.isFile path) then
        attempt .files (outside.files.makeWritable path)
        attempt id (outside.mergeContent conflict contents path name)
      else throw (.missingFile path.display)
  else pure true

/-- Applies operations, unless there are none, and adds the touched files to the ledger that was
    handed along. -/
def applyBatch (outside : Collaborators m) (workspace : Workspace) (resolution : Resolution)
    (mode : DownloadMode) (operations : List GetOperation) : ResolveM m (List ApplyError) :=
  if operations = [] then pure []
  else if resolution = .acceptMerge then do
    let report ← call (outside.apply workspace operations mode none)
    pure report.errors
  else do
    let report ← call (outside.apply workspace operations mode (← get).ledger)
    modify fun session => report.touched.foldl (fun session entry =>
      session.note entry.1 entry.2) session
    pure report.errors

/-- How operations are applied for a resolution: taking theirs overwrites local changes. -/
def downloadMode (resolution : Resolution) : DownloadMode :=
  if resolution = .acceptTheirs then .force else .merge

/-- Reports a resolution and applies what the server asks for: everything is applied even if some
    of it fails. Then the conflict leaves the registry. -/
def report (outside : Collaborators m) (workspace : Workspace) (conflict : Conflict)
    (resolution : Resolution) (path : LocalPath) (sendsPath : Bool) : ResolveM m Unit := do
  checkCancelled outside
  let response ← attempt ResolveError.ofRemote <| outside.resolve workspace
    { conflictId := conflict.id, resolution
      newPath := if sendsPath then some path.toWire else none }
  let getErrors ← applyBatch outside workspace resolution (downloadMode resolution)
    response.getOperations
  let undoErrors ← applyBatch outside workspace resolution .force response.undoOperations
  match ResolveError.ofApplyErrors (getErrors ++ undoErrors) with
  | some error => throw error
  | none =>
    modify fun session =>
      let session := if resolution = .acceptMerge then session.note .merged path.display else session
      { session with registry := session.registry.remove conflict.id }

/-- Adds the item of a conflict to the ledger as left alone. -/
def noteSkipped (conflict : Conflict) : ResolveM m Unit :=
  modify fun session =>
    match conflict.sourceOrTarget with
    | some item => session.note .skipped (LocalPath.ofWire item).display
    | none => session

/-- Merges names and contents where they are in conflict and reports the merge. -/
def acceptMerge (outside : Collaborators m) (conflict : Conflict) : ResolveM m Outcome :=
  if !conflict.isMergeable then throw (.notMergeable conflict.id)
  else do
    let workspace ← owner conflict
    match conflict.sourceOrTarget.map LocalPath.ofWire with
    | none => throw (.notMergeable conflict.id)
    | some path =>
      let contents ← contents outside workspace conflict path
      match ← mergedPath outside workspace conflict path with
      | none => pure .nameMergeCancelled
      | some name =>
        if ← mergeContents outside conflict contents path name then
          report outside workspace conflict .acceptMerge name conflict.isNameConflict
          pure .resolved
        else pure .mergeIncomplete

/-- Keeps the local version. -/
def acceptYours (outside : Collaborators m) (conflict : Conflict) : ResolveM m Outcome := do
  let workspace ← owner conflict
  report outside workspace conflict .acceptYours (.ofString (conflict.targetLocalItem.getD "")) false
  noteSkipped conflict
  pure .resolved

def acceptTheirs (outside : Collaborators m) (conflict : Conflict) : ResolveM m Outcome := do
  let workspace ← owner conflict
  let path := (conflict.targetOrSource.map LocalPath.ofWire).getD ⟨""⟩
  report outside workspace conflict .acceptTheirs path false
  pure .resolved

/-- Leaves a conflict for later. Nobody outside is told. -/
def skip (conflict : Conflict) : ResolveM m Outcome := do
  noteSkipped conflict
  pure .skipped

end ResolveM

/-- One of the things that can be done about a conflict. -/
inductive ConflictAction where
  | acceptMerge
  | acceptYours
  | acceptTheirs
  | skip
deriving DecidableEq, Repr, Inhabited

def ConflictAction.run [Monad m] (outside : Collaborators m) (conflict : Conflict) :
    ConflictAction → ResolveM m Outcome
  | acceptMerge => ResolveM.acceptMerge outside conflict
  | acceptYours => ResolveM.acceptYours outside conflict
  | acceptTheirs => ResolveM.acceptTheirs outside conflict
  | skip => ResolveM.skip conflict

end Reconcile
