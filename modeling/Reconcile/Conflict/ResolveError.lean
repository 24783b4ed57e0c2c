import Reconcile.Conflict.Resolution
import Reconcile.Files

namespace Reconcile

/-- Why a conflict stays unresolved. A cancellation has an error of its own, wherever it is noticed. -/
inductive ResolveError where
  | unknownConflict (id : Int)
  | notMergeable (id : Int)
  /-- The content of something that is no file is in conflict. -/
  | notAFile (id : Int)
  | missingFile (path : String)
  /-- One of the contents to merge could not be had. -/
  | contentLoad (path : String) (source : RemoteError)
  | unmappedServerPath (path workspace : String)
  | remote (error : RemoteError)
  /-- One operation could not be applied. -/
  | apply (error : ApplyError)
  /-- Several operations could not be applied. -/
  | applyAggregated (errors : List ApplyError)
  | files (error : FileError)
  | cancelled
deriving DecidableEq, Repr, Inhabited

namespace ResolveError

def message : ResolveError → String
  | unknownConflict id => s!"conflict {id} is not registered"
  | notMergeable id => s!"conflict {id} cannot be merged"
  | notAFile id => s!"conflict {id} reports a content conflict on a folder"
  | missingFile path => s!"File '{path}' is missing"
  | contentLoad path source => s!"cannot load revisions for '{path}': {source.message}"
  | unmappedServerPath path workspace =>
    s!"server path '{path}' is not mapped in workspace '{workspace}'"
  | remote error => s!"conflict resolution request failed: {error.message}"
  | apply error => error.message
  | applyAggregated errors =>
    let details := "; ".intercalate (errors.map ApplyError.message)
    s!"{errors.length} operations failed to apply: {details}"
  | files error => s!"resolve I/O error: {error.message}"
  | cancelled => "conflict resolution cancelled"

/-- A failed server call as an error of the resolution; a cancelled call stays a cancellation. -/
def ofRemote : RemoteError → ResolveError
  | .cancelled => .cancelled
  | error => .remote error

/-- A failed download of a content for the file at `path`. -/
def ofDownload (path : LocalPath) : RemoteError → ResolveError
  | .cancelled => .cancelled
  | error => .contentLoad path.display error

/-- What some failures to apply operations amount to: nothing, the only one, or all together. -/
def ofApplyErrors : List ApplyError → Option ResolveError
  | [] => none
  | [error] => some (.apply error)
  | errors => some (.applyAggregated errors)

theorem ofApplyErrors_eq_none_iff {errors : List ApplyError} :
    ofApplyErrors errors = none ↔ errors = [] := by
  rcases errors with _ | ⟨error, _ | ⟨second, rest⟩⟩ <;> simp [ofApplyErrors]

end ResolveError

end Reconcile
