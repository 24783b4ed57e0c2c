import Reconcile.Remote.Basic

namespace Reconcile

/-- How a conflict is settled. -/
inductive Resolution where
  | acceptMerge
  | acceptYours
  | acceptTheirs
deriving DecidableEq, Repr, Inhabited

def Resolution.name : Resolution → String
  | acceptMerge => "accept_merge"
  | acceptYours => "accept_yours"
  | acceptTheirs => "accept_theirs"

/-- What becomes of the lock on an item. -/
inductive LockLevel where
  | unchanged
  | none
  | checkin
  | checkOut
deriving DecidableEq, Repr, Inhabited

def LockLevel.name : LockLevel → String
  | unchanged => "unchanged"
  | none => "none"
  | checkin => "checkin"
  | checkOut => "check_out"

/-- The number that stands for the encoding that an item has already. -/
def unchangedEncoding : Int := -2

/-- The report of a resolution to the server. -/
structure ResolveRequest where
  conflictId : Int
  resolution : Resolution
  lockLevel : LockLevel := .unchanged
  encoding : Int := unchangedEncoding
  /-- The merged local path in the form of the server, if names were merged. -/
  newPath : Option String
deriving DecidableEq, Repr, Inhabited

/-- Something that the server wants fetched or reverted. -/
structure GetOperation where
  itemId : Int
  sourceLocalItem : Option String := none
  targetLocalItem : Option String := none
  serverItem : String
  version : Int
deriving DecidableEq, Repr, Inhabited

/-- What the server wants done after a resolution. -/
structure ResolveResponse where
  getOperations : List GetOperation := []
  undoOperations : List GetOperation := []
deriving DecidableEq, Repr, Inhabited

/-- What happens to local changes when an operation is applied. -/
inductive DownloadMode where
  /-- They are overwritten. -/
  | force
  /-- They are kept, having been merged before. -/
  | merge
deriving DecidableEq, Repr, Inhabited

def DownloadMode.name : DownloadMode → String
  | force => "force"
  | merge => "merge"

structure ApplyError where
  path : String
  detail : String
deriving DecidableEq, Repr, Inhabited

def ApplyError.message (error : ApplyError) : String :=
  s!"cannot apply operation to '{error.path}': {error.detail}"

end Reconcile
