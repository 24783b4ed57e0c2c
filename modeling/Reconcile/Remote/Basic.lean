import Reconcile.ServerPath
import Reconcile.Text.Blank

namespace Reconcile

/-- Looks whether the surrounding operation has been cancelled. The flag belongs to the outside and
    can be raised at any time, so looking at it is an action in the monad of the outside and not a
    value known in advance. -/
structure Cancellation (m : Type → Type) where
  isCancelled : m Bool

/-- A flag that nobody raises. -/
def Cancellation.never [Pure m] : Cancellation m :=
  ⟨pure false⟩

/-- A flag that is a part of the world. -/
def Cancellation.reading (raised : σ → Bool) : Cancellation (StateM σ) :=
  ⟨fun world => (raised world, world)⟩

/-- Fails with `error` once the operation has been cancelled. -/
def Cancellation.check [Monad m] (cancellation : Cancellation m) (error : ε) : ExceptT ε m Unit :=
  do
    if ← cancellation.isCancelled then throw error

/-- Why a call to the server gave no answer. A cancelled call is an error of its own and is never
    folded into another one. -/
inductive RemoteError where
  /-- The server could not be reached, or not understood. -/
  | transport (address detail : String)
  /-- The server refused the request. -/
  | server (detail : String)
  /-- This server connection cannot do what was asked. -/
  | unsupported (operation : String)
  /-- The surrounding operation was cancelled. -/
  | cancelled
deriving DecidableEq, Repr, Inhabited

def RemoteError.message : RemoteError → String
  | transport address detail => s!"transport error talking to '{address}': {detail}"
  | server detail => s!"server error: {detail}"
  | unsupported operation => s!"operation not supported: {operation}"
  | cancelled => "operation cancelled"

/-- A version-control server, known by the address that is called and by a presentable form of it,
    which orders servers and stands in messages. -/
structure Server where
  /-- The address that is called. -/
  uri : String
  /-- The address without slashes at its end, as shown to people. -/
  presentable : String
deriving DecidableEq, Repr, Inhabited

namespace Server

def ofUri (uri : String) : Server :=
  ⟨uri, Text.trimmedEnd '/' uri⟩

/-- The order in which servers are visited: by presentable form, then by address. -/
def before (a b : Server) : Bool :=
  a.presentable < b.presentable || (a.presentable == b.presentable && a.uri < b.uri)

end Server

structure NoteDefinition where
  name : String
  required : Bool := false
  /-- The place of the field in a check-in dialog. -/
  displayOrder : Int := 0
deriving DecidableEq, Repr, Inhabited

/-- What an annotation of a team project is about. -/
inductive AnnotationKind where
  /-- Flags that override the compatibility settings. -/
  | overrides
  /-- Policy definitions without configuration. -/
  | statelessPolicies
  /-- Policy definitions that carry a configuration. -/
  | statefulPolicies
deriving DecidableEq, Repr, Inhabited

/-- The name under which a server stores annotations of a kind. -/
def AnnotationKind.storedName : AnnotationKind → String
  | overrides => "CheckinPolicyOverrides"
  | statelessPolicies => "CheckinPolicies"
  | statefulPolicies => "StatefulCheckinPolicies"

structure Annotation where
  item : ServerPath
  value : Option String
deriving DecidableEq, Repr, Inhabited

/-- The queries that a server answers, in a monad `m` that stands for everything outside. -/
structure Queries (m : Type → Type) where
  /-- The note fields declared by all of some team projects. -/
  noteDefinitions : Server → List ServerPath → m (Except RemoteError (List NoteDefinition))
  /-- The annotations of a kind attached to a team project. -/
  annotations : Server → AnnotationKind → ServerPath → m (Except RemoteError (List Annotation))

end Reconcile
