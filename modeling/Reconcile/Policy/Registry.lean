import Reconcile.Checkin.WorkItem
import Reconcile.LocalPath
import Reconcile.Policy.Failure
import Reconcile.ServerPath
import Reconcile.Text.Display

namespace Reconcile

/-- What a policy sees of a pending check-in on one server. -/
structure CheckinContext where
  /-- The local files. -/
  files : List LocalPath
  /-- The server path of each file, as far as it is known. -/
  serverPaths : List ServerPath
  commitMessage : String
  workItems : WorkItems
deriving DecidableEq, Repr, Inhabited

/-- The files of a check-in with their server paths. -/
def CheckinContext.pairs (context : CheckinContext) : List (LocalPath × Option ServerPath) :=
  context.files.zipIdx.map fun (file, index) => (file, context.serverPaths[index]?)

/-- What a policy answers for a check-in. -/
abbrev PolicyEvaluation (m : Type → Type) :=
  CheckinContext → m (Except PolicyError (List PolicyFailure))

/-- An installed policy, which looks at a pending check-in and reports failures. It runs in a monad
    `m` that stands for everything outside. -/
structure CheckinPolicy (m : Type → Type) where
  policyType : PolicyType
  /-- The evaluation by a fresh instance without configuration. -/
  evaluate : PolicyEvaluation m
  /-- Loads a configuration into a fresh instance and gives the evaluation by it. -/
  configure : String → m (Except PolicyError (PolicyEvaluation m))

/-- A policy without configuration; it accepts any and takes no notice. -/
def CheckinPolicy.stateless [Pure m] (policyType : PolicyType) (evaluate : PolicyEvaluation m) :
    CheckinPolicy m :=
  { policyType, evaluate, configure := fun _ => pure (.ok evaluate) }

/-- The installed policies, in the order in which they were registered. Several may be registered
    under one id; looking that id up is then an error. -/
structure PolicyRegistry (m : Type → Type) where
  registrations : List (String × CheckinPolicy m) := []

/-- What looking up an id comes to. -/
inductive PolicyLookup (m : Type → Type) where
  | notInstalled
  | found (policy : CheckinPolicy m)
  | ambiguous

/-- The text shown for an id that several policies have. -/
def duplicatePolicyMessage (id : String) : String :=
  s!"several checkin policies with the same id found: '{id}'"

namespace PolicyRegistry

def register (registry : PolicyRegistry m) (policy : CheckinPolicy m) : PolicyRegistry m :=
  ⟨registry.registrations ++ [(policy.policyType.id, policy)]⟩

def ids (registry : PolicyRegistry m) : List String :=
  registry.registrations.map (·.1)

/-- The registered ids on one line, to find out what is installed. -/
def listing (registry : PolicyRegistry m) : String :=
  let listed := ", ".intercalate (registry.ids.map Text.quoted)
  s!"[{listed}]"

def find (registry : PolicyRegistry m) (id : String) : PolicyLookup m :=
  match registry.registrations.filter (·.1 == id) with
  | [] => .notInstalled
  | [(_, policy)] => .found policy
  | _ :: _ :: _ => .ambiguous

end PolicyRegistry

end Reconcile
