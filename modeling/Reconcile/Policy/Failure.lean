import Reconcile.Policy.Descriptor

namespace Reconcile

/-- Why a policy gave no verdict. -/
inductive PolicyError where
  | failed (reason : String)
  /-- The policy noticed that the evaluation was cancelled. -/
  | cancelled
deriving DecidableEq, Repr, Inhabited

def PolicyError.message : PolicyError → String
  | failed reason => reason
  | cancelled => "policy evaluation cancelled"

/-- Why a failure was recorded. -/
inductive FailureKind where
  /-- The policy itself reported it. -/
  | reported
  /-- No such policy is installed. -/
  | notInstalled (stateless : Bool)
  /-- Several installed policies have the same id. -/
  | duplicateId
  /-- The configuration could not be loaded. -/
  | loadFailed
  /-- The evaluation failed. -/
  | evaluationFailed
deriving DecidableEq, Repr, Inhabited

/-- A warning shown before a check-in. -/
structure PolicyFailure where
  policyName : String
  message : String
  tooltip : Option String
  kind : FailureKind
deriving DecidableEq, Repr, Inhabited

namespace PolicyFailure

/-- The policy name of failures that no policy reported. -/
def frameworkName : String := "Checkin policy framework"

def reported (policyType : PolicyType) (message : String) (tooltip : Option String) :
    PolicyFailure :=
  ⟨policyType.name, message, tooltip, .reported⟩

/-- The failure for a descriptor whose policy is not installed. The installation instructions
    are told, unless there are none. -/
def notInstalled (descriptor : PolicyDescriptor) : PolicyFailure :=
  let policyType := descriptor.policyType
  let tooltip :=
    if Text.isBlankText policyType.installationInstructions then
      s!"No implementation with id '{policyType.id}' is installed. " ++
        "Contact the team project administrator."
    else policyType.installationInstructions
  { policyName := policyType.name
    message := s!"Checkin policy '{policyType.name}' is not installed"
    tooltip := some tooltip
    kind := .notInstalled (!descriptor.isStateful) }

/-- The failure for an id that several installed policies have. -/
def duplicateId (id : String) : PolicyFailure :=
  { policyName := frameworkName
    message := "Duplicate checkin policy id"
    tooltip := some (s!"Several checkin policies with the same id found: '{id}'.\n" ++
      "Please review your extensions.")
    kind := .duplicateId }

/-- The failure for a configuration that could not be loaded. -/
def loadFailed (policyType : PolicyType) (error : PolicyError) : PolicyFailure :=
  { policyName := frameworkName
    message := s!"Cannot load configuration of checkin policy '{policyType.name}'"
    tooltip := some s!"The following error occurred while loading: {error.message}"
    kind := .loadFailed }

/-- The failure for an evaluation that failed. -/
def evaluationFailed (policyType : PolicyType) (error : PolicyError) : PolicyFailure :=
  { policyName := frameworkName
    message := s!"Cannot evaluate checkin policy '{policyType.name}'"
    tooltip := some s!"The following error occurred while evaluating: {error.message}"
    kind := .evaluationFailed }

end PolicyFailure

end Reconcile
