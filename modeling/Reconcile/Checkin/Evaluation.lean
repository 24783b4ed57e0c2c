import Reconcile.Checkin.Discovery
import Reconcile.Policy.Registry

namespace Reconcile.Evaluation

/-- Evaluates an installed policy for a descriptor: a configuration is loaded first, and a
    policy whose configuration cannot be loaded is not asked. -/
def runPolicy [Monad m] (policy : CheckinPolicy m) (format : DescriptorFormat)
    (context : CheckinContext) : ExceptT CheckinError m (List PolicyFailure) := do
  let evaluation ← match format with
    | .stateless => pure (.ok policy.evaluate)
    | .stateful configuration => policy.configure configuration
  match evaluation with
  | .error .cancelled => throw .cancelled
  | .error error => return [.loadFailed policy.policyType error]
  | .ok evaluate =>
    match ← evaluate context with
    | .ok failures => return failures
    | .error .cancelled => throw .cancelled
    | .error error => return [.evaluationFailed policy.policyType error]

/-- Evaluates the descriptors of one project in order. Whatever a policy does wrong becomes a
    failure in the list; only a cancellation ends the evaluation. A descriptor whose id is
    registered twice ends its project, not the others. -/
def runDescriptors [Monad m] (registry : PolicyRegistry m) (cancellation : Cancellation m)
    (nonInstalled : Bool) (context : CheckinContext) :
    List PolicyDescriptor → ExceptT CheckinError m (List PolicyFailure)
  | [] => pure []
  | descriptor :: descriptors => do
    cancellation.check .cancelled
    match registry.find descriptor.policyType.id with
    | .ambiguous => return [.duplicateId descriptor.policyType.id]
    | .notInstalled =>
      let failures := if nonInstalled then [PolicyFailure.notInstalled descriptor] else []
      return failures ++ (← runDescriptors registry cancellation nonInstalled context descriptors)
    | .found policy =>
      let failures ← runPolicy policy descriptor.format context
      return failures ++ (← runDescriptors registry cancellation nonInstalled context descriptors)

def runProjects [Monad m] (registry : PolicyRegistry m) (cancellation : Cancellation m)
    (context : CheckinContext) : ProjectTable → ExceptT CheckinError m (List PolicyFailure)
  | [] => pure []
  | (_, project) :: projects => do
    let nonInstalled := project.compatibility.nonInstalled
    let failures ← runDescriptors registry cancellation nonInstalled context project.policies
    return failures ++ (← runProjects registry cancellation context projects)

def runServer [Monad m] (registry : PolicyRegistry m) (cancellation : Cancellation m)
    (context : CheckinContext) (projects : ProjectTable) :
    ExceptT CheckinError m (List PolicyFailure) := do
  let failures ← runProjects registry cancellation context projects
  cancellation.check .cancelled
  return failures

end Reconcile.Evaluation
