import Reconcile.Policy.Registry
import Reconcile.Remote.Basic

namespace Reconcile

namespace ChangesetComments

def policyType : PolicyType :=
  { id := "tfvc.builtin.changeset-comments"
    name := "Changeset Comments Policy"
    shortDescription := "Reminds users to add meaningful comments to their check-ins"
    installationInstructions := "Built into the client" }

/-- One failure if the commit message is blank. -/
def verdict (context : CheckinContext) : List PolicyFailure :=
  if Text.isBlankText context.commitMessage then
    [.reported policyType "Please provide some comment for your check-in" none]
  else []

def policy [Pure m] : CheckinPolicy m :=
  .stateless policyType fun context => pure (.ok (verdict context))

end ChangesetComments

namespace WorkItemsRequired

def policyType : PolicyType :=
  { id := "tfvc.builtin.work-items"
    name := "Work Items"
    shortDescription := "Requires that one or more work items be associated with every check-in"
    installationInstructions := "Built into the client" }

/-- One failure if no work item is selected. -/
def verdict (context : CheckinContext) : List PolicyFailure :=
  if context.workItems.isEmpty then
    [.reported policyType "Please associate one or more work items with this check-in" none]
  else []

def policy [Pure m] : CheckinPolicy m :=
  .stateless policyType fun context => pure (.ok (verdict context))

end WorkItemsRequired

/-- A way to tell whether a path, the second text, fits a pattern. -/
abbrev PathMatcher := (pattern path : String) → Bool

namespace ForbiddenPaths

def policyType : PolicyType :=
  { id := "tfvc.builtin.forbidden-paths"
    name := "Forbidden Paths"
    shortDescription := "Blocks check-in of files matching forbidden patterns"
    installationInstructions := "Built into the client" }

/-- The patterns that a configuration lists. An entry without text is passed over; a
    configuration has to list at least one pattern. -/
def readPatterns (configuration : String) : Except PolicyError (List String) := do
  let some root := Markup.element? "patterns" configuration.toList
    | throw (.failed "configuration has no <patterns> element")
  let patterns := ((root.children "pattern").map (·.text)).filter (· ≠ "")
  if patterns.isEmpty then throw (.failed "configuration lists no <pattern> entries")
  return patterns

/-- The path that patterns are matched against: the server path inside the team project, or the
    local path of a file whose server path is not known. -/
def matchedPath (file : LocalPath) : Option ServerPath → String
  | some serverPath => ServerPath.insideProject serverPath
  | none => file.display

/-- The first pattern that a path fits. Both sides may use `\` as the separator. -/
def firstMatch? (fits : PathMatcher) (patterns : List String) (path : String) : Option String :=
  patterns.find? fun pattern => fits (Text.swap '\\' '/' pattern) (Text.swap '\\' '/' path)

/-- The failure for one file, if it fits a pattern. -/
def verdict (fits : PathMatcher) (patterns : List String) (file : LocalPath)
    (serverPath : Option ServerPath) : Option PolicyFailure :=
  (firstMatch? fits patterns (matchedPath file serverPath)).map fun pattern =>
    .reported policyType s!"File '{file.display}' must not be checked in"
      (some s!"Matches forbidden pattern '{pattern}'")

/-- The failures for a list of files. The cancellation is looked at before each file. -/
def judge [Monad m] (fits : PathMatcher) (cancellation : Cancellation m)
    (patterns : List String) :
    List (LocalPath × Option ServerPath) → ExceptT PolicyError m (List PolicyFailure)
  | [] => pure []
  | (file, serverPath) :: files => do
    cancellation.check .cancelled
    let failures ← judge fits cancellation patterns files
    return (verdict fits patterns file serverPath).toList ++ failures

def evaluate [Monad m] (fits : PathMatcher) (cancellation : Cancellation m)
    (patterns : List String) : PolicyEvaluation m := fun context =>
  (judge fits cancellation patterns context.pairs).run

def policy [Monad m] (fits : PathMatcher) (cancellation : Cancellation m) : CheckinPolicy m :=
  { policyType
    evaluate := evaluate fits cancellation []
    configure := fun configuration =>
      pure ((readPatterns configuration).map (evaluate fits cancellation)) }

end ForbiddenPaths

/-- The policies that are always installed, in the order in which they are registered: one asks for
    a commit message, one for work items, and one rejects files whose path fits a configured
    pattern. -/
def builtinPolicies [Monad m] (fits : PathMatcher) (cancellation : Cancellation m) :
    List (CheckinPolicy m) :=
  [ChangesetComments.policy, WorkItemsRequired.policy, ForbiddenPaths.policy fits cancellation]

def PolicyRegistry.builtins [Monad m] (fits : PathMatcher) (cancellation : Cancellation m) :
    PolicyRegistry m :=
  (builtinPolicies fits cancellation).foldl PolicyRegistry.register {}

end Reconcile
