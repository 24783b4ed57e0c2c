import Reconcile.CommandLine.Checkin
import Reconcile.CommandLine.Conflicts
import Reconcile.CommandLine.Help
import Reconcile.CommandLine.Setup

namespace Reconcile

/-- What a program leaves behind: its output, its warnings and errors, and its exit code. -/
structure Ending where
  shown : String
  warned : String
  code : Nat
deriving DecidableEq, Repr, Inhabited

namespace Ending

/-- The exit code of a program that does not understand its arguments. -/
def usageCode : Nat := 2

/-- The ending of a command that ran. One that fails ends with one line that tells its causes from
    the outermost to the innermost; what it showed before stays. -/
def ofRun : Except (List String) ExitCode × Output → Ending
  | (.ok code, output) => ⟨output.shown, output.warned, code.number⟩
  | (.error causes, output) =>
    { shown := output.shown
      warned := output.warned ++ Text.markError (": ".intercalate causes) ++ "\n"
      code := ExitCode.failure.number }

/-- The ending of a program that runs no command. -/
def ofStop : Stop → Ending
  | .usage error => ⟨"", error.message ++ "\n", usageCode⟩
  | .help topic => ⟨String.join ((Help.onTopic topic).map (· ++ "\n")), "", 0⟩
  | .version => ⟨Help.version ++ "\n", "", 0⟩

end Ending

namespace Command

open CommandM

variable {m : Type → Type} [Monad m]

def run (files : FileAccess m) (config : LocalPath) : Command → CommandM m ExitCode
  | .setup output defaults => runSetup files (output.getD config) defaults
  | .validate => runValidate files config
  | .checkin options => do runCheckin files (← loadConfig files config) options
  | .listConflicts dump json => do runList files (← loadConfig files config) dump json
  | .mergeFiles base yours theirs output => runMerge files base yours theirs output

end Command

namespace Invocation

variable {m : Type → Type} [Monad m]

def run (files : FileAccess m) (defaultConfig : Option LocalPath) (invocation : Invocation) :
    CommandM m ExitCode := do
  let some config := invocation.config <|> defaultConfig
    | throw ["no configuration directory on this platform; pass --config"]
  invocation.command.run files config

end Invocation

def runArguments [Monad m] (files : FileAccess m) (defaultConfig : Option LocalPath)
    (args : List String) : m Ending := do
  match Invocation.ofArguments args with
  | .error stop => return .ofStop stop
  | .ok invocation => return .ofRun (← ((invocation.run files defaultConfig).run.run {}))

end Reconcile
