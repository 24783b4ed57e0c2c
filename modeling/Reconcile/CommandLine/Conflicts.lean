import Reconcile.CommandLine.Output
import Reconcile.Config
import Reconcile.Conflict.Dump
import Reconcile.Conflict.Listing
import Reconcile.Diff.ThreeWay

namespace Reconcile.Command

open CommandM

variable {m : Type → Type} [Monad m]

/-- The text in a file that a command needs. -/
def readNeeded (files : FileAccess m) (path : LocalPath) : CommandM m String := do
  orFail (fun error : FileError => [s!"failed to read {path.display}", error.message])
    (← outside (files.readText path))

def runList (files : FileAccess m) (config : Config) (dump : LocalPath) (json : Bool) :
    CommandM m ExitCode := do
  let text ← readNeeded files dump
  let some groups := ConflictDump.ofText? text
    | throw ["invalid conflict dump", "not the written form of a conflict dump"]
  let registry ← orFail (fun name => [s!"workspace '{name}' is not configured"])
    (groups.registry config.allWorkspaces)
  if json then showLine registry.toJson.pretty
  else showLines registry.lines
  return .success

/-- Merges two versions of a text that come from a third one. It ends badly if something is left
    to do by hand. -/
def runMerge (files : FileAccess m) (base yours theirs : LocalPath) (output : Option LocalPath) :
    CommandM m ExitCode := do
  let base ← readNeeded files base
  let yours ← readNeeded files yours
  let theirs ← readNeeded files theirs
  let merged := MergedText.merge base yours theirs
  match output with
  | none => write merged.text
  | some path =>
    orFail (fun error : FileError => [s!"failed to write {path.display}", error.message])
      (← outside (files.writeText path merged.text))
    showLine (Text.markSuccess s!"Merged into {path.display}")
  if merged.hasConflicts then
    warnLine (Text.markWarning "Merge left conflict markers; edit the result by hand")
    return .failure
  return .success

end Reconcile.Command
