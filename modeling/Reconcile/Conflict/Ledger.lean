namespace Reconcile

inductive FileGroup where
  | updated
  | created
  | removed
  | merged
  | skipped
deriving DecidableEq, Repr, Inhabited

namespace FileGroup

/-- All groups, in the order of the report. -/
def all : List FileGroup :=
  [updated, created, removed, merged, skipped]

def name : FileGroup → String
  | updated => "updated"
  | created => "created"
  | removed => "removed"
  | merged => "merged"
  | skipped => "skipped"

end FileGroup

/-- The ledger: every touched file with what happened to it, in the order of events. -/
structure Ledger where
  entries : List (FileGroup × String) := []
deriving DecidableEq, Repr, Inhabited

namespace Ledger

def add (ledger : Ledger) (group : FileGroup) (path : String) : Ledger :=
  ⟨ledger.entries ++ [(group, path)]⟩

/-- The files of a group, in the order of events. -/
def paths (ledger : Ledger) (group : FileGroup) : List String :=
  (ledger.entries.filter (·.1 == group)).map (·.2)

/-- The groups that have files, each with its files. -/
def groups (ledger : Ledger) : List (FileGroup × List String) :=
  (FileGroup.all.map fun group => (group, ledger.paths group)).filter (!·.2.isEmpty)

def isEmpty (ledger : Ledger) : Bool :=
  ledger.entries.isEmpty

end Ledger

end Reconcile
