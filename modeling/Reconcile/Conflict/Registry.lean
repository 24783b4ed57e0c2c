import Reconcile.Conflict.Basic
import Reconcile.Sorted
import Reconcile.Workspace

namespace Reconcile

structure RegisteredConflict where
  conflict : Conflict
  workspace : Workspace
deriving DecidableEq, Repr, Inhabited

/-- The conflicts that wait for a resolution, in order of their numbers. A number is registered
    once: of several conflicts with the same number the first one listed stays. -/
structure ConflictRegistry where
  /-- The conflicts in increasing order of their numbers. -/
  entries : List RegisteredConflict := []
deriving DecidableEq, Repr, Inhabited

namespace ConflictRegistry

/-- The entry with a number. -/
def entry? (registry : ConflictRegistry) (id : Int) : Option RegisteredConflict :=
  registry.entries.find? (·.conflict.id == id)

def get? (registry : ConflictRegistry) (id : Int) : Option Conflict :=
  (registry.entry? id).map (·.conflict)

/-- The workspace that a number came from. -/
def workspaceOf? (registry : ConflictRegistry) (id : Int) : Option Workspace :=
  (registry.entry? id).map (·.workspace)

def contains (registry : ConflictRegistry) (id : Int) : Bool :=
  (registry.entry? id).isSome

def conflicts (registry : ConflictRegistry) : List Conflict :=
  registry.entries.map (·.conflict)

/-- Adds a conflict, unless its number is registered already. -/
def add (registry : ConflictRegistry) (workspace : Workspace) (conflict : Conflict) :
    ConflictRegistry :=
  if registry.contains conflict.id then registry
  else
    ⟨Sorted.insert (fun a b => decide (a.conflict.id < b.conflict.id)) ⟨conflict, workspace⟩
      registry.entries⟩

/-- The registry of the conflicts of some workspaces. -/
def ofGroups (groups : List (Workspace × List Conflict)) : ConflictRegistry :=
  groups.foldl (fun registry (workspace, conflicts) =>
    conflicts.foldl (·.add workspace ·) registry) {}

def remove (registry : ConflictRegistry) (id : Int) : ConflictRegistry :=
  ⟨registry.entries.filter (·.conflict.id != id)⟩

def size (registry : ConflictRegistry) : Nat :=
  registry.entries.length

def isEmpty (registry : ConflictRegistry) : Bool :=
  registry.entries.isEmpty

end ConflictRegistry

end Reconcile
