import Reconcile.Deepest
import Reconcile.LocalPath
import Reconcile.Remote.Basic
import Reconcile.ServerPath
import Reconcile.Sorted

namespace Reconcile

/-- A server folder and the local folder it is mapped onto. -/
structure WorkingFolder where
  serverPath : ServerPath
  localPath : LocalPath
deriving DecidableEq, Repr, Inhabited

/-- A named mapping between server and local folders, owned by a user of a server. A file is found
    in the deepest folder that covers it, in both directions; of folders equally deep the one listed
    last decides. -/
structure Workspace where
  name : String
  owner : String
  server : Server
  folders : List WorkingFolder
deriving DecidableEq, Repr, Inhabited

/-- A file known by both of its paths. -/
structure MappedFile where
  localPath : LocalPath
  serverPath : ServerPath
deriving DecidableEq, Repr, Inhabited

namespace Workspace

/-- The folder that decides about a local path. -/
def localFolder? (workspace : Workspace) (path : LocalPath) : Option WorkingFolder :=
  deepest? (·.localPath.depth) (workspace.folders.filter fun folder =>
    path.startsWith folder.localPath)

/-- The folder that decides about a server path. -/
def serverFolder? (workspace : Workspace) (path : ServerPath) : Option WorkingFolder :=
  deepest? (·.serverPath.stem.length) (workspace.folders.filter fun folder =>
    path.isUnder folder.serverPath)

end Workspace

namespace WorkingFolder

/-- The server path of a local path that `folder` covers: each component below the folder
    becomes a segment, as it is shown. -/
def toServer (folder : WorkingFolder) (path : LocalPath) : ServerPath :=
  String.ofList <| (path.below folder.localPath).foldl
    (fun text component => text ++ '/' :: component.text.shown) folder.serverPath.stem

/-- The local path of a server path that `folder` covers: each non-empty segment below the
    folder is pushed onto the local folder. The segments start where the folder's stem ends,
    which is inside the path because the two agree there up to case. -/
def toLocal (folder : WorkingFolder) (path : ServerPath) : LocalPath :=
  let rest := path.toList.drop folder.serverPath.stem.length
  (((Text.splitOn '/' rest).filter (· ≠ [])).map OsText.ofList).foldl LocalPath.push
    folder.localPath

end WorkingFolder

namespace Workspace

def toServer? (workspace : Workspace) (path : LocalPath) : Option ServerPath :=
  (workspace.localFolder? path).map (·.toServer path)

def toLocal? (workspace : Workspace) (path : ServerPath) : Option LocalPath :=
  (workspace.serverFolder? path).map (·.toLocal path)

/-- A local path has no folder exactly if none covers it. -/
theorem localFolder?_eq_none_iff {workspace : Workspace} {path : LocalPath} :
    workspace.localFolder? path = none ↔
      ∀ folder ∈ workspace.folders, path.startsWith folder.localPath = false := by
  simp [localFolder?, deepest?_eq_none_iff, List.filter_eq_nil_iff]

/-- A server path has no folder exactly if none covers it. -/
theorem serverFolder?_eq_none_iff {workspace : Workspace} {path : ServerPath} :
    workspace.serverFolder? path = none ↔
      ∀ folder ∈ workspace.folders, path.isUnder folder.serverPath = false := by
  simp [serverFolder?, deepest?_eq_none_iff, List.filter_eq_nil_iff]

/-- How deep the deepest folder that covers a local path is. -/
def coverage? (workspace : Workspace) (path : LocalPath) : Option Nat :=
  (workspace.localFolder? path).map (·.localPath.depth)

/-- The position and depth of every workspace that covers a path, in order. -/
def candidates (workspaces : List Workspace) (path : LocalPath) : List (Nat × Nat) :=
  workspaces.zipIdx.filterMap fun (workspace, index) =>
    (workspace.coverage? path).map fun depth => (index, depth)

/-- The position of the workspace that a local path belongs to. -/
def winner? (workspaces : List Workspace) (path : LocalPath) : Option Nat :=
  (deepest? (·.2) (candidates workspaces path)).map (·.1)

/-- A local path with the position of its workspace and its server path there. -/
def assign? (workspaces : List Workspace) (path : LocalPath) : Option (Nat × MappedFile) := do
  let index ← winner? workspaces path
  let workspace ← workspaces[index]?
  let serverPath ← workspace.toServer? path
  return (index, ⟨path, serverPath⟩)

/-- The files of each workspace that has any, by position; within a workspace in the given order.
    Files that no workspace covers are left out. -/
def partition (workspaces : List Workspace) (paths : List LocalPath) :
    List (Nat × List MappedFile) :=
  let assigned := paths.filterMap (assign? workspaces)
  let indices := Sorted.ofList (fun a b => decide (a < b)) (assigned.map (·.1))
  indices.map fun index => (index, (assigned.filter (·.1 == index)).map (·.2))

end Workspace

end Reconcile
