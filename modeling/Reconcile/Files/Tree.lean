import Reconcile.Files

namespace Reconcile

/-- What is at a place of a file tree. -/
inductive FileEntry where
  | folder
  | file (content : ByteArray) (writable : Bool)
deriving DecidableEq, Inhabited

/-- The folders and files below a working folder, each under its names on the way from there. The
    working folder itself is always there and is not listed; the folders above it are there and hold
    nothing else. -/
structure FileTree where
  entries : List (List OsText × FileEntry) := []
deriving DecidableEq, Inhabited

/-- Where a path leads. -/
inductive Place where
  /-- A folder above the working folder. -/
  | above
  /-- The names on the way from the working folder. -/
  | below (names : List OsText)
deriving DecidableEq, Repr, Inhabited

namespace FileTree

/-- What is at a place. -/
def entry? (tree : FileTree) : Place → Option FileEntry
  | .above => some .folder
  | .below [] => some .folder
  | .below names => tree.entries.lookup names

/-- Fails unless a folder is at a place. -/
def requireFolder (tree : FileTree) (place : Place) : Except FileError Unit :=
  match tree.entry? place with
  | some .folder => .ok ()
  | some (.file ..) => .error .notDirectory
  | none => .error .notFound

/-- One step from a folder. -/
def Place.step : Place → LocalPath.Component → Except FileError Place
  | _, .root => .ok .above
  | place, .current => .ok place
  | .above, .parent => .ok .above
  | .above, .normal _ => .error .notFound
  | .below [], .parent => .ok .above
  | .below names, .parent => .ok (.below names.dropLast)
  | .below names, .normal name => .ok (.below (names ++ [name]))

/-- Where a number of steps lead. The last one may lead to a place where nothing is. -/
def walk (tree : FileTree) (steps : List LocalPath.Component) : Except FileError Place :=
  steps.foldlM (fun place step => do
    tree.requireFolder place
    Place.step place step) (.below [])

/-- Whether a path is written as that of a folder: with a slash or a dot at its end. -/
def namesFolder (path : LocalPath) : Bool :=
  match (Text.splitOn LocalPath.slash path.text.bytes).getLast? with
  | some piece => piece = [] ∨ piece = [LocalPath.dot]
  | none => false

/-- Where a path leads. The empty path leads nowhere. -/
def locate (tree : FileTree) (path : LocalPath) : Except FileError Place := do
  if path.text = "" then throw .notFound
  let place ← tree.walk path.components
  if namesFolder path then tree.requireFolder place
  return place

def find (tree : FileTree) (path : LocalPath) : Except FileError FileEntry := do
  match tree.entry? (← tree.locate path) with
  | some entry => return entry
  | none => throw .notFound

/-- Whether a folder is at the end of some steps. -/
def isFolder (tree : FileTree) (steps : List LocalPath.Component) : Bool :=
  match tree.walk steps with
  | .ok place => tree.entry? place = some .folder
  | .error _ => false

def put (tree : FileTree) (names : List OsText) (entry : FileEntry) : FileTree :=
  ⟨tree.entries.filter (·.1 ≠ names) ++ [(names, entry)]⟩

/-- The content of the file at a path. -/
def read (tree : FileTree) (path : LocalPath) : Except FileError ByteArray := do
  match ← tree.find path with
  | .file content _ => return content
  | .folder => throw .isDirectory

/-- The tree with a content in the file at a path. -/
def write (tree : FileTree) (path : LocalPath) (content : ByteArray) :
    Except FileError FileTree := do
  if path.text = "" then throw .notFound
  let place ← tree.walk path.components
  if path.text.bytes.getLast? = some LocalPath.slash then throw .isDirectory
  if namesFolder path then tree.requireFolder place
  match place, tree.entry? place with
  | .below names, none => return tree.put names (.file content true)
  | .below names, some (.file _ true) => return tree.put names (.file content true)
  | _, some (.file ..) => throw .permissionDenied
  | _, _ => throw .isDirectory

/-- The tree in which the entry at a path may be written to. -/
def makeWritable (tree : FileTree) (path : LocalPath) : Except FileError FileTree := do
  match ← tree.locate path with
  | .above => return tree
  | .below names =>
    match tree.entry? (.below names) with
    | some (.file content _) => return tree.put names (.file content true)
    | some .folder => return tree
    | none => throw .notFound

/-- The tree with a folder at the end of some steps, the folder above it being there. -/
def createFolder (tree : FileTree) (steps : List LocalPath.Component) :
    Except FileError FileTree := do
  let place ← tree.walk steps
  match place, tree.entry? place with
  | .below names, none => return tree.put names .folder
  | _, none => throw .notFound
  | _, some _ => throw .alreadyExists

/-- The tree with a folder at the end of some steps, listed from the last one, and with the
    folders on the way. What was created before a failure stays. -/
def createFolders (tree : FileTree) : List LocalPath.Component → Except FileError Unit × FileTree
  | [] => (.ok (), tree)
  | step :: steps =>
    let whole := (step :: steps).reverse
    match tree.createFolder whole with
    | .ok tree => (.ok (), tree)
    | .error .notFound =>
      match tree.createFolders steps with
      | (.error error, tree) => (.error error, tree)
      | (.ok (), tree) =>
        match tree.createFolder whole with
        | .ok tree => (.ok (), tree)
        | .error error => (if tree.isFolder whole then .ok () else .error error, tree)
    | .error error => (if tree.isFolder whole then .ok () else .error error, tree)

/-- A changed tree as the new state; a failed change leaves the state as it is. -/
def change (f : FileTree → Except FileError FileTree) : StateM FileTree (Except FileError Unit) :=
  fun tree =>
    match f tree with
    | .ok changed => (.ok (), changed)
    | .error error => (.error error, tree)

/-- The calls to a file tree that is the state of the computation. -/
def access : FileAccess (StateM FileTree) where
  isPresent path := return (← get).find path |>.toBool
  isFile path := return (← get).read path |>.toBool
  read path := return (← get).read path
  write path content := change (·.write path content)
  makeWritable path := change (·.makeWritable path)
  createFolders path := fun tree => tree.createFolders path.components.reverse

end FileTree

end Reconcile
