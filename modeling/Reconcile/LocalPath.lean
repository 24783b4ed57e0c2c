import Reconcile.OsText
import Reconcile.Text.Search

namespace Reconcile

/-- A path on the local machine, as written. Paths are compared by their components: `a//b/./c/` and
    `a/b/c` differ as texts and agree as paths. -/
structure LocalPath where
  text : OsText
deriving DecidableEq, Repr, Inhabited

namespace LocalPath

def ofString (text : String) : LocalPath :=
  ⟨text⟩

def display (path : LocalPath) : String :=
  path.text.display

/-- The byte between components. -/
abbrev slash : UInt8 := 0x2F

abbrev dot : UInt8 := 0x2E

/-- One step of a path. -/
inductive Component where
  /-- The file system root, written as a leading `/`. -/
  | root
  /-- A leading `.`; elsewhere a dot is no step. -/
  | current
  /-- The step up, `..`. -/
  | parent
  | normal (name : OsText)
deriving DecidableEq, Repr, Inhabited

def Component.text : Component → OsText
  | root => "/"
  | current => "."
  | parent => ".."
  | normal name => name

/-- The component that a piece between separators stands for. Empty pieces and dots stand for
    none. -/
def component? (piece : List UInt8) : Option Component :=
  if piece = [] ∨ piece = [dot] then none
  else if piece = [dot, dot] then some .parent
  else some (.normal ⟨piece⟩)

def componentsOf (bytes : List UInt8) : List Component :=
  let pieces := Text.splitOn slash bytes
  let steps := pieces.filterMap component?
  if bytes.head? = some slash then .root :: steps
  else if pieces.head? = some [dot] then .current :: steps
  else steps

/-- The steps of a path from left to right. -/
def components (path : LocalPath) : List Component :=
  componentsOf path.text.bytes

/-- How many components a path has; the root counts as one. -/
def depth (path : LocalPath) : Nat :=
  path.components.length

/-- Whether `path` is `folder` or lies below it: the components of `folder` come first. Every
    path lies below the empty one. -/
def startsWith (path folder : LocalPath) : Bool :=
  folder.components.isPrefixOf path.components

/-- The components of `path` below `folder`. -/
def below (path folder : LocalPath) : List Component :=
  path.components.drop folder.depth

/-- The path one segment further. No separator is added to an empty path or after a final `/`.
    The segment is a non-empty name without separators. -/
def push (path : LocalPath) (segment : OsText) : LocalPath :=
  let bytes := path.text.bytes
  if bytes = [] ∨ bytes.getLast? = some slash then ⟨⟨bytes ++ segment.bytes⟩⟩
  else ⟨⟨bytes ++ slash :: segment.bytes⟩⟩

/-- The path that some components make up. -/
def ofComponents (components : List Component) : LocalPath :=
  let join (components : List Component) : List UInt8 :=
    List.intercalate [slash] (components.map (·.text.bytes))
  match components with
  | .root :: rest => ⟨⟨slash :: join rest⟩⟩
  | components => ⟨⟨join components⟩⟩

/-- The folder that a path is in. The root and the empty path are in none. -/
def parent? (path : LocalPath) : Option LocalPath :=
  match path.components.getLast? with
  | none => none
  | some .root => none
  | some _ => some (ofComponents path.components.dropLast)

/-- The platform path for a local path as the server writes it, with `\` as the separator. -/
def ofWire (text : String) : LocalPath :=
  ofString (Text.swap '\\' '/' text)

/-- The path as it is sent to the server. -/
def toWire (path : LocalPath) : String :=
  Text.swap '/' '\\' path.display

end LocalPath

end Reconcile
