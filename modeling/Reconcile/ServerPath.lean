import Reconcile.Text.Blank
import Reconcile.Text.Case
import Reconcile.Text.Search

namespace Reconcile

/-- The path of an item on a server, such as `$/Project/dir/file.txt`. Names are compared without
    regard to the case of A to Z. -/
abbrev ServerPath := String

namespace ServerPath

def root : List Char := ['$', '/']

/-- A path without the slashes at its end. -/
def stem (path : ServerPath) : List Char :=
  Text.trimEnd (· == '/') path.toList

/-- The team project an item belongs to, such as `$/Project`. A path that is not below the root
    is its own project, and the root loses its slash. -/
def project (path : ServerPath) : ServerPath :=
  match Text.after? root path.toList with
  | none => path
  | some rest =>
    if '/' ∈ rest then String.ofList (root ++ rest.takeWhile (· != '/'))
    else String.ofList path.stem

/-- The part of a path inside its team project, such as `bin/a.dll` for `$/Project/bin/a.dll`;
    empty for the project itself. -/
def insideProject (path : ServerPath) : ServerPath :=
  match Text.after? root path.toList with
  | none => path
  | some rest => String.ofList (rest.dropWhile (· != '/')).tail

/-- Whether `path` is `folder` or an item below it. Slashes at the end of the folder and the
    case of A to Z do not matter. -/
def isUnder (path folder : ServerPath) : Bool :=
  let item := Text.lowerAsciiText path.toList
  let top := Text.lowerAsciiText folder.stem
  item == top || (top ++ ['/']).isPrefixOf item

end ServerPath

end Reconcile
