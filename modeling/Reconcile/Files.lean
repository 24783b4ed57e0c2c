import Reconcile.LocalPath

namespace Reconcile

/-- Contents are compared as core does it, also where a library has an instance of its own. -/
instance decidableEqContent : DecidableEq ByteArray :=
  ByteArray.decEq

/-- Why a call to the file system failed. -/
inductive FileError where
  | notFound
  | permissionDenied
  | alreadyExists
  | notDirectory
  | isDirectory
  /-- The file does not hold text. -/
  | notText
  /-- Any other failure, in the words of the system. -/
  | other (detail : String)
deriving DecidableEq, Repr, Inhabited

def FileError.message : FileError → String
  | notFound => "No such file or directory (os error 2)"
  | permissionDenied => "Permission denied (os error 13)"
  | alreadyExists => "File exists (os error 17)"
  | notDirectory => "Not a directory (os error 20)"
  | isDirectory => "Is a directory (os error 21)"
  | notText => "stream did not contain valid UTF-8"
  | other detail => detail

/-- The calls to a file system, in a monad `m` that stands for everything outside. Paths are meant
    relative to the working folder unless they begin at the root. -/
structure FileAccess (m : Type → Type) where
  /-- Whether something is at a path. -/
  isPresent : LocalPath → m Bool
  /-- Whether a file is at a path. -/
  isFile : LocalPath → m Bool
  /-- The content of a file. -/
  read : LocalPath → m (Except FileError ByteArray)
  /-- Gives a file a content; a missing file is created. -/
  write : LocalPath → ByteArray → m (Except FileError Unit)
  /-- Lets a file be written to. -/
  makeWritable : LocalPath → m (Except FileError Unit)
  /-- Creates a folder along with the folders above it; one that exists is left alone. -/
  createFolders : LocalPath → m (Except FileError Unit)

def FileAccess.readText [Monad m] (files : FileAccess m) (path : LocalPath) :
    m (Except FileError String) := do
  match ← files.read path with
  | .error error => return .error error
  | .ok content =>
    match String.fromUTF8? content with
    | some text => return .ok text
    | none => return .error .notText

def FileAccess.writeText (files : FileAccess m) (path : LocalPath) (text : String) :
    m (Except FileError Unit) :=
  files.write path text.toUTF8

end Reconcile
