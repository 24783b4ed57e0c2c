import Reconcile.CommandLine.Run

namespace Reconcile

/-- The reason for a failed call to the file system of the machine. -/
def FileError.ofSystem : IO.Error → FileError
  | .noFileOrDirectory .. => .notFound
  | .permissionDenied .. => .permissionDenied
  | .alreadyExists .. => .alreadyExists
  | .inappropriateType _ 20 _ => .notDirectory
  | .inappropriateType _ 21 _ => .isDirectory
  | error => .other (toString error)

def attemptOnFiles (action : IO α) : IO (Except FileError α) := do
  match ← action.toBaseIO with
  | .ok value => return .ok value
  | .error error => return .error (.ofSystem error)

def machineFiles : FileAccess IO where
  isPresent path := do
    let place := (← IO.currentDir) / path.display
    if path.display = "" then return false else place.pathExists
  isFile path := return (← attemptOnFiles (IO.FS.readBinFile path.display)).toBool
  read path := attemptOnFiles (IO.FS.readBinFile path.display)
  write path content := attemptOnFiles (IO.FS.writeBinFile path.display content)
  makeWritable path := attemptOnFiles do
    let all : IO.AccessRight := { read := true, write := true }
    IO.setAccessRights path.display { user := all, group := all, other := all }
  createFolders path := attemptOnFiles do
    if path.display ≠ "" then IO.FS.createDirAll path.display

def userConfig : IO (Option LocalPath) := do
  let settingsFolder ← IO.getEnv "XDG_CONFIG_HOME"
  let home ← IO.getEnv "HOME"
  return Config.defaultPath? (settingsFolder.map LocalPath.ofString) (home.map LocalPath.ofString)

end Reconcile

open Reconcile in
/-- Hands the arguments, the environment and the file system of the machine to the library, shows
    what comes back and ends with its exit code. -/
def main (args : List String) : IO UInt32 := do
  let ending ← runArguments machineFiles (← userConfig) args
  (← IO.getStdout).putStr ending.shown
  (← IO.getStderr).putStr ending.warned
  return ending.code.toUInt32
