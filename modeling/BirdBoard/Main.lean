import BirdBoard.CommandLine.Run

/-! # The program

  The command line on the real file system.
-/

namespace BirdBoard.CommandLine

/-- The refusal that an error of the system stands for. -/
def OsError.ofIO : IO.Error → OsError
  | .noFileOrDirectory .. => .noEntry
  | .alreadyExists .. => .taken
  | .inappropriateType _ 20 _ => .notDirectory
  | .inappropriateType _ 21 _ => .isDirectory
  | e => .other (toString e)

/-- Runs an action and catches the refusal of the system. -/
def attempt {α : Type} (action : IO α) : IO (Except OsError α) := do
  match ← action.toBaseIO with
  | .ok a => return .ok a
  | .error e => return .error (.ofIO e)

/-- Opens a file, then reads it. -/
def readSystemFile (path : String) : IO (Except OsError (Except OsError ByteArray)) := do
  match ← attempt (IO.FS.Handle.mk path .read) with
  | .error e => return .error e
  | .ok handle => return .ok (← attempt handle.readBinToEnd)

/-- The file operations on the real file system. What opens but cannot be read because it is a directory is one. -/
def systemAccess : FileAccess IO where
  read := readSystemFile
  write path bytes := attempt (IO.FS.writeBinFile path bytes)
  makeDir path := attempt (IO.FS.createDir path)
  isDir path := do
    match ← readSystemFile path with
    | .ok (.error .isDirectory) => return true
    | _ => return false

end BirdBoard.CommandLine

open BirdBoard.CommandLine

/-- Runs the program and prints what it gives back. -/
def main (args : List String) : IO UInt32 := do
  let outcome ← run systemAccess args
  (← IO.getStdout).putStr outcome.stdout
  (← IO.getStderr).putStr outcome.stderr
  return UInt32.ofNat outcome.exitCode
