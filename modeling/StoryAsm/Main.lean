import StoryAsm.CommandLine.Run

/-!
# The program

The command line over the real file system.
-/

namespace StoryAsm

/-- The number of an error of the system, which some operations give with a minus sign. -/
def errorNumber (code : UInt32) : UInt32 :=
  if code < 0x80000000 then code else 0 - code

/-- The error with a number of the system, if it is one that is told apart. -/
def DiskError.ofNumber? : UInt32 → Option DiskError
  | 20 => some .notDirectory
  | 21 => some .isDirectory
  | 36 => some .nameTooLong
  | _ => none

def DiskError.ofSystem (error : IO.Error) : DiskError :=
  match error with
  | .noFileOrDirectory .. => .notFound
  | .alreadyExists .. => .alreadyExists
  | .inappropriateType _ code _ | .invalidArgument _ code _ =>
    (ofNumber? (errorNumber code)).getD (.other error.toString)
  | _ => .other error.toString

/-- Run an action on the file system, and give its failure as a value. -/
def catchDisk {α : Type} (action : IO α) : IO (Except DiskError α) := do
  match ← action.toBaseIO with
  | .ok value => return .ok value
  | .error error => return .error (.ofSystem error)

/-- The file system of the machine. -/
def systemDisk : Disk IO where
  current := return (← IO.currentDir).toString
  has path := do
    if path = "" then return false
    let dir ← IO.currentDir
    (dir / path).pathExists
  read path := catchDisk (IO.FS.readFile path)
  write path text := catchDisk (IO.FS.writeFile path text)
  isDirectory path := do
    if path = "" then return false
    let dir ← IO.currentDir
    (dir / path).isDir
  makeDir path := catchDisk (IO.FS.createDir path)

end StoryAsm

def main (arguments : List String) : IO UInt32 := do
  let outcome ← StoryAsm.CommandLine.run StoryAsm.systemDisk arguments
  IO.print outcome.output
  IO.eprint outcome.errors
  return outcome.code.toUInt32
