import StoryAsm.Files.Error
import StoryAsm.Files.Path

/-!
# Disks

What a program needs of a file system. The real one is a disk over input and output; `Tree` is one that
can be reasoned about.
-/

namespace StoryAsm

structure Disk (m : Type → Type) where
  /-- The path of the directory in which relative paths start. -/
  current : m String
  /-- Something exists at the path. -/
  has : (path : String) → m Bool
  read : (path : String) → m (Except DiskError String)
  /-- Create the file or replace its text. -/
  write : (path text : String) → m (Except DiskError Unit)
  isDirectory : (path : String) → m Bool
  /-- Create one directory. -/
  makeDir : (path : String) → m (Except DiskError Unit)

namespace Disk

variable {m : Type → Type} [Monad m]

/-- The failure to create a directory does not matter if there is one. -/
def unlessDirectory (disk : Disk m) (path : String) (error : DiskError) :
    m (Except DiskError Unit) := do
  if ← disk.isDirectory path then return .ok () else return .error error

/-- Create the first of some directories, each of which is below the next. Those above are created
only if it cannot be created without them. -/
def makeChain (disk : Disk m) : List String → m (Except DiskError Unit)
  | [] => return .ok ()
  | path :: above => do
    match ← disk.makeDir path with
    | .ok () => return .ok ()
    | .error .notFound =>
      match ← disk.makeChain above with
      | .error error => return .error error
      | .ok () =>
        match ← disk.makeDir path with
        | .ok () => return .ok ()
        | .error error => disk.unlessDirectory path error
    | .error error => disk.unlessDirectory path error

/-- Create a directory and those above it, as far as they do not exist. -/
def makeDirs (disk : Disk m) (path : String) : m (Except DiskError Unit) :=
  disk.makeChain (Path.ancestors path)

end Disk

end StoryAsm
