import StoryAsm.Files.Disk
import StoryAsm.Files.Path
import StoryAsm.Output.Sink

/-!
# Segments in files

A sink that writes each segment to a file of its own, all in one directory.
-/

namespace StoryAsm

/-- The path of a segment's file. -/
def Segment.path (dir base : String) (segment : Segment) : String :=
  Path.join dir (segment.fileName base)

namespace Sink

variable {m : Type → Type} [Monad m]

/-- The sink for a directory, which is created if it does not exist. A frequent-words file that exists
is kept unless it has to be written. -/
def files (disk : Disk m) (dir base : String) (forceFrequentWords : Bool) : Sink m where
  base := base
  keepsFrequentWords :=
    if forceFrequentWords then pure false else disk.has (Segment.frequentWords.path dir base)
  create segment := do
    match ← disk.makeDirs dir with
    | .error error => return .error error
    | .ok () => disk.write (segment.path dir base) ""
  write segment text := disk.write (segment.path dir base) text
  flush _ := return .ok ()

end Sink

end StoryAsm
