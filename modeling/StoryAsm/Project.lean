import StoryAsm.Manifest.Build
import StoryAsm.Manifest.Text
import StoryAsm.Output.Files
import StoryAsm.Symbol.Dump

/-!
# Projects

A project is a directory with a manifest. It is started with a sample manifest, and it is built into the
files of its story. All operations run over a disk.
-/

namespace StoryAsm

/-- Why an operation on a project failed. -/
inductive ProjectError where
  | read (path : String) (cause : DiskError)
  | write (path : String) (cause : DiskError)
  /-- The file is no manifest. -/
  | parse (path : String) (flaw : Manifest.Flaw)
  | alreadyExists (path : String)
  | build (cause : BuildError)
  deriving DecidableEq

def ProjectError.message : ProjectError → String
  | .read path cause => s!"failed to read {path}: {cause.message}"
  | .write path cause => s!"failed to write {path}: {cause.message}"
  | .parse path flaw => s!"failed to parse {path}: {flaw.message}"
  | .alreadyExists path => s!"{path} already exists"
  | .build cause => cause.message

/-- Operations on projects: they can fail, and they keep a log. -/
abbrev ProjectT (m : Type → Type) := ExceptT ProjectError (StateT (Array Log.Event) m)

namespace Project

variable {m : Type → Type} [Monad m]

/-- Run an action on a disk, and give its failure as one of the project. -/
def onDisk {α : Type} (error : DiskError → ProjectError) (action : m (Except DiskError α)) :
    ProjectT m α := do
  match ← (action : m (Except DiskError α)) with
  | .ok value => return value
  | .error cause => throw (error cause)

def report (events : Array Log.Event) : ProjectT m Unit :=
  modify (· ++ events)

/-- Read a manifest. -/
def load (disk : Disk m) (path : String) : ProjectT m Manifest := do
  let text ← onDisk (.read path) (disk.read path)
  match Manifest.parse text with
  | .ok manifest => return manifest
  | .error flaw => throw (.parse path flaw)

/-- Write a manifest into a directory. The result is the path of the file. -/
def save (disk : Disk m) (manifest : Manifest) (dir : String) : ProjectT m String := do
  let path := Path.join dir Manifest.fileName
  onDisk (.write path) (disk.write path manifest.render)
  return path

/-- Start a project in a directory, which gives it its name unless there is another. -/
def init (disk : Disk m) (dir : String) (name : Option String) : ProjectT m String := do
  let name := (name.or (Path.fileName? dir)).getD "mygame"
  let path := Path.join dir Manifest.fileName
  if ← (disk.has path : m Bool) then throw (.alreadyExists path)
  onDisk (.write dir) (disk.makeDirs dir)
  let path ← save disk (.sample name) dir
  report #[.createdManifest name path]
  return path

/-- What a build leaves behind. -/
structure Built where
  /-- The paths of the files that were written. -/
  files : List String
  symbols : SymbolTable

/-- Build the story of a manifest into the directory of the settings. -/
def build (disk : Disk m) (manifest : Manifest) (settings : BuildSettings) (source : String) :
    ProjectT m Built := do
  let dir := settings.outDir
  let sink := Sink.files disk dir settings.outName settings.forceFrequentWords
  let segments : List Segment :=
    [.main, .data, .strings]
      ++ if ← (sink.keepsFrequentWords : m Bool) then [] else [.frequentWords]
  match manifest.story settings source with
  | .error failure =>
    report failure.log
    throw (.build failure.cause)
  | .ok story =>
    let (result, finished) ← ((Story.finish sink).run.run story : m _)
    report finished.log
    match result with
    | .error error => throw (.build (.emit error))
    | .ok () =>
      return { files := segments.map (·.path dir settings.outName), symbols := story.symbols }

end Project

end StoryAsm
