import StoryAsm.CommandLine.Command
import StoryAsm.CommandLine.Help
import StoryAsm.Project

/-!
# Running commands

`CommandLine.run` carries out the command of some arguments over a disk and gives what is to be printed.
-/

namespace StoryAsm.CommandLine

/-- What a run prints, and how it ends. -/
structure Outcome where
  output : String := ""
  errors : String := ""
  /-- The failure of the command, if it was carried out. -/
  failure : Option ProjectError := none
  code : Nat := 0

variable {m : Type → Type} [Monad m]

/-- Run an operation on a project. Nothing is printed of its log. -/
def attempt (operation : ProjectT m Outcome) : m Outcome := do
  let (result, _) ← operation.run.run #[]
  match result with
  | .ok outcome => return outcome
  | .error failure =>
    return { errors := s!"error: {failure.message}\n", failure := some failure, code := 1 }

/-- Texts on lines of their own. -/
def lines (texts : List String) : String :=
  String.join (texts.map (· ++ "\n"))

/-- Start a project in the current directory. -/
def init (disk : Disk m) (name : Option String) : ProjectT m Outcome := do
  let dir ← (disk.current : m String)
  let path ← Project.init disk dir name
  return { output := lines [s!"Created {path}"] }

/-- The directory of a manifest. -/
def directoryOf (manifest : String) : String :=
  match Path.parent? manifest with
  | none | some "" => "."
  | some dir => dir

/-- The settings of a build: what the options say goes before the manifest. -/
def settingsFor (manifest : Manifest) (path : String) (options : BuildOptions) : BuildSettings :=
  let settings := manifest.settings {
    debug := options.debug
    outDir := options.out.getD (directoryOf path)
    forceFrequentWords := options.forceFrequentWords }
  { settings with version := options.version.getD settings.version }

/-- Build a project. The symbol table is written when the files are. -/
def build (disk : Disk m) (options : BuildOptions) : ProjectT m Outcome := do
  let path := options.manifest.getD Manifest.fileName
  let manifest ← Project.load disk path
  let built ← Project.build disk manifest (settingsFor manifest path options) path
  let output := lines (built.files.map ("wrote " ++ ·))
  match options.dump with
  | none => return { output }
  | some .standardError => return { output, errors := lines [built.symbols.dump] }
  | some (.file file) =>
    Project.onDisk (.write file) (disk.write file built.symbols.dump)
    return { output }

def run (disk : Disk m) (arguments : List String) : m Outcome :=
  match Command.ofArguments arguments with
  | .error (.help topic) => return { output := topic.text }
  | .error .wrongUsage => return { errors := usageText, code := 2 }
  | .ok (.init name) => attempt (init disk name)
  | .ok (.build options) => attempt (build disk options)
  | .ok (.sanitize names) => return { output := lines (names.map Symbol.ofName) }

end StoryAsm.CommandLine
