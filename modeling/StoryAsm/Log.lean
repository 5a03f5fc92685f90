import StoryAsm.Symbol.Table
import StoryAsm.Version

/-!
# The log

Everything worth telling that happens while a story is built, as data.
-/

namespace StoryAsm.Log

inductive Level where
  | warn
  | info
  | debug
  | trace
  deriving DecidableEq

def Level.text : Level → String
  | .warn => "WARN"
  | .info => "INFO"
  | .debug => "DEBUG"
  | .trace => "TRACE"

inductive Event where
  | newStory (version : Version)
  | building (game : String) (version : Version)
  | defined (kind : SymbolKind) (name : String)
  | definedWord (symbol : String)
  | fusedLine (index : Nat)
  | droppedUnreachable
  | droppedJump
  | finishedRoutine (name : String) (lines : Nat)
  | noEntryPoint
  | wrote (file : String) (bytes : Nat)
  | kept (file : String)
  | createdManifest (game path : String)
  deriving DecidableEq

namespace Event

def level : Event → Level
  | noEntryPoint => .warn
  | createdManifest .. => .info
  | fusedLine _ | droppedUnreachable | droppedJump => .trace
  | newStory _ | building .. | defined .. | definedWord _ | finishedRoutine .. | wrote ..
  | kept _ => .debug

def message : Event → String
  | newStory version => s!"new module for version {version.text}"
  | building game version => s!"building '{game}' for version {version.text}"
  | defined kind name => s!"defined {kind.title} {name}"
  | definedWord symbol => s!"defined vocabulary word {symbol}"
  | fusedLine index => s!"peephole: fused line {index} with its successor"
  | droppedUnreachable => "peephole: dropped unreachable line"
  | droppedJump => "peephole: dropped jump to next line"
  | finishedRoutine name lines => s!"finished routine {name} ({lines} lines)"
  | noEntryPoint => "module has no entry point routine; START is undefined"
  | wrote file bytes => s!"wrote {file} ({bytes} bytes)"
  | kept file => s!"keeping existing {file}"
  | createdManifest game path => s!"created manifest for '{game}' at {path}"

/-- The level and the message on one line. -/
def text (event : Event) : String :=
  event.level.text ++ " " ++ event.message

end Event

end StoryAsm.Log
