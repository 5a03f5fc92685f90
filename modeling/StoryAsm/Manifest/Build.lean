import StoryAsm.Manifest.Basic
import StoryAsm.Story.Define
import StoryAsm.Story.Finish

/-!
# The story of a manifest

`Manifest.story` makes every definition of a manifest on a new story, then connects the definitions
by their values, flags, properties and parents, and ends with the routine that greets the player.
-/

namespace StoryAsm

/-- What a name in a manifest can stand for. -/
inductive Manifest.Role where
  | flag
  | property
  | object
  | symbol
  deriving DecidableEq

def Manifest.Role.text : Manifest.Role → String
  | .flag => "flag"
  | .property => "property"
  | .object => "object"
  | .symbol => "symbol"

/-- Why the story of a manifest cannot be built. -/
inductive BuildError where
  /-- No definition of the role has the name. -/
  | unknown (role : Manifest.Role) (name : String)
  | emit (error : EmitError)
  deriving DecidableEq

def BuildError.message : BuildError → String
  | .unknown role name => s!"unknown {role.text} '{name}'"
  | .emit error => error.message

/-- Building on a story. -/
abbrev BuildM := ExceptT BuildError (StateM Story)

/-- A build that failed, and what happened before. -/
structure BuildFailure where
  cause : BuildError
  log : Array Log.Event := #[]

namespace Manifest

def emit {α : Type} (operation : StoryM α) : BuildM α :=
  ExceptT.mk do
    match ← operation.run with
    | .ok value => return .ok value
    | .error error => return .error (.emit error)

/-- Handles by the symbols of the names that they were defined with. -/
abbrev Handles (ι : Type) := Std.TreeMap String ι

/-- The handle of a name in a role. -/
def find {ι : Type} (handles : Handles ι) (role : Role) (name : String) : BuildM ι :=
  match handles.get? (Symbol.ofName name) with
  | some handle => return handle
  | none => throw (.unknown role name)

/-- The operand of a value. A name must have been defined. -/
def resolve : Value → BuildM Operand
  | .number value => return (← emit (Story.makeNumber value)).operand
  | .symbol name => do
    let symbol := Symbol.ofName name
    if (← get).symbols.contains symbol then return .symbol symbol
    else throw (.unknown .symbol name)

/-- Define names one after the other. -/
def defineEach {ι : Type} (define : String → StoryM ι) (names : List String) : BuildM (List ι) :=
  names.mapM fun name => emit (define name)

/-- Handles of names, in the same order. -/
def handlesOf {ι : Type} (names : List String) (ids : List ι) : Handles ι :=
  (names.zip ids).foldl (fun handles (name, id) => handles.insert (Symbol.ofName name) id) {}

/-- Everything that can be referred to by role. -/
structure Defined where
  flags : Handles FlagId
  properties : Handles PropertyId
  objects : Handles ObjectId

/-- Describe an object and put it into its parent. -/
def describe (defined : Defined) (id : ObjectId) (thing : Thing) : BuildM Unit := do
  emit (Story.modifyObject id fun object => { object with description := thing.description })
  for name in thing.flags do
    let flag ← find defined.flags .flag name
    emit (Story.modifyObject id (·.setFlag flag))
  for (name, value) in thing.properties.toList do
    let property ← find defined.properties .property name
    let operand ← resolve value
    emit (Story.addWordProperty id property operand)
  if let some name := thing.parent then
    let parent ← find defined.objects .object name
    emit (Story.insertInto id parent)

/-- The default value of a slot, if it has one. -/
def slotValue (slot : Slot) : BuildM (Option Operand) :=
  slot.value.mapM resolve

/-- The routine that the story starts with: it prints the greeting and ends the game. `source` is the
place that debug information names. -/
def greet (greeting : String) (debug : Bool) (source : String) : StoryM Unit := do
  let go ← Story.defineRoutine "GO" true false
  if debug then
    let span := Span.point source 1 1
    Story.onRoutine go (Routine.setSpan span)
    Story.markSequencePoint go span
    Story.onRegistry fun registry => ((), registry.map "zapgen" "0.1.0")
  Story.onRoutine go do
    Routine.emit (.printText greeting)
    Routine.emit .newLine
    Routine.emit (.nullary .quit none)
  Story.finishRoutine go

/-- Make all definitions of a manifest. Values may name anything that is defined before them. -/
def define (manifest : Manifest) (settings : BuildSettings) (source : String) : BuildM Unit := do
  emit (Story.report (.building manifest.game.name (← get).version))
  let flags ← defineEach Story.defineFlag manifest.flags
  let propertyNames := manifest.properties.map (·.name)
  let properties ← defineEach Story.defineProperty propertyNames
  let objectNames := manifest.objects.map (·.name)
  let objects ← defineEach Story.defineObject objectNames
  let globals ← defineEach Story.defineGlobal (manifest.globals.map (·.name))
  let _ ← defineEach Story.defineWord manifest.vocabulary
  for (name, value) in manifest.constants.toList do
    let operand ← resolve value
    let _ ← emit (Story.defineConstant name operand)
  for (id, slot) in properties.zip manifest.properties do
    let value ← slotValue slot
    emit (Story.modifyProperty id fun property => { property with value })
  for (id, slot) in globals.zip manifest.globals do
    let value ← slotValue slot
    emit (Story.modifyGlobal id fun global => { global with value })
  let defined : Defined :=
    { flags := handlesOf manifest.flags flags
      properties := handlesOf propertyNames properties
      objects := handlesOf objectNames objects }
  for (id, thing) in objects.zip manifest.objects do
    describe defined id thing
  emit (greet manifest.game.greeting settings.debug source)

/-- The story of a manifest. It is not finished. -/
def story (manifest : Manifest) (settings : BuildSettings) (source : String) :
    Except BuildFailure Story :=
  match Story.new settings.version settings.debug with
  | .error error => .error { cause := .emit error }
  | .ok story =>
    match (manifest.define settings source).run.run story with
    | (.ok (), story) => .ok story
    | (.error cause, story) => .error { cause, log := story.log }

end Manifest

end StoryAsm
