import StoryAsm.Debug.Registry
import StoryAsm.Log
import StoryAsm.Operand.Pool
import StoryAsm.Routine.Basic
import StoryAsm.World.Basic
import StoryAsm.World.Object

/-!
# Stories

A story holds every definition of one story file. Operations on it run in `StoryM`; an operation
that fails leaves behind what it did before it failed.
-/

namespace StoryAsm

structure Story where
  version : Version
  wantsDebug : Bool
  symbols : SymbolTable := {}
  pool : Pool := {}
  constants : Array (String × Operand) := #[]
  globals : Array Global := #[]
  tables : Array Table := #[]
  routines : Array Routine := #[]
  /-- The routine that the story starts with. -/
  entryPoint : Option RoutineId := none
  objects : Array Object := #[]
  properties : Array Property := #[]
  flags : Array Flag := #[]
  words : Array Word := #[]
  registry : Registry := {}
  /-- What happened so far. -/
  log : Array Log.Event := #[]

/-- Operations on a story, over a monad that gives access to the world outside. -/
abbrev StoryT (m : Type → Type) := ExceptT EmitError (StateT Story m)

/-- Operations on a story alone. -/
abbrev StoryM := StoryT Id

namespace Story

/-- A story without definitions. -/
def new (version : Int) (wantsDebug : Bool) : Except EmitError Story := do
  let version ← Version.ofInt version
  return { version, wantsDebug, log := #[.newStory version] }

/-- An operation on the story alone as an operation over any monad. -/
def lift {m : Type → Type} [Monad m] {α : Type} (operation : StoryM α) : StoryT m α :=
  ExceptT.mk fun story => pure (operation.run.run story)

/-- Add an event to the log. -/
def report {m : Type → Type} [Monad m] (event : Log.Event) : StoryT m Unit :=
  modify fun story => { story with log := story.log.push event }

/-! ## Operands -/

def makeNumber (value : Int) : StoryM Operand.Instance :=
  modifyGet fun story =>
    let (number, pool) := story.pool.number value
    (number, { story with pool })

def makeString (content : String) : StoryM Operand.Instance :=
  modifyGet fun story =>
    let (string, pool) := story.pool.string content
    (string, { story with pool })

/-! ## Parts of a story -/

/-- Change one element of an array, if it exists. -/
def modifyGlobal (id : GlobalId) (change : Global → Global) : StoryM Unit :=
  modify fun story => { story with globals := story.globals.modify id.index change }

def modifyProperty (id : PropertyId) (change : Property → Property) : StoryM Unit :=
  modify fun story => { story with properties := story.properties.modify id.index change }

def modifyTable (id : TableId) (change : Table → Table) : StoryM Unit :=
  modify fun story => { story with tables := story.tables.modify id.index change }

def modifyWord (id : WordId) (change : Word → Word) : StoryM Unit :=
  modify fun story => { story with words := story.words.modify id.index change }

def modifyObject (id : ObjectId) (change : Object → Object) : StoryM Unit :=
  modify fun story => { story with objects := story.objects.modify id.index change }

/-- Give an object a property. -/
def addProperty (id : ObjectId) (property : PropertyId) (value : Object → PropertyValue) :
    StoryM Unit := do
  let story ← get
  match story.objects[id.index]? with
  | none => throw .unknownHandle
  | some object =>
    match object.addProperty property (value object) with
    | .error error => throw error
    | .ok object => modifyObject id fun _ => object

def addByteProperty (id : ObjectId) (property : PropertyId) (value : Operand) : StoryM Unit :=
  addProperty id property fun _ => .byte value

def addWordProperty (id : ObjectId) (property : PropertyId) (value : Operand) : StoryM Unit :=
  addProperty id property fun _ => .word value

/-- Give an object a property with a table, which is empty at first. -/
def addTableProperty (id : ObjectId) (property : PropertyId) : StoryM Unit :=
  addProperty id property fun object => .table (object.emptyTable property)

/-- Make an object the first child of another. -/
def insertInto (child parent : ObjectId) : StoryM Unit := do
  let story ← get
  let first := (story.objects[parent.index]?).bind (·.child)
  modifyObject child fun object => { object with parent := some parent, sibling := first }
  modifyObject parent fun object => { object with child := some child }

/-- An operation on one routine of the story. -/
def onRoutine {α : Type} (id : RoutineId) (operation : RoutineM α) : StoryM α := do
  let story ← get
  match story.routines[id.index]? with
  | none => throw .unknownHandle
  | some routine =>
    let (result, routine) := operation.run.run routine
    set { story with routines := story.routines.modify id.index fun _ => routine }
    match result with
    | .ok value => return value
    | .error error => throw error

/-! ## Debug information -/

/-- An operation on the debug registry. -/
def onRegistry {α : Type} (operation : Registry → α × Registry) : StoryM α :=
  modifyGet fun story =>
    let (result, registry) := operation story.registry
    (result, { story with registry })

/-- Put a directive for the start of a span before the next line of a routine, if debug
information is wanted. -/
def markSequencePoint (id : RoutineId) (span : Span) : StoryM Unit := do
  let story ← get
  if story.wantsDebug then
    let record ← onRegistry (·.lineRecord span)
    onRoutine id (Routine.addDebug record)

end Story

end StoryAsm
