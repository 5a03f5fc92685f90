import StoryAsm.Code.Buffer
import StoryAsm.Debug.Registry
import StoryAsm.Routine.Emission
import StoryAsm.Statement
import StoryAsm.Symbol.Name

/-!
# Routines

A routine collects parameters, local variables and lines until it is finished. After that it has a
body and takes no more of them.
-/

namespace StoryAsm

/-- A parameter or local variable. -/
structure Local where
  name : String
  value : Option Operand := none

def Local.operand (slot : Local) : Operand :=
  .var slot.name .routine

structure Routine where
  name : String
  version : Version
  isEntryPoint : Bool
  /-- Remove results of calls that nobody wants from the stack. -/
  cleansStack : Bool
  required : Array Local := #[]
  optional : Array Local := #[]
  locals : Array Local := #[]
  buffer : Buffer Instr := {}
  /-- The number of the next label. It stays below `2 ^ 32` unless that many calls are made on the routine. -/
  nextLabel : Nat := 0
  span : Option Span := none
  /-- The statements of a finished routine. -/
  body : Option (List Statement) := none

/-- Operations on a routine. An operation that fails may have changed the routine before. -/
abbrev RoutineM := ExceptT EmitError (StateM Routine)

namespace Routine

/-- Parameters and local variables share this many places. -/
def maxVariables : Nat := 15

def isFinished (routine : Routine) : Bool :=
  routine.body.isSome

def operand (routine : Routine) : Operand :=
  .symbol routine.name

/-- All variables: required parameters, optional parameters, local variables. -/
def slots (routine : Routine) : List Local :=
  routine.required.toList ++ routine.optional.toList ++ routine.locals.toList

/-- Fail if the routine is finished. -/
def ensureOpen : RoutineM Unit := do
  let routine ← get
  if routine.isFinished then throw (.routineFinished routine.name)

/-! ## Variables -/

/-- Check that a variable can be declared. -/
def declare (name : String) (value : Option Operand) : RoutineM Local := do
  ensureOpen
  let routine ← get
  if routine.isEntryPoint then throw (.entryPointVariables routine.name)
  let symbol := Symbol.ofName name
  if routine.slots.any (·.name == symbol) then throw (.duplicateSymbol symbol)
  if maxVariables ≤ routine.slots.length then
    throw (.tooManyVariables routine.name maxVariables)
  return { name := symbol, value }

def addRequired (name : String) : RoutineM Operand := do
  let new ← declare name none
  modify fun routine => { routine with required := routine.required.push new }
  return new.operand

def addOptional (name : String) (value : Option Operand) : RoutineM Operand := do
  let new ← declare name value
  modify fun routine => { routine with optional := routine.optional.push new }
  return new.operand

def addLocal (name : String) (value : Option Operand) : RoutineM Operand := do
  let new ← declare name value
  modify fun routine => { routine with locals := routine.locals.push new }
  return new.operand

/-! ## Labels and debug directives -/

/-- A label that was not issued before. Also a finished routine issues labels. -/
def newLabel : RoutineM Label := do
  let routine ← get
  set { routine with nextLabel := routine.nextLabel + 1 }
  return .point routine.nextLabel

/-- Place a label before the next line. The labels that return cannot be placed. -/
def markLabel (label : Label) : RoutineM Unit := do
  ensureOpen
  match label with
  | .point _ => modify fun routine => { routine with buffer := routine.buffer.markLabel label }
  | _ => throw (.unplaceableLabel label)

/-- Put a debug directive before the next line. -/
def addDebug (record : String) : RoutineM Unit := do
  ensureOpen
  modify fun routine => { routine with buffer := routine.buffer.addDebug record }

def setSpan (span : Span) : RoutineM Unit :=
  modify fun routine => { routine with span := some span }

/-! ## Code -/

def addLine (body : LineBody Instr) : RoutineM Unit := do
  ensureOpen
  modify fun routine => { routine with buffer := routine.buffer.addLine body }

/-- Check an emission and add its lines. -/
def emit (emission : Emission) : RoutineM Unit := do
  let routine ← get
  match emission.lines routine.version routine.cleansStack with
  | .error error => throw error
  | .ok bodies =>
    ensureOpen
    bodies.forM addLine

end Routine

end StoryAsm
