import StoryAsm.Code.Flush
import StoryAsm.Code.Fusion
import StoryAsm.Routine.Basic

/-!
# Finishing a routine

The body of a finished routine is its head, the assignments of default values where the head cannot
hold them, and its lines after clean-up. Debug directives around it tell where it stands in the source.
-/

namespace StoryAsm

open Text

namespace Routine

/-! ## Default values -/

/-- Assign a default value. -/
def assignLine (slot : Local) (value : Operand) : LineBody Instr where
  code := { op := "SET", args := [slot.operand.reference, value.text] }

/-- Assign the default value of an optional parameter, unless the caller gave one. The label is
the one behind the assignment. -/
def assignMissing (buffer : Buffer Instr) (param : Local) (value : Operand) (skip : Label) :
    Buffer Instr :=
  let test : LineBody Instr :=
    { code := { op := "ASSIGNED?", args := [param.operand.reference] }
      target := some skip
      kind := .branchPositive }
  ((buffer.addLine test).addLine (assignLine param value)).markLabel skip

/-- The assignments for optional parameters, with labels numbered from `next`; and the next free
number. -/
def optionalDefaults (params : List Local) (next : Nat) : Buffer Instr × Nat :=
  params.foldl (fun (buffer, next) param =>
    match param.value with
    | some value => (assignMissing buffer param value (.point next), next + 1)
    | none => (buffer, next)) ({}, next)

/-- Add the assignments for local variables. -/
def localDefaults (buffer : Buffer Instr) (locals : List Local) : Buffer Instr :=
  locals.foldl (fun buffer slot =>
    match slot.value with
    | some value => buffer.addLine (assignLine slot value)
    | none => buffer) buffer

/-- The assignments of default values that the head of the routine cannot hold, and the next free
label. -/
def prologue (routine : Routine) : Buffer Instr × Nat :=
  if routine.version.hasHeaderDefaults then ({}, routine.nextLabel)
  else
    let (buffer, next) := optionalDefaults routine.optional.toList routine.nextLabel
    (localDefaults buffer routine.locals.toList, next)

/-! ## The body -/

/-- All lines of the routine: prologue and code. -/
def fullBuffer (routine : Routine) : Buffer Instr :=
  routine.prologue.1 ++ routine.buffer

def flushed (routine : Routine) : Flushed Instr :=
  routine.fullBuffer.flush Fusion.combine

/-- The head of the routine: name and variables, with default values if the head holds them. -/
def headStatement (routine : Routine) : Statement :=
  let withValue (slot : Local) : String × Option String :=
    (slot.name,
      if routine.version.hasHeaderDefaults then slot.value.map (·.text) else none)
  .routine routine.name
    (routine.required.toList.map (fun slot => (slot.name, none)) ++
      (routine.optional.toList ++ routine.locals.toList).map withValue)

/-- The directive in front of a routine that stands in the file with the given id. -/
def startRecord (routine : Routine) (file : Nat) (span : Span) : String :=
  s!".DEBUG-ROUTINE {file},{span.startLine},{span.startColumn}," ++
    ",".intercalate (quote routine.name :: routine.slots.map fun slot =>
      quote slot.name)

/-- The directive behind a routine. -/
def endRecord (file : Nat) (span : Span) : String :=
  s!".DEBUG-ROUTINE-END {file},{span.endLine},{span.endColumn}"

/-- The statements of a flushed buffer. -/
def codeStatements (flushed : Flushed Instr) : List Statement :=
  flushed.lines.map .code ++ flushed.trailingDebug.map .debug ++
    flushed.trailingLabel.toList.map .lastLabel

/-- The body of the routine. `place` is where it stands in the source, if that is to be told. -/
def statements (routine : Routine) (place : Option (Nat × Span)) : List Statement :=
  [.blank] ++
  place.toList.map (fun (file, span) => .debug (routine.startRecord file span)) ++
  [routine.headStatement] ++
  (if routine.isEntryPoint then [.label "START"] else []) ++
  codeStatements routine.flushed ++
  place.toList.map (fun (file, span) => .debug (endRecord file span))

/-- The routine with its body. -/
def finish (routine : Routine) (place : Option (Nat × Span)) : Routine :=
  { routine with
    body := some (routine.statements place)
    buffer := {}
    nextLabel := routine.prologue.2 }

/-- What finishing the routine reports. -/
def finishEvents (routine : Routine) : List Log.Event :=
  routine.fullBuffer.flushEvents Fusion.combine ++
    [.finishedRoutine routine.name routine.flushed.lines.length]

end Routine

end StoryAsm
