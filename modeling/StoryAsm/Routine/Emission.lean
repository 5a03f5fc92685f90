import StoryAsm.Code.Instr
import StoryAsm.Operand.Basic
import StoryAsm.Routine.Opcode
import StoryAsm.Text.Quoted

/-!
# Emissions

An emission is something that a routine is told to do. Its operands are checked and the lines that
carry it out are selected here, for the version of the story. Some emissions have shorter lines
than the plain ones: steps by one, moves to and from the stack, returns of true and false.
-/

namespace StoryAsm

open Text

inductive Emission where
  | jump (target : Label)
  | branch (condition : Condition) (left right : Option Operand) (target : Label)
      (positive : Bool)
  /-- Branch if the left value equals one of the others. -/
  | branchEqual (left : Operand) (rights : List Operand) (target : Label) (positive : Bool)
  | branchZero (value : Operand) (target : Label) (positive : Bool)
  /-- Store the first child of an object, and branch if there is one. -/
  | getChild (object dest : Operand) (target : Label) (positive : Bool)
  /-- Store the next sibling of an object, and branch if there is one. -/
  | getSibling (object dest : Operand) (target : Label) (positive : Bool)
  | nullary (op : NullaryOp) (result : Option Operand)
  | unary (op : UnaryOp) (value : Operand) (result : Option Operand)
  | binary (op : BinaryOp) (left right : Operand) (result : Option Operand)
  | ternary (op : TernaryOp) (a b c : Operand)
  | store (dest source : Operand)
  | call (callee : Operand) (args : List Operand) (result : Option Operand)
  | ret (value : Operand)
  | print (op : PrintOp) (value : Operand)
  | printText (text : String)
  | newLine
  /-- Read a line of input, perhaps with an interval and a routine that is called then. -/
  | read (text parse : Operand) (timed : Option (Operand × Operand)) (result : Option Operand)
  /-- Search a table for a value, and store the address found. -/
  | scanTable (value table length : Operand) (form : Option Operand) (result : Operand)
      (target : Label) (positive : Bool)

namespace Emission

/-! ## Checks -/

def requireVariable (role : String) (operand : Operand) : Except EmitError Unit :=
  if operand.isVariable then .ok () else .error (.notVariable role operand.text)

/-- The store target of an instruction that produces a result. -/
def storeTarget (result : Option Operand) : Except EmitError (Option String) :=
  match result with
  | none => .ok none
  | some operand => do
    requireVariable "result" operand
    return some operand.text

/-- The store target of an instruction, which may have no result to store. -/
def opcodeTarget (opcode : Opcode) (result : Option Operand) :
    Except EmitError (Option String) :=
  if opcode.stores then storeTarget result
  else if result.isSome then .error (.noResult opcode.name)
  else .ok none

/-! ## Selection -/

def branchKind (positive : Bool) : LineKind :=
  if positive then .branchPositive else .branchNegative

/-- A line that branches. -/
def branchLine (code : Instr) (target : Label) (positive : Bool) : LineBody Instr where
  code := code
  target := some target
  kind := branchKind positive

def jumpLine : Label → LineBody Instr
  | .returnTrue => { code := { op := "RTRUE" }, kind := .terminator }
  | .returnFalse => { code := { op := "RFALSE" }, kind := .terminator }
  | target => { code := { op := "JUMP" }, target := some target, kind := .branchAlways }

def conditionLine (version : Version) (condition : Condition) (left right : Option Operand)
    (target : Label) (positive : Bool) : Except EmitError (LineBody Instr) := do
  let operandsFit :=
    match condition.arity, left, right with
    | 0, none, none => true
    | 1, some _, none => true
    | 2, some _, some _ => true
    | _, _, _ => false
  if !operandsFit then throw (.operandCount condition.name)
  if condition.stepsVariable then
    if let some operand := left then
      requireVariable s!"left operand of {condition.name}" operand
  let opcode ← Opcode.require condition.name version (condition.opcode? version)
  let write := if condition.takesReference then Operand.reference else Operand.text
  return branchLine
    { op := opcode.name
      args := left.toList.map write ++ right.toList.map Operand.text
      store := if opcode.stores then some Operand.stack.text else none }
    target positive

def treeLine (op : String) (object dest : Operand) (target : Label) (positive : Bool) :
    Except EmitError (LineBody Instr) := do
  let store ← storeTarget (some dest)
  return branchLine { op, args := [object.text], store } target positive

/-- The instruction that steps the destination by one, if that is what the operation does. -/
def step? (op : BinaryOp) (left right : Operand) (result : Option Operand) : Option Instr := do
  let dest ← result
  if !dest.isVariable then none
  let isOne (operand : Operand) : Bool := operand.number? == some 1
  match op with
  | .add =>
    if (dest = left ∧ isOne right) ∨ (dest = right ∧ isOne left) then
      some { op := "INC", args := [dest.reference] }
    else none
  | .sub =>
    if dest = left ∧ isOne right then some { op := "DEC", args := [dest.reference] } else none
  | _ => none

def binaryLine (version : Version) (op : BinaryOp) (left right : Operand)
    (result : Option Operand) : Except EmitError (LineBody Instr) :=
  match step? op left right result with
  | some code => .ok { code }
  | none => do
    let opcode ← Opcode.require op.name version (op.opcode? version)
    let store ← opcodeTarget opcode result
    return { code := { op := opcode.name, args := [left.text, right.text], store }
             kind := opcode.kind }

def unaryLine (version : Version) (op : UnaryOp) (value : Operand) (result : Option Operand) :
    Except EmitError (LineBody Instr) := do
  let opcode ← Opcode.require op.name version (op.opcode? version)
  let store ← opcodeTarget opcode result
  let args := if op = .neg then ["0", value.text] else [value.text]
  return { code := { op := opcode.name, args, store } }

def nullaryLine (version : Version) (op : NullaryOp) (result : Option Operand) :
    Except EmitError (LineBody Instr) := do
  let opcode ← Opcode.require op.name version (op.opcode? version)
  let store ← opcodeTarget opcode result
  return { code := { op := opcode.name, store }, kind := opcode.kind }

/-- The line that moves a value into a variable. Moving a variable to itself needs none. -/
def storeLine? (dest source : Operand) : Except EmitError (Option (LineBody Instr)) := do
  requireVariable "store destination" dest
  if dest = source then return none
  else if source.isStack then return some { code := { op := "POP", args := [dest.reference] } }
  else if dest.isStack then return some { code := { op := "PUSH", args := [source.text] } }
  else return some { code := { op := "SET", args := [dest.reference, source.text] } }

/-- The call instruction for a number of arguments, with or without a result. -/
def callName (version : Version) (count : Nat) (hasResult : Bool) : String :=
  if !version.hasSizedCalls then "CALL"
  else
    let name :=
      match count with
      | 0 => "CALL1"
      | 1 => "CALL2"
      | 2 | 3 => "CALL"
      | _ => "XCALL"
    if !hasResult && version.hasNoStoreCalls then "I" ++ name else name

/-- The lines of a call. Where a result that nobody wants is left on the stack, it is removed if
`cleanup` asks for it. -/
def callLines (version : Version) (cleanup : Bool) (callee : Operand) (args : List Operand)
    (result : Option Operand) : Except EmitError (List (LineBody Instr)) := do
  if version.maxCallArguments < args.length then
    throw (.tooManyArguments callee.text args.length version.maxCallArguments version.number)
  let store ← storeTarget result
  let call : LineBody Instr :=
    { code :=
        { op := callName version args.length result.isSome
          args := callee.text :: args.map Operand.text
          store } }
  if result.isNone && !version.hasNoStoreCalls && cleanup then
    return [call, { code := { op := "FSTACK" } }]
  else
    return [call]

def returnLine (value : Operand) : LineBody Instr where
  code :=
    if value.number? = some 1 then { op := "RTRUE" }
    else if value.number? = some 0 then { op := "RFALSE" }
    else if value.isStack then { op := "RSTACK" }
    else { op := "RETURN", args := [value.text] }
  kind := .terminator

def readLine (version : Version) (text parse : Operand) (timed : Option (Operand × Operand))
    (result : Option Operand) : Except EmitError (LineBody Instr) := do
  if timed.isSome && version.number < 4 then throw (.timedReadVersion version.number)
  if result.isSome && version.number < 5 then throw (.readResultVersion version.number)
  let store ← storeTarget result
  let timing := timed.toList.flatMap fun (interval, routine) => [interval.text, routine.text]
  return { code := { op := "READ", args := [text.text, parse.text] ++ timing, store } }

def scanLine (version : Version) (value table length : Operand) (form : Option Operand)
    (result : Operand) (target : Label) (positive : Bool) :
    Except EmitError (LineBody Instr) := do
  if version.number < 4 then throw (.unavailable "\"ScanTable\"" version.number)
  if form.isSome && version.number < 5 then throw .scanFormVersion
  let store ← storeTarget (some result)
  let args := [value.text, table.text, length.text] ++ form.toList.map Operand.text
  return branchLine { op := "INTBL?", args, store } target positive

/-- The lines of an emission. -/
def lines (version : Version) (cleanup : Bool) :
    Emission → Except EmitError (List (LineBody Instr))
  | jump target => .ok [jumpLine target]
  | branch condition left right target positive => do
    return [← conditionLine version condition left right target positive]
  | branchEqual left rights target positive =>
    if rights.length = 0 ∨ 3 < rights.length then .error (.comparisonCount rights.length)
    else
      .ok [branchLine { op := "EQUAL?", args := left.text :: rights.map Operand.text }
        target positive]
  | branchZero value target positive =>
    .ok [branchLine { op := "ZERO?", args := [value.text] } target positive]
  | getChild object dest target positive => do
    return [← treeLine "FIRST?" object dest target positive]
  | getSibling object dest target positive => do
    return [← treeLine "NEXT?" object dest target positive]
  | nullary op result => do return [← nullaryLine version op result]
  | unary op value result => do return [← unaryLine version op value result]
  | binary op left right result => do return [← binaryLine version op left right result]
  | ternary op a b c => do
    let opcode ← Opcode.require op.name version (op.opcode? version)
    return [{ code := { op := opcode.name, args := [a.text, b.text, c.text] } }]
  | store dest source => do return (← storeLine? dest source).toList
  | call callee args result => callLines version cleanup callee args result
  | ret value => .ok [returnLine value]
  | print op value => do
    let opcode ← Opcode.require op.name version (op.opcode? version)
    return [{ code := { op := opcode.name, args := [value.text] } }]
  | printText text => .ok [{ code := { op := "PRINTI", args := [quote text] } }]
  | newLine => .ok [{ code := { op := "CRLF" } }]
  | read text parse timed result => do return [← readLine version text parse timed result]
  | scanTable value table length form result target positive => do
    return [← scanLine version value table length form result target positive]

end Emission

end StoryAsm
