import StoryAsm.Code.Fusion
import StoryAsm.Proofs.Code.Machine

/-!
# A processor for instructions

What the instructions that are fused do (`Primitive`), and those that fusion makes of them. Every other
instruction does with the values of its operands and with the state what the processor says
(`Processor.other`). Operands are texts: `STACK` takes a value from the stack, the name of a variable
stands for its value, and every other text has a fixed value.

The kind of a line decides where control goes (`Processor.machine`).
-/

namespace StoryAsm

/-- A machine word. -/
abbrev Cell := BitVec 16

/-- The two ways to step a variable, and the comparison that belongs to each. -/
inductive Direction where
  | up
  | down
  deriving DecidableEq

namespace Direction

def step : Direction → Cell → Cell
  | up, value => value + 1
  | down, value => value - 1

/-- The first value lies behind the second, in the order of signed numbers. -/
def beyond : Direction → Cell → Cell → Bool
  | up, value, bound => bound.slt value
  | down, value, bound => value.slt bound

end Direction

/-- The instructions that fusion knows. -/
inductive Primitive where
  | push
  | pop
  | returnStack
  | returnValue
  | returnTrue
  | returnFalse
  | step (direction : Direction)
  | compare (direction : Direction)
  | stepCompare (direction : Direction)
  | newLine
  | print
  | printReturn
  | newLineReturn
  deriving DecidableEq

namespace Primitive

def name : Primitive → String
  | push => "PUSH"
  | pop => "POP"
  | returnStack => "RSTACK"
  | returnValue => "RETURN"
  | returnTrue => "RTRUE"
  | returnFalse => "RFALSE"
  | step .up => "INC"
  | step .down => "DEC"
  | compare .up => "GRTR?"
  | compare .down => "LESS?"
  | stepCompare .up => "IGRTR?"
  | stepCompare .down => "DLESS?"
  | newLine => "CRLF"
  | print => "PRINTI"
  | printReturn => "PRINTR"
  | newLineReturn => Instr.newlineReturn

def all : List Primitive :=
  [push, pop, returnStack, returnValue, returnTrue, returnFalse, step .up, step .down, compare .up,
    compare .down, stepCompare .up, stepCompare .down, newLine, print, printReturn, newLineReturn]

/-- The primitive with the given mnemonic. -/
def ofName? (name : String) : Option Primitive :=
  all.find? (·.name = name)

@[simp] theorem ofName?_name (primitive : Primitive) : ofName? primitive.name = some primitive := by
  cases primitive with
  | step direction | compare direction | stepCompare direction => cases direction <;> rfl
  | _ => rfl

end Primitive

namespace Processor

structure State (ω : Type) where
  vars : String → Cell
  stack : List Cell
  output : String
  /-- All that only other instructions deal with. -/
  world : ω

/-- What an instruction comes to that is not a primitive. -/
structure Result (ω : Type) extends Effect (State ω) Cell where
  /-- What is stored, if the instruction stores. -/
  result : Cell

namespace State

variable {ω : Type}

def push (value : Cell) (s : State ω) : State ω :=
  { s with stack := value :: s.stack }

def set (name : String) (value : Cell) (s : State ω) : State ω :=
  { s with vars := fun other => if other = name then value else s.vars other }

def print (text : String) (s : State ω) : State ω :=
  { s with output := s.output ++ text }

/-- Store in a variable or on the stack. -/
def store (name : String) (value : Cell) (s : State ω) : State ω :=
  if name = "STACK" then s.push value else s.set name value

end State

end Processor

structure Processor (ω : Type) where
  /-- The text is read as a variable. -/
  isVariable : String → Bool
  /-- What other texts stand for. -/
  value : String → Cell
  value_number : ∀ number : Int, value (toString number) = BitVec.ofInt 16 number
  /-- What a quoted text prints. -/
  printed : String → String
  /-- What an empty stack gives. -/
  bottom : Cell
  /-- Instructions that are not primitives, given the values of their operands. -/
  other : String → List Cell → Processor.State ω → Processor.Result ω

namespace Processor

variable {ω : Type} (Z : Processor ω)

/-! ## Operands -/

def pop (s : State ω) : Cell × State ω :=
  match s.stack with
  | [] => (Z.bottom, s)
  | value :: rest => (value, { s with stack := rest })

/-- The value of an operand. -/
def read (text : String) (s : State ω) : Cell × State ω :=
  if text = "STACK" then Z.pop s
  else (if Z.isVariable text then s.vars text else Z.value text, s)

/-- The values of operands, from left to right. -/
def readAll : List String → State ω → List Cell × State ω
  | [], s => ([], s)
  | text :: rest, s =>
    let (value, s) := Z.read text s
    let (values, s) := readAll rest s
    (value :: values, s)

/-- The value of a variable that is given as a reference. -/
def readVariable (name : String) (s : State ω) : Cell × State ω :=
  if name = "STACK" then Z.pop s else (s.vars name, s)

/-- Step a variable. The new value is returned too. -/
def stepVariable (direction : Direction) (name : String) (s : State ω) : Cell × State ω :=
  let (value, s) := Z.readVariable name s
  (direction.step value, s.store name (direction.step value))

/-! ## Instructions -/

/-- An effect without condition or returned value. -/
def done (s : State ω) : Effect (State ω) Cell where
  state := s
  holds := false
  value := 0

/-- An instruction that is not a primitive. -/
def effectOther (instr : Instr) (s : State ω) : Effect (State ω) Cell :=
  let (values, s) := Z.readAll instr.args s
  let result := Z.other instr.op values s
  { result.toEffect with
    state :=
      match instr.store with
      | some dest => result.state.store dest result.result
      | none => result.state }

def effect (instr : Instr) (s : State ω) : Effect (State ω) Cell :=
  match Primitive.ofName? instr.op, instr.args with
  | some .push, [arg] =>
    let (value, s) := Z.read arg s
    done (s.push value)
  | some .pop, [arg] =>
    match Fusion.referenced? arg with
    | some dest =>
      let (value, s) := Z.pop s
      done (s.store dest value)
    | none => Z.effectOther instr s
  | some .returnStack, _ =>
    let (value, s) := Z.pop s
    { done s with value }
  | some .returnValue, [arg] =>
    let (value, s) := Z.read arg s
    { done s with value }
  | some .returnTrue, _ => { done s with value := 1 }
  | some .returnFalse, _ => { done s with value := 0 }
  | some (.step direction), [arg] =>
    match Fusion.referenced? arg with
    | some name => done (Z.stepVariable direction name s).2
    | none => Z.effectOther instr s
  | some (.compare direction), [left, right] =>
    let (value, s) := Z.read left s
    let (bound, s) := Z.read right s
    { done s with holds := direction.beyond value bound }
  | some (.stepCompare direction), [arg, right] =>
    match Fusion.referenced? arg with
    | some name =>
      let (bound, s) := Z.read right s
      let (value, s) := Z.stepVariable direction name s
      { done s with holds := direction.beyond value bound }
    | none => Z.effectOther instr s
  | some .newLine, _ => done (s.print "\n")
  | some .print, [arg] => done (s.print (Z.printed arg))
  | some .printReturn, [arg] => { done ((s.print (Z.printed arg)).print "\n") with value := 1 }
  | some .newLineReturn, _ => { done (s.print "\n") with value := 1 }
  | _, _ => Z.effectOther instr s

/-- The machine that runs lines of instructions. -/
def machine : Machine Instr :=
  .ofEffect (1 : Cell) 0 Z.effect

end Processor

end StoryAsm
