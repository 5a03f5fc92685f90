import StoryAsm.Proofs.Routine.History

/-!
# Shorter lines

Sums and differences, moves and returns have a plain form: take the values of the operands, from left to
right, and store or return what comes out (`Plain.work`). A routine selects a shorter line where it can:
it steps a variable, pushes, pops, returns true or false, or leaves out a move that does nothing. A line
consists of texts, and what it does depends on what they are read as (`Reading.work`). Whatever is
selected, it does the work of the plain form from every memory with enough values on the stack, if the
texts of the operands are read as those operands (`Routine.carriedOut_emit`). They can be read so if and
only if different operands have different texts (`Operand.exists_reading_iff`).
-/

namespace StoryAsm

/-- What the lines of a routine work on. -/
structure Memory where
  vars : String → Scope → Cell
  stack : List Cell
  /-- What symbols and strings stand for. -/
  constant : Operand → Cell

namespace Memory

def set (name : String) (scope : Scope) (value : Cell) (memory : Memory) : Memory :=
  { memory with
    vars := fun name' scope' =>
      if name' = name ∧ scope' = scope then value else memory.vars name' scope' }

/-- The value of an operand that is not the stack. -/
def value (memory : Memory) : Operand → Cell
  | .number value => BitVec.ofInt 16 value
  | .var name scope => memory.vars name scope
  | operand => memory.constant operand

end Memory

/-- Work on the memory. It fails where a value is taken from an empty stack. -/
abbrev Work := StateT Memory Option

namespace Work

def pop : Work Cell := fun memory =>
  match memory.stack with
  | [] => none
  | value :: rest => some (value, { memory with stack := rest })

def push (value : Cell) : Work Unit :=
  modify fun memory => { memory with stack := value :: memory.stack }

/-- The value of an operand. It is taken from the stack, if that is the operand. -/
def read (operand : Operand) : Work Cell :=
  if operand.isStack then pop else return (← get).value operand

/-- Store in a variable, or on top of the stack. -/
def store (dest : Operand) (value : Cell) : Work Unit :=
  match dest with
  | .var _ .stack => push value
  | .var name scope => modify (Memory.set name scope value)
  | _ => failure

/-- Change a variable in its place. The value on top of the stack has its place there. -/
def change (f : Cell → Cell) (dest : Operand) : Work Unit := do
  match dest with
  | .var _ .stack => push (f (← pop))
  | .var name scope => modify fun memory => memory.set name scope (f (memory.vars name scope))
  | _ => failure

end Work

/-! ## Plain forms -/

/-- The operations that have shorter forms. -/
inductive Arithmetic where
  | add
  | sub
  deriving DecidableEq

namespace Arithmetic

def op : Arithmetic → BinaryOp
  | add => .add
  | sub => .sub

def name : Arithmetic → String
  | add => "ADD"
  | sub => "SUB"

def apply : Arithmetic → Cell → Cell → Cell
  | add, a, b => a + b
  | sub, a, b => a - b

end Arithmetic

/-- Something to be done, without regard to how. -/
inductive Plain where
  | compute (operation : Arithmetic) (left right : Operand) (result : Option Operand)
  | move (dest source : Operand)
  | give (value : Operand)

namespace Plain

def emission : Plain → Emission
  | compute operation left right result => .binary operation.op left right result
  | move dest source => .store dest source
  | give value => .ret value

/-- The work, and the value that is returned if the routine returns. -/
def work : Plain → Work (Option Cell)
  | compute operation left right result => do
    let a ← Work.read left
    let b ← Work.read right
    if let some dest := result then Work.store dest (operation.apply a b)
    return none
  | move dest source => do
    let value ← Work.read source
    Work.store dest value
    return none
  | give value => return some (← Work.read value)

/-- Where the outcome is stored. -/
def dest? : Plain → Option Operand
  | compute _ _ _ result => result
  | move dest _ => some dest
  | give _ => none

/-- The operands whose values are taken. -/
def sources : Plain → List Operand
  | compute _ left right _ => [left, right]
  | move _ source => [source]
  | give value => [value]

def operands (plain : Plain) : List Operand :=
  plain.sources ++ plain.dest?.toList

/-- The stack holds a value for each time that it is read. -/
def Ready (plain : Plain) (memory : Memory) : Prop :=
  plain.sources.countP (·.isStack) ≤ memory.stack.length

end Plain

/-! ## Commands -/

/-- What a line says, with the operands that its texts are read as. -/
inductive Command where
  | compute (operation : Arithmetic) (left right : Operand) (result : Option Operand)
  | step (direction : Direction) (dest : Operand)
  | set (dest source : Operand)
  | push (source : Operand)
  | pop (dest : Operand)
  | returnValue (value : Operand)
  | returnStack
  | returnTrue
  | returnFalse

namespace Command

def line : Command → LineBody Instr
  | compute operation left right result =>
    { code := { op := operation.name, args := [left.text, right.text], store := result.map (·.text) } }
  | step .up dest => { code := { op := "INC", args := [dest.reference] } }
  | step .down dest => { code := { op := "DEC", args := [dest.reference] } }
  | set dest source => { code := { op := "SET", args := [dest.reference, source.text] } }
  | push source => { code := { op := "PUSH", args := [source.text] } }
  | pop dest => { code := { op := "POP", args := [dest.reference] } }
  | returnValue value => { code := { op := "RETURN", args := [value.text] }, kind := .terminator }
  | returnStack => { code := { op := "RSTACK" }, kind := .terminator }
  | returnTrue => { code := { op := "RTRUE" }, kind := .terminator }
  | returnFalse => { code := { op := "RFALSE" }, kind := .terminator }

/-- What the line does, and the value that it returns if it returns. -/
def work : Command → Work (Option Cell)
  | compute operation left right result => do
    let a ← Work.read left
    let b ← Work.read right
    if let some dest := result then Work.store dest (operation.apply a b)
    return none
  | step direction dest => do
    Work.change direction.step dest
    return none
  | set dest source => do
    let value ← Work.read source
    Work.change (fun _ => value) dest
    return none
  | push source => do
    Work.push (← Work.read source)
    return none
  | pop dest => do
    Work.store dest (← Work.pop)
    return none
  | returnValue value => return some (← Work.read value)
  | returnStack => return some (← Work.pop)
  | returnTrue => return some 1
  | returnFalse => return some 0

def operands : Command → List Operand
  | compute _ left right result => left :: right :: result.toList
  | step _ dest | pop dest => [dest]
  | set dest source => [dest, source]
  | push source => [source]
  | returnValue value => [value]
  | returnStack | returnTrue | returnFalse => []

/-- The operand that stands for itself and not for its value. -/
def place? : Command → Option Operand
  | step _ dest | pop dest | set dest _ => some dest
  | _ => none

end Command

/-! ## Reading lines -/

/-- The operands that texts are read as. -/
structure Reading where
  operand : String → Operand

namespace Reading

/-- Each of the operands is what its text is read as. -/
def Reads (reading : Reading) (operands : List Operand) : Prop :=
  ∀ operand ∈ operands, reading.operand operand.text = operand

/-- The command that a line is read as. A place is named behind a quotation mark. -/
def command? (reading : Reading) (line : LineBody Instr) : Option Command := do
  match line.code.op, line.code.args, line.code.store with
  | "ADD", [left, right], store =>
    return .compute .add (reading.operand left) (reading.operand right) (store.map reading.operand)
  | "SUB", [left, right], store =>
    return .compute .sub (reading.operand left) (reading.operand right) (store.map reading.operand)
  | "INC", [dest], none => return .step .up (reading.operand (← Fusion.referenced? dest))
  | "DEC", [dest], none => return .step .down (reading.operand (← Fusion.referenced? dest))
  | "SET", [dest, source], none =>
    return .set (reading.operand (← Fusion.referenced? dest)) (reading.operand source)
  | "PUSH", [source], none => return .push (reading.operand source)
  | "POP", [dest], none => return .pop (reading.operand (← Fusion.referenced? dest))
  | "RETURN", [value], none => return .returnValue (reading.operand value)
  | "RSTACK", [], none => return .returnStack
  | "RTRUE", [], none => return .returnTrue
  | "RFALSE", [], none => return .returnFalse
  | _, _, _ => none

/-- What lines do one after the other, until one of them returns a value. -/
def work (reading : Reading) : List (LineBody Instr) → Work (Option Cell)
  | [] => return none
  | line :: lines => do
    let some command := reading.command? line | failure
    let some value ← command.work | reading.work lines
    return some value

variable {reading : Reading} {operands : List Operand}

theorem Reads.mono {fewer : List Operand} (h : reading.Reads operands) (hsub : fewer ⊆ operands) :
    reading.Reads fewer :=
  fun operand hmem => h operand (hsub hmem)

end Reading

/-- There is a reading of operands if and only if different ones have different texts. -/
theorem Operand.exists_reading_iff {operands : List Operand} :
    (∃ reading : Reading, reading.Reads operands) ↔
      ∀ a ∈ operands, ∀ b ∈ operands, a.text = b.text → a = b := by
  constructor
  · rintro ⟨reading, hreads⟩ a ha b hb htext
    rw [← hreads a ha, htext, hreads b hb]
  · intro hdistinct
    refine ⟨⟨fun text => (operands.find? (·.text = text)).getD Operand.stack⟩, fun operand hmem => ?_⟩
    obtain ⟨other, hfind⟩ : ∃ other, operands.find? (·.text = operand.text) = some other :=
      Option.isSome_iff_exists.mp (List.find?_isSome.mpr ⟨operand, hmem, decide_eq_true rfl⟩)
    have htext : other.text = operand.text := by simpa using List.find?_some hfind
    have hsame := hdistinct other (List.mem_of_find?_eq_some hfind) operand hmem htext
    simp only [hfind, hsame, Option.getD_some]

theorem Operand.reference_eq {operand : Operand} (h : operand.isVariable = true) :
    operand.reference = "'" ++ operand.text := by
  cases operand with
  | var => rfl
  | number | string | symbol => cases h

namespace Command

theorem referenced?_place {command : Command} {dest : Operand}
    (h : ∀ dest ∈ command.place?, dest.isVariable = true) (hdest : command.place? = some dest) :
    Fusion.referenced? dest.reference = some dest.text := by
  rw [Operand.reference_eq (h dest hdest)]
  simp [Fusion.referenced?]

/-- A line is read as the command that it was written for. -/
theorem command?_line {reading : Reading} {command : Command} (hreads : reading.Reads command.operands)
    (hplace : ∀ dest ∈ command.place?, dest.isVariable = true) :
    reading.command? command.line = some command := by
  cases command with
  | compute operation left right result =>
    have hleft := hreads left (by simp [operands])
    have hright := hreads right (by simp [operands])
    have hresult : (result.map (·.text)).map reading.operand = result := by
      cases result with
      | none => rfl
      | some dest => exact congrArg some (hreads dest (by simp [operands]))
    cases operation <;> simp [Reading.command?, line, Arithmetic.name, hleft, hright, hresult]
  | step direction dest =>
    have hdest := hreads dest (List.mem_singleton_self dest)
    cases direction <;> simp [Reading.command?, line, referenced?_place hplace rfl, hdest]
  | set dest source =>
    have hdest := hreads dest (by simp [operands])
    have hsource := hreads source (by simp [operands])
    simp [Reading.command?, line, referenced?_place hplace rfl, hdest, hsource]
  | pop dest =>
    have hdest := hreads dest (List.mem_singleton_self dest)
    simp [Reading.command?, line, referenced?_place hplace rfl, hdest]
  | push source | returnValue source =>
    have hsource := hreads source (List.mem_singleton_self source)
    simp [Reading.command?, line, hsource]
  | returnStack | returnTrue | returnFalse => simp [Reading.command?, line]

end Command

/-! ## Work on operands -/

namespace Work

theorem read_number (value : Int) : read (.number value) = pure (BitVec.ofInt 16 value) := rfl

theorem read_stack {operand : Operand} (h : operand.isStack = true) : read operand = pop :=
  if_pos h

theorem run_read {operand : Operand} (h : operand.isStack = false) (memory : Memory) :
    (read operand).run memory = some (memory.value operand, memory) := by
  rw [read, h]
  rfl

theorem store_stack {dest : Operand} (h : dest.isStack = true) (value : Cell) :
    store dest value = push value := by
  cases dest with
  | var name scope =>
    cases scope with
    | stack => rfl
    | routine | story => cases h
  | number | string | symbol => cases h

/-- To change a variable in its place is to take its value and to store another. -/
theorem change_eq {dest : Operand} (h : dest.isVariable = true) (f : Cell → Cell) :
    change f dest = read dest >>= fun value => store dest (f value) := by
  cases dest with
  | var name scope => cases scope <;> rfl
  | number | string | symbol => cases h

/-- A variable other than the stack takes a value in its place. -/
theorem change_const {dest : Operand} (h : dest.isStack = false) (value : Cell) :
    change (fun _ => value) dest = store dest value := by
  cases dest with
  | var name scope =>
    cases scope with
    | stack => cases h
    | routine | story => rfl
  | number | string | symbol => rfl

theorem exists_run_read {operand : Operand} {rest : List Operand} {memory : Memory}
    (h : (operand :: rest).countP (·.isStack) ≤ memory.stack.length) :
    ∃ value memory', (read operand).run memory = some (value, memory') ∧
      rest.countP (·.isStack) ≤ memory'.stack.length := by
  rw [List.countP_cons] at h
  cases hstack : operand.isStack with
  | false => exact ⟨memory.value operand, memory, run_read hstack memory, by omega⟩
  | true =>
    obtain ⟨vars, stack, constant⟩ := memory
    rw [if_pos hstack] at h
    cases stack with
    | nil => cases h
    | cons value stack =>
      rw [read_stack hstack]
      exact ⟨value, { vars, stack, constant }, rfl, Nat.le_of_succ_le_succ h⟩

theorem exists_run_store {dest : Operand} (h : dest.isVariable = true) (value : Cell) (memory : Memory) :
    ∃ memory', (store dest value).run memory = some ((), memory') := by
  cases dest with
  | var name scope => cases scope <;> exact ⟨_, rfl⟩
  | number | string | symbol => cases h

end Work

theorem Memory.set_vars (memory : Memory) (name : String) (scope : Scope) :
    memory.set name scope (memory.vars name scope) = memory := by
  obtain ⟨vars, stack, constant⟩ := memory
  simp only [set, Memory.mk.injEq, and_true]
  funext name' scope'
  split
  · rename_i h
    rw [h.1, h.2]
  · rfl

namespace Plain

/-- With enough values on the stack the work comes to an end. -/
theorem exists_run_work {plain : Plain} {memory : Memory}
    (hdest : ∀ dest ∈ plain.dest?, dest.isVariable = true) (hready : plain.Ready memory) :
    ∃ outcome, plain.work.run memory = some outcome := by
  cases plain with
  | compute operation left right result =>
    obtain ⟨a, memory₁, hleft, hready⟩ := Work.exists_run_read hready
    obtain ⟨b, memory₂, hright, -⟩ := Work.exists_run_read hready
    simp only [work, StateT.run_bind, hleft, hright, Option.bind_eq_bind, Option.bind_some]
    cases result with
    | none => exact ⟨_, rfl⟩
    | some dest =>
      obtain ⟨memory₃, hstore⟩ := Work.exists_run_store (hdest dest rfl) (operation.apply a b) memory₂
      simp only [StateT.run_bind, hstore, Option.bind_eq_bind, Option.bind_some]
      exact ⟨_, rfl⟩
  | move dest source =>
    obtain ⟨value, memory₁, hsource, -⟩ := Work.exists_run_read hready
    obtain ⟨memory₂, hstore⟩ := Work.exists_run_store (hdest dest rfl) value memory₁
    simp only [work, StateT.run_bind, hsource, hstore, Option.bind_eq_bind, Option.bind_some]
    exact ⟨_, rfl⟩
  | give value =>
    obtain ⟨a, memory₁, hvalue, -⟩ := Work.exists_run_read hready
    simp only [work, StateT.run_bind, hvalue, Option.bind_eq_bind, Option.bind_some]
    exact ⟨_, rfl⟩

/-- A move of a variable to itself leaves the memory as it is. -/
theorem run_move_self {dest : Operand} (h : dest.isVariable = true) {memory : Memory}
    (hready : (move dest dest).Ready memory) : (move dest dest).work.run memory = some (none, memory) := by
  cases dest with
  | var name scope =>
    cases scope with
    | stack =>
      obtain ⟨vars, stack, constant⟩ := memory
      cases stack with
      | nil => cases hready
      | cons value rest => rfl
    | routine | story =>
      show some (none, memory.set name _ (memory.vars name _)) = _
      rw [Memory.set_vars]
  | number | string | symbol => cases h

/-! ## Selection -/

/-- The command does the work of the plain form, and names nothing that the plain form does not name. -/
structure DoneBy (plain : Plain) (command : Command) : Prop where
  work : command.work = plain.work
  operands : command.operands ⊆ plain.operands
  place : ∀ dest ∈ command.place?, dest.isVariable = true

theorem eq_number_of_number? {operand : Operand} {value : Int} (h : operand.number? = some value) :
    operand = .number value := by
  cases operand with
  | number => cases h; rfl
  | string | symbol | var => cases h

theorem work_step_up {dest : Operand} (h : dest.isVariable = true) :
    (Command.step .up dest).work = (compute .add dest (.number 1) (some dest)).work := by
  simp only [Command.work, Work.change_eq h, bind_assoc]
  rfl

theorem work_step_down {dest : Operand} (h : dest.isVariable = true) :
    (Command.step .down dest).work = (compute .sub dest (.number 1) (some dest)).work := by
  simp only [Command.work, Work.change_eq h, bind_assoc]
  rfl

/-- A number has its value at any time, so that it may be taken before or after the other operand. -/
theorem work_add_number (value : Int) (dest : Operand) (result : Option Operand) :
    (compute .add (.number value) dest result).work = (compute .add dest (.number value) result).work := by
  simp only [work, Work.read_number, pure_bind, Arithmetic.apply, BitVec.add_comm]

/-- A variable is stepped only where that is the work: one may stand on both sides of a sum, but only on
the right of a difference. -/
theorem step?_eq_none_or (operation : Arithmetic) (left right : Operand) (result : Option Operand) :
    Emission.step? operation.op left right result = none ∨
      ∃ direction dest, result = some dest ∧
        Emission.step? operation.op left right result = some (Command.step direction dest).line.code ∧
        (Command.step direction dest).work = (compute operation left right result).work := by
  cases result with
  | none => exact .inl rfl
  | some dest =>
    cases hdest : dest.isVariable with
    | false => exact .inl (by simp [Emission.step?, hdest])
    | true =>
      cases operation with
      | add =>
        simp only [Arithmetic.op, Emission.step?, hdest, Option.bind_eq_bind, Option.bind_some,
          Bool.not_true, Bool.false_eq_true, if_false]
        split
        · rename_i hstep
          refine .inr ⟨.up, dest, rfl, rfl, ?_⟩
          rcases hstep with ⟨rfl, hone⟩ | ⟨rfl, hone⟩
          · cases eq_number_of_number? (beq_iff_eq.mp hone)
            exact work_step_up hdest
          · cases eq_number_of_number? (beq_iff_eq.mp hone)
            rw [work_step_up hdest, work_add_number]
        · exact .inl rfl
      | sub =>
        simp only [Arithmetic.op, Emission.step?, hdest, Option.bind_eq_bind, Option.bind_some,
          Bool.not_true, Bool.false_eq_true, if_false]
        split
        · rename_i hstep
          obtain ⟨rfl, hone⟩ := hstep
          cases eq_number_of_number? (beq_iff_eq.mp hone)
          exact .inr ⟨.down, dest, rfl, rfl, work_step_down hdest⟩
        · exact .inl rfl

theorem opcode?_op (operation : Arithmetic) (version : Version) :
    operation.op.opcode? version = some { name := operation.name, stores := true } := by
  cases operation <;> rfl

theorem exists_lines_compute {operation : Arithmetic} {left right : Operand} {result : Option Operand}
    (hdest : ∀ dest ∈ result, dest.isVariable = true) (version : Version) (cleanup : Bool) :
    ∃ command, (compute operation left right result).emission.lines version cleanup = .ok [command.line] ∧
      (compute operation left right result).DoneBy command := by
  rcases step?_eq_none_or operation left right result with hnone | ⟨direction, dest, rfl, hstep, hwork⟩
  · refine ⟨.compute operation left right result, ?_, ⟨rfl, fun _ => ?_, by simp [Command.place?]⟩⟩
    · have hstore : Emission.storeTarget result = .ok (result.map (·.text)) := by
        cases result with
        | none => rfl
        | some dest => simp only [Emission.storeTarget, Emission.requireVariable, hdest dest rfl]; rfl
      simp only [emission, Emission.lines, Emission.binaryLine, hnone, opcode?_op, Opcode.require,
        Emission.opcodeTarget]
      rw [hstore]
      rfl
    · simp [Command.operands, operands, sources, dest?]
  · refine ⟨.step direction dest, ?_, ⟨hwork, by simp [Command.operands, operands, dest?], hdest⟩⟩
    simp only [emission, Emission.lines, Emission.binaryLine, hstep]
    cases direction <;> rfl

theorem exists_lines_move {dest : Operand} (hdest : dest.isVariable = true) (source : Operand)
    (version : Version) (cleanup : Bool) :
    dest = source ∧ (move dest source).emission.lines version cleanup = .ok [] ∨
      ∃ command, (move dest source).emission.lines version cleanup = .ok [command.line] ∧
        (move dest source).DoneBy command := by
  have hrequire : Emission.requireVariable "store destination" dest = .ok () := if_pos hdest
  simp only [emission, Emission.lines, Emission.storeLine?, hrequire]
  by_cases heq : dest = source
  · exact .inl ⟨heq, by simp only [heq, if_true]; rfl⟩
  rw [if_neg heq]
  right
  cases hsource : source.isStack with
  | true =>
    refine ⟨.pop dest, rfl, ⟨?_, by simp [Command.operands, operands, dest?],
      by simp [Command.place?, hdest]⟩⟩
    simp only [Command.work, work, Work.read_stack hsource]
  | false =>
    cases hstack : dest.isStack with
    | true =>
      refine ⟨.push source, rfl, ⟨?_, by simp [Command.operands, operands, sources],
        by simp [Command.place?]⟩⟩
      simp only [Command.work, work, Work.store_stack hstack]
    | false =>
      refine ⟨.set dest source, rfl, ⟨?_, by simp [Command.operands, operands, sources, dest?],
        by simp [Command.place?, hdest]⟩⟩
      simp only [Command.work, work, Work.change_const hstack]

theorem exists_lines_give (value : Operand) (version : Version) (cleanup : Bool) :
    ∃ command, (give value).emission.lines version cleanup = .ok [command.line] ∧
      (give value).DoneBy command := by
  simp only [emission, Emission.lines, Emission.returnLine]
  split
  · rename_i htrue
    cases eq_number_of_number? htrue
    exact ⟨.returnTrue, rfl, ⟨rfl, List.nil_subset _, by simp [Command.place?]⟩⟩
  split
  · rename_i hfalse
    cases eq_number_of_number? hfalse
    exact ⟨.returnFalse, rfl, ⟨rfl, List.nil_subset _, by simp [Command.place?]⟩⟩
  split
  · rename_i hstack
    refine ⟨.returnStack, rfl, ⟨?_, List.nil_subset _, by simp [Command.place?]⟩⟩
    simp only [Command.work, work, Work.read_stack hstack]
  · exact ⟨.returnValue value, rfl, ⟨rfl, fun _ => id, by simp [Command.place?]⟩⟩

/-- What is not a variable cannot be stored in. -/
theorem exists_error_lines {plain : Plain} {dest : Operand} (hdest : dest ∈ plain.dest?)
    (h : dest.isVariable = false) (version : Version) (cleanup : Bool) :
    ∃ error, plain.emission.lines version cleanup = .error error := by
  cases plain with
  | compute operation left right result =>
    cases hdest
    have hnone : Emission.step? operation.op left right (some dest) = none := by
      simp [Emission.step?, h]
    simp only [emission, Emission.lines, Emission.binaryLine, hnone, opcode?_op, Opcode.require,
      Emission.opcodeTarget, Emission.storeTarget, Emission.requireVariable, h]
    exact ⟨_, rfl⟩
  | move dest' source =>
    cases hdest
    simp only [emission, Emission.lines, Emission.storeLine?, Emission.requireVariable, h]
    exact ⟨_, rfl⟩
  | give value => cases hdest

/-- Lines carry the plain form out: they have its outcome, from every memory with enough values on the
stack. -/
def CarriedOutBy (plain : Plain) (reading : Reading) (lines : List (LineBody Instr)) : Prop :=
  ∀ memory, plain.Ready memory →
    ∃ outcome, plain.work.run memory = some outcome ∧ (reading.work lines).run memory = some outcome

variable {reading : Reading}

theorem DoneBy.work_line {plain : Plain} {command : Command} (h : plain.DoneBy command)
    (hreads : reading.Reads plain.operands) : reading.work [command.line] = plain.work := by
  have hcommand := Command.command?_line (hreads.mono h.operands) h.place
  rw [← h.work, Reading.work, hcommand]
  simp only [Reading.work]
  conv => rhs; rw [← bind_pure command.work]
  congr
  funext value?
  cases value? <;> rfl

theorem DoneBy.carriedOutBy {plain : Plain} {command : Command} (h : plain.DoneBy command)
    (hdest : ∀ dest ∈ plain.dest?, dest.isVariable = true) (hreads : reading.Reads plain.operands) :
    plain.CarriedOutBy reading [command.line] := by
  intro memory hready
  obtain ⟨outcome, hrun⟩ := exists_run_work hdest hready
  refine ⟨outcome, hrun, ?_⟩
  rw [h.work_line hreads, hrun]

theorem carriedOutBy_nil {dest : Operand} (hdest : dest.isVariable = true) :
    (move dest dest).CarriedOutBy reading [] :=
  fun memory hready => ⟨(none, memory), run_move_self hdest hready, rfl⟩

theorem exists_lines (plain : Plain) (hdest : ∀ dest ∈ plain.dest?, dest.isVariable = true)
    (version : Version) (cleanup : Bool) :
    ∃ lines, plain.emission.lines version cleanup = .ok lines ∧
      ∀ reading : Reading, reading.Reads plain.operands → plain.CarriedOutBy reading lines := by
  cases plain with
  | compute operation left right result =>
    obtain ⟨command, hlines, hdone⟩ := exists_lines_compute hdest version cleanup
    exact ⟨[command.line], hlines, fun _ => hdone.carriedOutBy hdest⟩
  | move dest source =>
    rcases exists_lines_move (hdest dest rfl) source version cleanup with
      ⟨rfl, hlines⟩ | ⟨command, hlines, hdone⟩
    · exact ⟨[], hlines, fun _ _ => carriedOutBy_nil (hdest dest rfl)⟩
    · exact ⟨[command.line], hlines, fun _ => hdone.carriedOutBy hdest⟩
  | give value =>
    obtain ⟨command, hlines, hdone⟩ := exists_lines_give value version cleanup
    exact ⟨[command.line], hlines, fun _ => hdone.carriedOutBy hdest⟩

end Plain

/-- An open routine writes lines that carry the plain form out wherever the texts of its operands are read as
those operands. It refuses the plain form, and stays as it is, only if the outcome is not stored in a
variable. -/
theorem Routine.carriedOut_emit {routine : Routine} (hopen : routine.isFinished = false) (plain : Plain) :
    ((∀ dest ∈ plain.dest?, dest.isVariable = true) →
      ∃ lines,
        (Routine.emit plain.emission).run.run routine =
          (.ok (), { routine with buffer := lines.foldl Buffer.addLine routine.buffer }) ∧
        ∀ reading : Reading, reading.Reads plain.operands → plain.CarriedOutBy reading lines) ∧
    ((∃ dest ∈ plain.dest?, dest.isVariable = false) →
      ∃ error, (Routine.emit plain.emission).run.run routine = (.error error, routine)) := by
  rw [run_emit]
  constructor
  · intro hdest
    obtain ⟨lines, hlines, hcarried⟩ := plain.exists_lines hdest routine.version routine.cleansStack
    refine ⟨lines, ?_, hcarried⟩
    simp only [Call.refusal, Call.changed, hlines, Routine.refusal, hopen]
    rfl
  · rintro ⟨dest, hmem, hdest⟩
    obtain ⟨error, hlines⟩ := Plain.exists_error_lines hmem hdest routine.version routine.cleansStack
    refine ⟨error, ?_⟩
    simp only [Call.refusal, hlines]
    rfl

/-- One is added to the value on the stack, from the left. Nothing is stored in a number. -/
theorem Routine.carriedOut_emit_stack :
    let routine := Routine.new "COUNT" { number := 3 } false false
    let plain : Plain := .compute .add (.number 1) .stack (some .stack)
    let memory : Memory := { vars := fun _ _ => 0, stack := [41], constant := fun _ => 0 }
    routine.isFinished = false ∧ plain.Ready memory ∧ (∀ dest ∈ plain.dest?, dest.isVariable = true) ∧
      (∃ lines, (Routine.emit plain.emission).run.run routine =
          (.ok (), { routine with buffer := lines.foldl Buffer.addLine routine.buffer }) ∧
        ∃ reading : Reading, reading.Reads plain.operands ∧ plain.CarriedOutBy reading lines) ∧
      ∃ error, (Routine.emit (Plain.move (.number 1) .stack).emission).run.run routine =
        (.error error, routine) := by
  intro routine plain memory
  have hopen : routine.isFinished = false := rfl
  have hdest : ∀ dest ∈ plain.dest?, dest.isVariable = true := by
    intro dest h
    cases h
    rfl
  obtain ⟨lines, hemit, hcarried⟩ := (Routine.carriedOut_emit hopen plain).1 hdest
  obtain ⟨reading, hreads⟩ := Operand.exists_reading_iff.mpr
    (by decide : ∀ a ∈ plain.operands, ∀ b ∈ plain.operands, a.text = b.text → a = b)
  exact ⟨hopen, Nat.le_refl 1, hdest, ⟨lines, hemit, reading, hreads, hcarried reading hreads⟩,
    (Routine.carriedOut_emit hopen (.move (.number 1) .stack)).2 ⟨_, rfl, rfl⟩⟩

/-- A variable of the routine and one of the story may have one name. Then a move from either to the other is
written in the same way, and no meaning of the line is that of both. -/
theorem Routine.not_carriedOut_sameName :
    ¬∃ effect : List (LineBody Instr) → Work (Option Cell),
      ∀ (routine : Routine) (plain : Plain) (lines : List (LineBody Instr)),
        routine.isFinished = false →
        (∀ operand ∈ plain.operands, operand.text = "STACK" → operand = Operand.stack) →
        (Routine.emit plain.emission).run.run routine =
          (.ok (), { routine with buffer := lines.foldl Buffer.addLine routine.buffer }) →
        ∀ memory, plain.Ready memory → (effect lines).run memory = plain.work.run memory := by
  rintro ⟨effect, h⟩
  let routine := Routine.new "GO" { number := 3 } true false
  let here : Operand := .var "X" .routine
  let there : Operand := .var "X" .story
  let line : LineBody Instr := { code := { op := "SET", args := ["'X", "X"] } }
  let memory : Memory :=
    { vars := fun _ scope => if scope = .story then 1 else 0, stack := [], constant := fun _ => 0 }
  have hto := h routine (.move here there) [line] rfl (by decide) rfl memory (Nat.le_refl 0)
  have hback := h routine (.move there here) [line] rfl (by decide) rfl memory (Nat.le_refl 0)
  have hvalue : (some 1 : Option Cell) = some 0 :=
    congrArg (Option.map fun outcome : Option Cell × Memory => outcome.2.vars "X" .routine)
      (hto.symm.trans hback)
  cases hvalue

end StoryAsm
