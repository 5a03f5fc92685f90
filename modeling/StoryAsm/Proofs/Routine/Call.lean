import StoryAsm.Operand.Pool
import StoryAsm.Proofs.Routine.Lines
import StoryAsm.World.Handle

/-!
# What calls on a routine do

A call on a routine is refused (`Routine.Call.refusal`) and the routine stays as it is, or it returns an
answer and changes the routine (`Routine.Call.run_perform`). No call on a finished routine adds to its
code or to its variables.
-/

namespace StoryAsm

/-- What a call returns. -/
inductive Answer where
  | done
  | operand (operand : Operand)
  /-- A number or string of the pool. -/
  | pooled (operand : Operand.Instance)
  | label (label : Label)
  | global (id : GlobalId)
  | table (id : TableId)
  | routine (id : RoutineId)
  | object (id : ObjectId)
  | property (id : PropertyId)
  | flag (id : FlagId)
  | word (id : WordId)
  | fileId (id : Nat)
  | record (text : String)

namespace Routine

variable {routine : Routine} {α : Type}

/-- Why the routine takes no more code. -/
def refusal (routine : Routine) : Option EmitError :=
  if routine.isFinished then some (.routineFinished routine.name) else none

/-- Why the routine takes no variable with the name. -/
def slotRefusal (routine : Routine) (name : String) : Option EmitError :=
  if routine.isFinished then some (.routineFinished routine.name)
  else if routine.isEntryPoint then some (.entryPointVariables routine.name)
  else if routine.slots.any (·.name == Symbol.ofName name) then
    some (.duplicateSymbol (Symbol.ofName name))
  else if maxVariables ≤ routine.slots.length then
    some (.tooManyVariables routine.name maxVariables)
  else none

namespace Call

/-- The call with what it returns. -/
def perform : Call → RoutineM Answer
  | required name => return .operand (← addRequired name)
  | optional name value => return .operand (← addOptional name value)
  | slot name value => return .operand (← addLocal name value)
  | newLabel => return .label (← Routine.newLabel)
  | mark label => do
    markLabel label
    return .done
  | debug record => do
    addDebug record
    return .done
  | place span => do
    setSpan span
    return .done
  | emit emission => do
    Routine.emit emission
    return .done

/-- Why the call is refused. Operands are checked before anything else. -/
def refusal (routine : Routine) : Call → Option EmitError
  | required name | optional name _ | slot name _ => routine.slotRefusal name
  | newLabel | place _ => none
  | mark label =>
    routine.refusal.or (match label with
      | .point _ => none
      | _ => some (.unplaceableLabel label))
  | debug _ => routine.refusal
  | emit emission =>
    match emission.lines routine.version routine.cleansStack with
    | .error error => some error
    | .ok _ => routine.refusal

def answer (routine : Routine) : Call → Answer
  | required name | optional name _ | slot name _ => .operand (.var (Symbol.ofName name) .routine)
  | newLabel => .label (.point routine.nextLabel)
  | mark _ | debug _ | place _ | emit _ => .done

/-- The routine after the call, if it is not refused. -/
def changed (routine : Routine) : Call → Routine
  | required name =>
    { routine with required := routine.required.push { name := Symbol.ofName name } }
  | optional name value =>
    { routine with optional := routine.optional.push { name := Symbol.ofName name, value } }
  | slot name value =>
    { routine with locals := routine.locals.push { name := Symbol.ofName name, value } }
  | newLabel => { routine with nextLabel := routine.nextLabel + 1 }
  | mark label => { routine with buffer := routine.buffer.markLabel label }
  | debug record => { routine with buffer := routine.buffer.addDebug record }
  | place span => { routine with span := some span }
  | emit emission =>
    match emission.lines routine.version routine.cleansStack with
    | .error _ => routine
    | .ok bodies => { routine with buffer := bodies.foldl Buffer.addLine routine.buffer }

end Call

/-! ## Runs -/

theorem run_ensureOpen_bind (f : Unit → RoutineM α) (routine : Routine) :
    (ensureOpen >>= f).run.run routine =
      if routine.isFinished then (.error (.routineFinished routine.name), routine)
      else (f ()).run.run routine := by
  rw [run_run_bind, ensureOpen, run_run_get_bind]
  by_cases h : routine.isFinished = true
  · rw [if_pos h, if_pos h]
    rfl
  · rw [if_neg h, if_neg h]
    rfl

theorem run_declare_bind (name : String) (value : Option Operand) (f : Local → RoutineM α)
    (routine : Routine) :
    (declare name value >>= f).run.run routine =
      match routine.slotRefusal name with
      | some error => (.error error, routine)
      | none => (f { name := Symbol.ofName name, value }).run.run routine := by
  rw [run_run_bind, declare, run_ensureOpen_bind]
  simp only [run_run_get_bind, run_run_guard, slotRefusal]
  by_cases hfinished : routine.isFinished = true
  · simp only [if_pos hfinished]
  by_cases hentry : routine.isEntryPoint = true
  · simp only [if_neg hfinished, if_pos hentry]
  by_cases htaken : routine.slots.any (·.name == Symbol.ofName name) = true
  · simp only [if_neg hfinished, if_neg hentry, if_pos htaken]
  by_cases hfull : maxVariables ≤ routine.slots.length
  · simp only [if_neg hfinished, if_neg hentry, if_neg htaken, if_pos hfull]
  · simp only [if_neg hfinished, if_neg hentry, if_neg htaken, if_neg hfull]
    rfl

/-- A routine that is open takes all lines. -/
theorem run_addLines (hopen : routine.isFinished = false) (bodies : List (LineBody Instr)) :
    (bodies.forM addLine).run.run routine =
      (.ok (), { routine with buffer := bodies.foldl Buffer.addLine routine.buffer }) := by
  induction bodies generalizing routine with
  | nil => rfl
  | cons body bodies ih =>
    have hline : (addLine body).run.run routine =
        (.ok (), { routine with buffer := routine.buffer.addLine body }) := by
      rw [addLine, run_ensureOpen_bind, hopen]
      rfl
    show (addLine body >>= fun _ => bodies.forM addLine).run.run routine = _
    rw [run_run_bind, hline]
    exact ih hopen

theorem run_emit (emission : Emission) (routine : Routine) :
    (emit emission).run.run routine =
      settled ((Call.emit emission).refusal routine) () ((Call.emit emission).changed routine)
        routine := by
  rw [emit, run_run_get_bind]
  simp only [Call.refusal, Call.changed]
  cases emission.lines routine.version routine.cleansStack with
  | error error => rfl
  | ok bodies =>
    simp only
    rw [run_ensureOpen_bind, Routine.refusal]
    cases hopen : routine.isFinished with
    | true => rfl
    | false => exact run_addLines hopen bodies

/-- What a call on a routine does. -/
theorem Call.run_perform (call : Call) (routine : Routine) :
    call.perform.run.run routine =
      settled (call.refusal routine) (call.answer routine) (call.changed routine) routine := by
  cases call with
  | required name =>
    simp only [perform, addRequired, bind_assoc, run_declare_bind, refusal]
    cases routine.slotRefusal name <;> rfl
  | optional name value =>
    simp only [perform, addOptional, bind_assoc, run_declare_bind, refusal]
    cases routine.slotRefusal name <;> rfl
  | slot name value =>
    simp only [perform, addLocal, bind_assoc, run_declare_bind, refusal]
    cases routine.slotRefusal name <;> rfl
  | newLabel => rfl
  | place span => rfl
  | mark label =>
    simp only [perform, markLabel, bind_assoc, run_ensureOpen_bind, refusal, Routine.refusal]
    cases routine.isFinished <;> cases label <;> rfl
  | debug record =>
    simp only [perform, addDebug, bind_assoc, run_ensureOpen_bind, refusal, Routine.refusal]
    cases routine.isFinished <;> rfl
  | emit emission => exact run_run_bind_pure (run_emit emission routine) fun _ => Answer.done

/-! ## Steps of a routine -/

/-- What can happen to a routine: a call that is not refused, or its end. -/
inductive Step : Routine → Routine → Prop where
  | call {routine : Routine} {call : Call} :
    call.refusal routine = none → Step routine (call.changed routine)
  | finish {routine : Routine} (place : Option (Nat × Span)) :
    routine.isFinished = false → Step routine (routine.finish place)

/-- A call that is not refused on a finished routine only issues a label or sets the span. -/
theorem Call.of_refusal_eq_none {call : Call} (hfinished : routine.isFinished = true)
    (h : call.refusal routine = none) : call = .newLabel ∨ ∃ span, call = .place span := by
  cases call with
  | newLabel => exact .inl rfl
  | place span => exact .inr ⟨span, rfl⟩
  | required | optional | slot => simp [refusal, slotRefusal, hfinished] at h
  | mark | debug => simp [refusal, Routine.refusal, hfinished] at h
  | emit emission =>
    simp only [refusal, Routine.refusal, hfinished, if_true] at h
    split at h <;> cases h

theorem Call.body_changed (call : Call) (routine : Routine) :
    (call.changed routine).body = routine.body := by
  cases call with
  | emit emission =>
    simp only [changed]
    split <;> rfl
  | _ => rfl

theorem Call.name_changed (call : Call) (routine : Routine) :
    (call.changed routine).name = routine.name := by
  cases call with
  | emit emission =>
    simp only [changed]
    split <;> rfl
  | _ => rfl

theorem Call.isEntryPoint_changed (call : Call) (routine : Routine) :
    (call.changed routine).isEntryPoint = routine.isEntryPoint := by
  cases call with
  | emit emission =>
    simp only [changed]
    split <;> rfl
  | _ => rfl

/-- A finished routine keeps its body. -/
theorem Step.body_eq {routine' : Routine} (h : Step routine routine')
    (hfinished : routine.isFinished = true) : routine'.body = routine.body := by
  cases h with
  | call hcall => exact Call.body_changed _ routine
  | finish place hopen =>
    rw [hfinished] at hopen
    cases hopen

end Routine

end StoryAsm
