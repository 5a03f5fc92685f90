import StoryAsm.Proofs.Code.Script
import StoryAsm.Proofs.Fusion.Processor
import StoryAsm.Proofs.Operation
import StoryAsm.Routine.Finish

/-!
# The lines of routines

Which lines can stand in the code of a routine: a primitive stores nothing and has a line of the kind
that suits it, and only variables are stepped (`LineBody.Shaped`). All calls on a routine keep to this
(`Routine.Built.shaped`), whatever their operands are, as long as the variables among these have names
of a given kind.
-/

namespace StoryAsm

/-- The kinds of line on which a primitive stands. -/
def Primitive.suits : Primitive → LineKind → Bool
  | push, kind | pop, kind | step _, kind | newLine, kind | print, kind => kind = .plain
  | returnStack, kind | returnValue, kind | returnTrue, kind | returnFalse, kind
  | newLineReturn, kind => kind = .terminator
  | printReturn, kind => kind = .heavyTerminator
  | compare _, kind | stepCompare _, kind => kind = .branchPositive ∨ kind = .branchNegative

/-- A line as routines have them, where `V` holds of the names of variables other than the stack. -/
structure LineBody.Shaped (V : String → Prop) (body : LineBody Instr) : Prop where
  store : ∀ {primitive}, Primitive.ofName? body.code.op = some primitive → body.code.store = none
  suits : ∀ {primitive}, Primitive.ofName? body.code.op = some primitive →
    primitive.suits body.kind = true
  stepped : ∀ {direction}, Primitive.ofName? body.code.op = some (.step direction) →
    ∀ {name}, body.code.args = ["'" ++ name] → name = "STACK" ∨ V name

/-- Variables other than the stack have names for which `V` holds. -/
def Operand.NamedIn (V : String → Prop) : Operand → Prop
  | var name .stack => name = "STACK"
  | var name _ => V name
  | _ => True

namespace LineBody.Shaped

variable {V : String → Prop} {body : LineBody Instr}

theorem of_other (h : Primitive.ofName? body.code.op = none) : body.Shaped V where
  store h' := by simp [h] at h'
  suits h' := by simp [h] at h'
  stepped h' := by simp [h] at h'

/-- A primitive that steps no variable. -/
theorem of_primitive {p : Primitive} (hop : body.code.op = p.name)
    (hstore : body.code.store = none) (hsuits : p.suits body.kind = true)
    (hstep : ∀ direction, p ≠ .step direction) : body.Shaped V := by
  have hname : Primitive.ofName? body.code.op = some p := by
    rw [hop, Primitive.ofName?_name]
  refine ⟨fun _ => hstore, fun h => ?_, fun h => ?_⟩
  · rw [hname] at h
    cases h
    exact hsuits
  · rw [hname] at h
    cases h
    exact absurd rfl (hstep _)

theorem of_step {direction : Direction} {name : String}
    (hop : body.code.op = (Primitive.step direction).name)
    (hargs : body.code.args = ["'" ++ name]) (hstore : body.code.store = none)
    (hkind : body.kind = .plain) (hname : name = "STACK" ∨ V name) : body.Shaped V := by
  have hprim : Primitive.ofName? body.code.op = some (.step direction) := by
    rw [hop, Primitive.ofName?_name]
  refine ⟨fun _ => hstore, fun h => ?_, fun _ name' hargs' => ?_⟩
  · rw [hprim] at h
    cases h
    simp [Primitive.suits, hkind]
  · rw [hargs'] at hargs
    have hname' : name' = name := by simpa using hargs
    rwa [hname']

theorem retarget (h : body.Shaped V) (target : Option Label) :
    ({ body with target } : LineBody Instr).Shaped V :=
  ⟨h.store, h.suits, h.stepped⟩

theorem mono {W : String → Prop} (h : body.Shaped V) (hVW : ∀ name, V name → W name) : body.Shaped W where
  store := h.store
  suits := h.suits
  stepped hop _ hargs := (h.stepped hop hargs).imp_right (hVW _)

end LineBody.Shaped

/-! ## Opcodes -/

theorem Opcode.eq_of_from {opcode opcode' : Opcode} {first : Nat} {version : Version}
    (h : opcode.from first version = some opcode') : opcode = opcode' := by
  simp only [Opcode.from, Option.ite_none_right_eq_some, Option.some.injEq] at h
  exact h.2

theorem Opcode.require_eq_ok {operation : String} {version : Version} {opcode? : Option Opcode}
    {opcode : Opcode} (h : Opcode.require operation version opcode? = .ok opcode) :
    opcode? = some opcode := by
  cases opcode? <;> simp_all [Opcode.require]

section
variable {version : Version} {opcode : Opcode}

theorem NullaryOp.notPrimitive {op : NullaryOp} (h : op.opcode? version = some opcode) :
    Primitive.ofName? opcode.name = none := by
  cases op with
  | quit | restart => cases h; rfl
  | showStatus =>
    simp only [opcode?, Option.ite_none_right_eq_some] at h
    cases h.2
    rfl
  | _ => cases Opcode.eq_of_from h; rfl

theorem UnaryOp.notPrimitive {op : UnaryOp} (h : op.opcode? version = some opcode) :
    Primitive.ofName? opcode.name = none := by
  cases op with
  | splitWindow | setWindow | directOutput | directInput | clearWindow | eraseLine | setFont =>
    cases Opcode.eq_of_from h; rfl
  | _ => cases h; rfl

theorem BinaryOp.notPrimitive {op : BinaryOp} (h : op.opcode? version = some opcode) :
    Primitive.ofName? opcode.name = none := by
  cases op with
  | setCursor | artShift | logShift | setColor | throwFrame => cases Opcode.eq_of_from h; rfl
  | _ => cases h; rfl

theorem TernaryOp.notPrimitive {op : TernaryOp} (h : op.opcode? version = some opcode) :
    Primitive.ofName? opcode.name = none := by
  cases op with
  | copyTable => cases Opcode.eq_of_from h; rfl
  | _ => cases h; rfl

theorem PrintOp.notPrimitive {op : PrintOp} (h : op.opcode? version = some opcode) :
    Primitive.ofName? opcode.name = none := by
  cases op with
  | unicode => cases Opcode.eq_of_from h; rfl
  | _ => cases h; rfl

/-- The conditions that are primitives compare, perhaps after a step, and store nothing. -/
theorem Condition.primitive {condition : Condition} (h : condition.opcode? version = some opcode) :
    Primitive.ofName? opcode.name = none ∨
      ∃ direction, (opcode.name = (Primitive.compare direction).name ∨
        opcode.name = (Primitive.stepCompare direction).name) ∧ opcode.stores = false := by
  cases condition with
  | greater => cases h; exact .inr ⟨.up, .inl rfl, rfl⟩
  | less => cases h; exact .inr ⟨.down, .inl rfl, rfl⟩
  | incCheck => cases h; exact .inr ⟨.up, .inr rfl, rfl⟩
  | decCheck => cases h; exact .inr ⟨.down, .inr rfl, rfl⟩
  | argProvided | verify => cases Opcode.eq_of_from h; exact .inl rfl
  | _ => cases h; exact .inl rfl

end

namespace Emission

/-- The operands that an emission is given. -/
def operands : Emission → List Operand
  | jump _ | printText _ | newLine => []
  | branch _ left right _ _ => left.toList ++ right.toList
  | branchEqual left rights _ _ => left :: rights
  | branchZero value _ _ | ret value | print _ value => [value]
  | getChild object dest _ _ | getSibling object dest _ _ => [object, dest]
  | nullary _ result => result.toList
  | unary _ value result => value :: result.toList
  | binary _ left right result => left :: right :: result.toList
  | ternary _ a b c => [a, b, c]
  | store dest source => [dest, source]
  | call callee args result => callee :: (args ++ result.toList)
  | read text parse timed result =>
    text :: parse :: (timed.toList.flatMap (fun (interval, routine) => [interval, routine]) ++
      result.toList)
  | scanTable value table length form result _ _ => value :: table :: length :: (form.toList ++ [result])

/-! ## Lines of emissions -/

variable {V : String → Prop} {version : Version} {body : LineBody Instr}

theorem shaped_jumpLine (target : Label) : (jumpLine target).Shaped V := by
  cases target with
  | point number => exact .of_other rfl
  | returnTrue =>
    exact .of_primitive (p := .returnTrue) rfl rfl rfl (by simp)
  | returnFalse =>
    exact .of_primitive (p := .returnFalse) rfl rfl rfl (by simp)

theorem shaped_branchLine {code : Instr} {target : Label} {positive : Bool}
    (h : Primitive.ofName? code.op = none) : (branchLine code target positive).Shaped V :=
  .of_other h

/-- The line of a condition, once its operands are known to fit. -/
theorem shaped_of_condition {condition : Condition} {args : List String} {target : Label}
    {positive : Bool}
    (h : (do
      let opcode ← Opcode.require condition.name version (condition.opcode? version)
      pure (branchLine { op := opcode.name, args,
                         store := if opcode.stores then some Operand.stack.text else none }
        target positive)) = Except.ok body) :
    body.Shaped V := by
  obtain ⟨opcode, hopcode, h⟩ := bind_eq_ok.mp h
  cases h
  rcases Condition.primitive (Opcode.require_eq_ok hopcode) with hother | ⟨direction, hname, hstores⟩
  · exact shaped_branchLine hother
  · have hsuits : (branchKind positive = .branchPositive ∨ branchKind positive = .branchNegative) := by
      cases positive <;> simp [branchKind]
    rcases hname with hname | hname
    · refine .of_primitive (p := .compare direction) hname ?_ ?_ (by simp)
      · simp [branchLine, hstores]
      · exact decide_eq_true hsuits
    · refine .of_primitive (p := .stepCompare direction) hname ?_ ?_ (by simp)
      · simp [branchLine, hstores]
      · exact decide_eq_true hsuits

theorem shaped_conditionLine {condition : Condition} {left right : Option Operand} {target : Label}
    {positive : Bool} (h : conditionLine version condition left right target positive = .ok body) :
    body.Shaped V := by
  have h := eq_ok_of_guard h
  split at h
  · split at h
    · obtain ⟨_, -, h⟩ := bind_eq_ok.mp h
      exact shaped_of_condition h
    · exact shaped_of_condition h
  · exact shaped_of_condition h

theorem step?_eq_some {op : BinaryOp} {left right : Operand} {result : Option Operand} {code : Instr}
    (h : step? op left right result = some code) :
    ∃ direction name scope, result = some (.var name scope) ∧
      code = { op := (Primitive.step direction).name, args := ["'" ++ name] } := by
  cases result with
  | none => cases h
  | some dest =>
    cases dest with
    | number | string | symbol => cases h
    | var name scope =>
      cases op with
      | add =>
        simp only [step?, Option.bind_eq_bind, Option.bind_some] at h
        obtain ⟨-, hcode⟩ := Option.ite_none_right_eq_some.mp h
        cases hcode
        exact ⟨.up, name, scope, rfl, rfl⟩
      | sub =>
        simp only [step?, Option.bind_eq_bind, Option.bind_some] at h
        obtain ⟨-, hcode⟩ := Option.ite_none_right_eq_some.mp h
        cases hcode
        exact ⟨.down, name, scope, rfl, rfl⟩
      | _ => cases h

theorem shaped_binaryLine {op : BinaryOp} {left right : Operand} {result : Option Operand}
    (hresult : ∀ dest, result = some dest → dest.NamedIn V)
    (h : binaryLine version op left right result = .ok body) : body.Shaped V := by
  simp only [binaryLine] at h
  split at h
  · rename_i code hstep
    cases h
    obtain ⟨direction, name, scope, rfl, rfl⟩ := step?_eq_some hstep
    refine .of_step rfl rfl rfl rfl ?_
    have hname := hresult _ rfl
    cases scope with
    | stack => exact .inl hname
    | routine | story => exact .inr hname
  · obtain ⟨opcode, hopcode, h⟩ := bind_eq_ok.mp h
    obtain ⟨store, -, h⟩ := bind_eq_ok.mp h
    cases h
    exact .of_other (BinaryOp.notPrimitive (Opcode.require_eq_ok hopcode))

theorem shaped_unaryLine {op : UnaryOp} {value : Operand} {result : Option Operand}
    (h : unaryLine version op value result = .ok body) : body.Shaped V := by
  obtain ⟨opcode, hopcode, h⟩ := bind_eq_ok.mp h
  obtain ⟨store, -, h⟩ := bind_eq_ok.mp h
  cases h
  exact .of_other (UnaryOp.notPrimitive (Opcode.require_eq_ok hopcode))

theorem shaped_nullaryLine {op : NullaryOp} {result : Option Operand}
    (h : nullaryLine version op result = .ok body) : body.Shaped V := by
  obtain ⟨opcode, hopcode, h⟩ := bind_eq_ok.mp h
  obtain ⟨store, -, h⟩ := bind_eq_ok.mp h
  cases h
  exact .of_other (NullaryOp.notPrimitive (Opcode.require_eq_ok hopcode))

theorem shaped_returnLine (value : Operand) : (returnLine value).Shaped V := by
  simp only [returnLine]
  split
  · exact .of_primitive (p := .returnTrue) rfl rfl rfl (by simp)
  · split
    · exact .of_primitive (p := .returnFalse) rfl rfl rfl (by simp)
    · split
      · exact .of_primitive (p := .returnStack) rfl rfl rfl (by simp)
      · exact .of_primitive (p := .returnValue) rfl rfl rfl (by simp)

theorem shaped_treeLine {op : String} {object dest : Operand} {target : Label} {positive : Bool}
    (hop : Primitive.ofName? op = none) (h : treeLine op object dest target positive = .ok body) :
    body.Shaped V := by
  obtain ⟨store, -, h⟩ := bind_eq_ok.mp h
  cases h
  exact .of_other hop

theorem shaped_storeLine? {dest source : Operand} {body? : Option (LineBody Instr)}
    (h : storeLine? dest source = .ok body?) (hm : body ∈ body?.toList) : body.Shaped V := by
  obtain ⟨_, -, h⟩ := bind_eq_ok.mp h
  split at h
  · cases h
    cases hm
  · split at h
    · cases h
      cases List.mem_singleton.mp hm
      exact .of_primitive (p := .pop) rfl rfl rfl (by simp)
    · split at h
      · cases h
        cases List.mem_singleton.mp hm
        exact .of_primitive (p := .push) rfl rfl rfl (by simp)
      · cases h
        cases List.mem_singleton.mp hm
        exact .of_other rfl

theorem callName_notPrimitive (version : Version) (count : Nat) (hasResult : Bool) :
    Primitive.ofName? (callName version count hasResult) = none := by
  simp only [callName]
  split
  · rfl
  · split <;> split <;> rfl

theorem shaped_callLines {cleanup : Bool} {callee : Operand} {args : List Operand}
    {result : Option Operand} {bodies : List (LineBody Instr)}
    (h : callLines version cleanup callee args result = .ok bodies) (hm : body ∈ bodies) :
    body.Shaped V := by
  obtain ⟨store, -, h⟩ := bind_eq_ok.mp (eq_ok_of_guard h)
  have hcall := callName_notPrimitive version args.length result.isSome
  split at h
  · cases h
    rcases List.mem_cons.mp hm with rfl | hm
    · exact .of_other hcall
    · cases List.mem_singleton.mp hm
      exact .of_other rfl
  · cases h
    cases List.mem_singleton.mp hm
    exact .of_other hcall

theorem shaped_readLine {text parse : Operand} {timed : Option (Operand × Operand)}
    {result : Option Operand} (h : readLine version text parse timed result = .ok body) :
    body.Shaped V := by
  obtain ⟨store, -, h⟩ := bind_eq_ok.mp (eq_ok_of_guard (eq_ok_of_guard h))
  cases h
  exact .of_other rfl

theorem shaped_scanLine {value table length result : Operand} {form : Option Operand} {target : Label}
    {positive : Bool} (h : scanLine version value table length form result target positive = .ok body) :
    body.Shaped V := by
  obtain ⟨store, -, h⟩ := bind_eq_ok.mp (eq_ok_of_guard (eq_ok_of_guard h))
  cases h
  exact .of_other rfl

/-- An emission has one line, unless it is a move or a call. -/
theorem shaped_singleton {α : Type} {x : Except EmitError α} {f : α → LineBody Instr}
    {bodies : List (LineBody Instr)} (h : (do return [f (← x)]) = Except.ok bodies)
    (hx : ∀ a, x = .ok a → (f a).Shaped V) : ∀ body ∈ bodies, body.Shaped V := by
  obtain ⟨a, ha, h⟩ := bind_eq_ok.mp h
  cases h
  intro body hm
  cases List.mem_singleton.mp hm
  exact hx a ha

/-- The lines of an emission, one case for each. -/
theorem shaped_lines {cleanup : Bool} {emission : Emission} {bodies : List (LineBody Instr)}
    (hoperands : ∀ operand ∈ emission.operands, operand.NamedIn V)
    (h : emission.lines version cleanup = .ok bodies) : ∀ body ∈ bodies, body.Shaped V := by
  cases emission with
  | jump target =>
    cases h
    simp [shaped_jumpLine]
  | branch condition left right target positive =>
    exact shaped_singleton (f := id) h fun _ => shaped_conditionLine
  | branchEqual left rights target positive =>
    simp only [lines] at h
    split at h
    · cases h
    · cases h
      simp only [List.mem_singleton, forall_eq]
      exact shaped_branchLine rfl
  | branchZero value target positive =>
    cases h
    simp only [List.mem_singleton, forall_eq]
    exact shaped_branchLine rfl
  | getChild object dest target positive =>
    exact shaped_singleton (f := id) h fun _ => shaped_treeLine rfl
  | getSibling object dest target positive =>
    exact shaped_singleton (f := id) h fun _ => shaped_treeLine rfl
  | nullary op result => exact shaped_singleton (f := id) h fun _ => shaped_nullaryLine
  | unary op value result => exact shaped_singleton (f := id) h fun _ => shaped_unaryLine
  | binary op left right result =>
    refine shaped_singleton (f := id) h fun _ => shaped_binaryLine fun dest hdest => ?_
    exact hoperands dest (by simp [operands, hdest])
  | ternary op a b c =>
    refine shaped_singleton h fun opcode hopcode => .of_other ?_
    exact TernaryOp.notPrimitive (Opcode.require_eq_ok hopcode)
  | store dest source =>
    obtain ⟨body?, hbody, h⟩ := bind_eq_ok.mp h
    cases h
    exact fun body hm => shaped_storeLine? hbody hm
  | call callee args result => exact fun body hm => shaped_callLines h hm
  | ret value =>
    cases h
    simp [shaped_returnLine]
  | print op value =>
    refine shaped_singleton h fun opcode hopcode => .of_other ?_
    exact PrintOp.notPrimitive (Opcode.require_eq_ok hopcode)
  | printText text =>
    cases h
    simp only [List.mem_singleton, forall_eq]
    exact .of_primitive (p := .print) rfl rfl rfl (by simp)
  | newLine =>
    cases h
    simp only [List.mem_singleton, forall_eq]
    exact .of_primitive (p := .newLine) rfl rfl rfl (by simp)
  | read text parse timed result => exact shaped_singleton (f := id) h fun _ => shaped_readLine
  | scanTable value table length form result target positive =>
    exact shaped_singleton (f := id) h fun _ => shaped_scanLine

end Emission

/-! ## Calls on a routine -/

namespace Routine

/-- A call on a routine that is built. -/
inductive Call where
  | required (name : String)
  | optional (name : String) (value : Option Operand)
  | slot (name : String) (value : Option Operand)
  | newLabel
  | mark (label : Label)
  | debug (record : String)
  | place (span : Span)
  | emit (emission : Emission)

namespace Call

def run : Call → RoutineM Unit
  | required name => discard (addRequired name)
  | optional name value => discard (addOptional name value)
  | slot name value => discard (addLocal name value)
  | newLabel => discard Routine.newLabel
  | mark label => markLabel label
  | debug record => addDebug record
  | place span => setSpan span
  | emit emission => Routine.emit emission

/-- The routine after the call, whether it failed or not. -/
def apply (call : Call) (routine : Routine) : Routine :=
  (call.run.run.run routine).2

/-- The variables among the operands of the call have names for which `V` holds. -/
def NamedIn (V : String → Prop) : Call → Prop
  | emit emission => ∀ operand ∈ emission.operands, operand.NamedIn V
  | _ => True

end Call

/-- The routine was started and built by calls. -/
inductive Built (V : String → Prop) : Routine → Prop where
  | new (name : String) (version : Version) (isEntryPoint cleansStack : Bool) :
    Built V { name, version, isEntryPoint, cleansStack }
  | call {routine : Routine} {call : Call} :
    Built V routine → call.NamedIn V → Built V (call.apply routine)

/-- The operation keeps a property of routines, also where it fails. -/
def Keeps {α : Type} (P : Routine → Prop) (op : RoutineM α) : Prop :=
  ∀ routine, P routine → P (op.run.run routine).2

namespace Keeps

variable {α β : Type} {P : Routine → Prop}

theorem pure (a : α) : Keeps P (Pure.pure a : RoutineM α) := fun _ h => h

theorem throw (error : EmitError) : Keeps P (MonadExcept.throw error : RoutineM α) := fun _ h => h

theorem get : Keeps P (MonadState.get : RoutineM Routine) := fun _ h => h

theorem change {f : Routine → Routine} (hf : ∀ routine, P routine → P (f routine)) :
    Keeps P (modify f : RoutineM Unit) := fun routine h => hf routine h

theorem bind {x : RoutineM α} {f : α → RoutineM β} (hx : Keeps P x) (hf : ∀ a, Keeps P (f a)) :
    Keeps P (x >>= f) := by
  intro routine h
  have hrun := hx routine h
  rw [run_run_bind]
  revert hrun
  rcases x.run.run routine with ⟨error | a, routine'⟩ <;> intro hrun
  · exact hrun
  · exact hf a routine' hrun

theorem discard {x : RoutineM α} (hx : Keeps P x) : Keeps P (discard x) :=
  hx.bind fun _ => pure ()

theorem forM {bodies : List (LineBody Instr)} {f : LineBody Instr → RoutineM Unit}
    (hf : ∀ body ∈ bodies, Keeps P (f body)) : Keeps P (bodies.forM f) := by
  induction bodies with
  | nil => exact pure ()
  | cons body rest ih =>
    refine bind (hf body List.mem_cons_self) fun _ => ih fun body' hm => ?_
    exact hf body' (.tail _ hm)

theorem ensureOpen : Keeps P ensureOpen := by
  refine get.bind fun routine => ?_
  split
  · exact throw _
  · exact pure ()

/-- A check that throws before the rest. -/
theorem guard {c : Prop} [Decidable c] {error : EmitError} {x : RoutineM α} {f : β → RoutineM α}
    (hx : Keeps P x) : Keeps P (if c then MonadExcept.throw error >>= f else x) := by
  split
  · exact fun _ h => h
  · exact hx

theorem declare (name : String) (value : Option Operand) : Keeps P (declare name value) :=
  ensureOpen.bind fun _ => get.bind fun _ => guard (guard (guard (pure _)))

/-- A variable is declared and then put into its place. -/
theorem addVariable {name : String} {value : Option Operand} {f : Local → Routine → Routine}
    (hf : ∀ new routine, P routine → P (f new routine)) :
    Keeps P (do
      let new ← Routine.declare name value
      modify (f new)
      Pure.pure new.operand) :=
  (declare name value).bind fun new => (change (hf new)).bind fun _ => pure _

end Keeps

variable {V : String → Prop}

/-- All lines of the buffer have the shape that routines give them. -/
def BufferShaped (V : String → Prop) (buffer : Buffer Instr) : Prop :=
  ∀ line ∈ buffer.lines.toList, line.toLineBody.Shaped V

theorem BufferShaped.addLine {buffer : Buffer Instr} {body : LineBody Instr}
    (h : BufferShaped V buffer) (hbody : body.Shaped V) : BufferShaped V (buffer.addLine body) := by
  intro line hm
  simp only [Buffer.addLine, Array.toList_push, List.mem_append, List.mem_singleton] at hm
  rcases hm with hm | rfl
  · exact h line hm
  · exact hbody

theorem BufferShaped.markLabel {buffer : Buffer Instr} (h : BufferShaped V buffer) (label : Label) :
    BufferShaped V (buffer.markLabel label) := by
  simp only [Buffer.markLabel]
  split
  · exact h
  · split
    · exact h
    · exact h

theorem BufferShaped.append {buffer other : Buffer Instr} (h : BufferShaped V buffer)
    (h' : BufferShaped V other) : BufferShaped V (buffer ++ other) := by
  intro line hm
  have hbody : line.toLineBody ∈ (buffer ++ other).lines.toList.map (·.toLineBody) :=
    List.mem_map_of_mem hm
  rw [Buffer.append_bodies, List.mem_append, List.mem_map, List.mem_map] at hbody
  rcases hbody with ⟨line', hm', he⟩ | ⟨line', hm', he⟩
  · exact he ▸ h line' hm'
  · exact he ▸ h' line' hm'

/-- One call keeps the shape of the lines: only an emission adds any. -/
theorem Call.keeps_shaped {call : Call} (hcall : call.NamedIn V) :
    Keeps (fun routine => BufferShaped V routine.buffer) call.run := by
  cases call with
  | required name =>
    refine Keeps.discard (Keeps.addVariable ?_)
    exact fun _ _ h => h
  | optional name value =>
    refine Keeps.discard (Keeps.addVariable ?_)
    exact fun _ _ h => h
  | slot name value =>
    refine Keeps.discard (Keeps.addVariable ?_)
    exact fun _ _ h => h
  | newLabel => exact fun _ h => h
  | mark label =>
    refine Keeps.ensureOpen.bind fun _ => ?_
    cases label with
    | point number =>
      refine .change ?_
      exact fun _ h => h.markLabel _
    | returnTrue | returnFalse => exact .throw _
  | debug record =>
    refine Keeps.ensureOpen.bind fun _ => .change ?_
    exact fun _ h => h
  | place span =>
    refine .change ?_
    exact fun _ h => h
  | emit emission =>
    refine Keeps.get.bind fun routine => ?_
    split
    · exact .throw _
    · rename_i bodies hlines
      refine Keeps.ensureOpen.bind fun _ => .forM fun body hm => ?_
      have hbody := Emission.shaped_lines hcall hlines body hm
      refine Keeps.ensureOpen.bind fun _ => .change ?_
      exact fun _ h => h.addLine hbody

/-- All lines that calls have added to a routine have their shape. -/
theorem Built.bufferShaped {routine : Routine} (h : Built V routine) :
    BufferShaped V routine.buffer := by
  induction h with
  | new => intro line hm; cases hm
  | call _ hcall ih => exact Call.keeps_shaped hcall _ ih

/-! ## Default values -/

theorem shaped_assignLine (slot : Local) (value : Operand) : (assignLine slot value).Shaped V :=
  .of_other rfl

theorem BufferShaped.assignMissing {buffer : Buffer Instr} (h : BufferShaped V buffer) (param : Local)
    (value : Operand) (skip : Label) : BufferShaped V (assignMissing buffer param value skip) := by
  have htest : ({ code := { op := "ASSIGNED?", args := [param.operand.reference] }
                  target := some skip
                  kind := .branchPositive } : LineBody Instr).Shaped V := .of_other rfl
  exact ((h.addLine htest).addLine (shaped_assignLine param value)).markLabel skip

theorem bufferShaped_optionalDefaults (params : List Local) (next : Nat) :
    BufferShaped V (optionalDefaults params next).1 := by
  simp only [optionalDefaults]
  refine List.foldlRecOn (motive := fun acc : Buffer Instr × Nat => BufferShaped V acc.1) params _ ?_ ?_
  · intro line hm
    cases hm
  · intro acc h param _
    split
    · exact h.assignMissing param _ _
    · exact h

theorem bufferShaped_localDefaults {buffer : Buffer Instr} (h : BufferShaped V buffer)
    (locals : List Local) : BufferShaped V (localDefaults buffer locals) := by
  refine List.foldlRecOn (motive := BufferShaped V) locals _ h fun buffer h slot _ => ?_
  split
  · exact h.addLine (shaped_assignLine ..)
  · exact h

theorem bufferShaped_prologue (routine : Routine) : BufferShaped V routine.prologue.1 := by
  simp only [prologue]
  split
  · intro line hm
    cases hm
  · exact bufferShaped_localDefaults (bufferShaped_optionalDefaults _ _) _

/-- All lines that a routine has when it is finished have their shape. -/
theorem Built.shaped {routine : Routine} (h : Built V routine) {line : Line Instr}
    (hm : line ∈ routine.fullBuffer.resolvedLines) : line.toLineBody.Shaped V := by
  obtain ⟨line', hm', rfl⟩ := List.mem_map.mp hm
  exact ((bufferShaped_prologue routine).append h.bufferShaped line' hm').retarget _

end Routine

end StoryAsm
