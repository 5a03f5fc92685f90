import StoryAsm.Code.Instr

/-!
# Fusion of instructions

Six pairs of adjacent instructions have a shorter form:

* a new line and a true return become one, for the sake of the next rule;
* printing a text, then that, prints and returns;
* pushing a value and returning the top of the stack returns the value;
* storing on the stack and popping into a variable stores in the variable;
* stepping a variable up or down and comparing it has an instruction of its own.
-/

namespace StoryAsm.Fusion

/-- The name of a variable that is written as a reference. -/
def referenced? (arg : String) : Option String :=
  match arg.toList with
  | '\x27' :: name => some (String.ofList name)
  | _ => none

/-- Pushing a value and returning the top of the stack. -/
def returnPushed (push : Instr) : Option (LineBody Instr) := do
  let value ← push.soleArg?
  if value = "STACK" then none
  else if value = "0" then some { code := { op := "RFALSE" }, kind := .terminator }
  else if value = "1" then some { code := { op := "RTRUE" }, kind := .terminator }
  else some { code := { op := "RETURN", args := [value] }, kind := .terminator }

/-- Storing on the stack and popping from it. -/
def storePopped (first pop : Instr) : Option (LineBody Instr) := do
  let arg ← pop.soleArg?
  let dest ← referenced? arg
  some { code := { first with store := some dest } }

/-- The instruction that steps a variable and compares it. -/
def stepCompare? (step compare : String) : Option String :=
  if step = "INC" ∧ compare = "GRTR?" then some "IGRTR?"
  else if step = "DEC" ∧ compare = "LESS?" then some "DLESS?"
  else none

/-- Stepping a variable and comparing it. The fused instruction reads the other value before the
step, so that value must not be the variable itself. -/
def compareStepped (op : String) (first second : Line Instr) : Option (LineBody Instr) := do
  if first.kind ≠ .plain then none
  let arg ← first.code.soleArg?
  let name ← referenced? arg
  if name = "STACK" then none
  match second.code.args with
  | [left, right] =>
    if left = name ∧ right ≠ name then
      some { code := { op, args := ["'" ++ name, right] }
             target := second.target
             kind := second.kind }
    else none
  | _ => none

/-- The instruction that takes the place of two adjacent ones. -/
def combine : Combiner Instr := fun first second =>
  let a := first.code
  let b := second.code
  if a.op = "CRLF" ∧ b.op = "RTRUE" then
    some { code := { op := Instr.newlineReturn }, kind := .terminator }
  else if a.op = "PRINTI" ∧ b.op = Instr.newlineReturn then
    a.soleArg?.map fun text =>
      { code := { op := "PRINTR", args := [text] }, kind := .heavyTerminator }
  else if a.op = "PUSH" ∧ b.op = "RSTACK" then
    returnPushed a
  else if first.kind = .plain ∧ a.store = some "STACK" ∧ b.op = "POP" ∧ b.store = none then
    storePopped a b
  else
    match stepCompare? a.op b.op with
    | some op => compareStepped op first second
    | none => none

end StoryAsm.Fusion
