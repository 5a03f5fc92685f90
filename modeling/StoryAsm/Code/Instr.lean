import StoryAsm.Code.Line

/-!
# Instructions

An instruction has a mnemonic, operands and sometimes a variable that takes its result. Its branch
target belongs to the line.
-/

namespace StoryAsm

structure Instr where
  op : String
  args : List String := []
  store : Option String := none
  deriving DecidableEq

namespace Instr

/-- A new line and a true return, as one instruction until it is written. Written as two lines,
unless a text printed before it takes them both in. -/
def newlineReturn : String := "CRLF+RTRUE"

/-- The operand of an instruction that has exactly one. -/
def soleArg? (instr : Instr) : Option String :=
  match instr.args with
  | [arg] => some arg
  | _ => none

end Instr

namespace Line

/-- The mnemonic with what stands behind it: operands or jump target, store target, branch. -/
def instrText (line : Line Instr) : String :=
  let operands :=
    match line.kind, line.target with
    | .branchAlways, some target => " " ++ target.text
    | _, _ => if line.code.args.isEmpty then "" else " " ++ ",".intercalate line.code.args
  let store :=
    match line.code.store with
    | some dest => " >" ++ dest
    | none => ""
  let branch :=
    match line.kind, line.target with
    | .branchPositive, some target => " /" ++ target.text
    | .branchNegative, some target => " \\" ++ target.text
    | _, _ => ""
  "\t" ++ line.code.op ++ operands ++ store ++ branch ++ "\n"

/-- Debug directives, a line each. -/
def debugText (debug : List String) : String :=
  String.join (debug.map fun directive => "\t" ++ directive ++ "\n")

/-- The line as it is written. -/
def text (line : Line Instr) : String :=
  let label :=
    match line.label with
    | some label => label.text ++ ":"
    | none => ""
  let code :=
    if line.code.op = Instr.newlineReturn then "\tCRLF\n\tRTRUE\n" else line.instrText
  debugText line.debug ++ label ++ code

end Line

end StoryAsm
