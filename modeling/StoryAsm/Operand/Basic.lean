/-!
# Operands

An operand of an instruction is a number, a string of the string segment, a symbol or a variable.
-/

namespace StoryAsm

/-- Where a variable lives. -/
inductive Scope where
  | routine
  | story
  | stack
  deriving DecidableEq

inductive Operand where
  | number (value : Int)
  /-- The string with the given place in the pool. -/
  | string (index : Nat) (content : String)
  | symbol (name : String)
  | var (name : String) (scope : Scope)
  deriving DecidableEq, Inhabited

namespace Operand

/-- The evaluation stack as a variable. -/
def stack : Operand := var "STACK" .stack

/-- The operand as it is written where a value is wanted. -/
def text : Operand → String
  | number value => toString value
  | string index _ => s!"STR?{index}"
  | symbol name => name
  | var name _ => name

/-- The operand as it is written where a variable itself is wanted and not its value. What is not
a variable is written as a value. -/
def reference : Operand → String
  | var name _ => "'" ++ name
  | operand => operand.text

def number? : Operand → Option Int
  | number value => some value
  | _ => none

def content? : Operand → Option String
  | string _ content => some content
  | _ => none

def scope? : Operand → Option Scope
  | var _ scope => some scope
  | _ => none

def isVariable (operand : Operand) : Bool :=
  operand.scope?.isSome

def isStack (operand : Operand) : Bool :=
  operand.scope? == some .stack

end Operand

end StoryAsm
