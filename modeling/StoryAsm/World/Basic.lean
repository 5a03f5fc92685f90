import StoryAsm.Operand.Basic
import StoryAsm.Statement

/-!
# Globals, properties and flags
-/

namespace StoryAsm

structure Global where
  name : String
  value : Option Operand := none

namespace Global

def operand (global : Global) : Operand :=
  .var global.name .story

def statement (global : Global) : Statement :=
  .global global.name (global.value.map (·.text))

end Global

structure Property where
  /-- The name of the property as a symbol, without the mark of properties. -/
  name : String
  number : Nat
  /-- The value for objects that lack the property. -/
  value : Option Operand := none

namespace Property

/-- The symbol of a property with the given name. -/
def symbolOf (name : String) : String :=
  "P?" ++ name

def symbol (property : Property) : String :=
  symbolOf property.name

def operand (property : Property) : Operand :=
  .symbol property.symbol

end Property

structure Flag where
  name : String
  number : Nat

def Flag.operand (flag : Flag) : Operand :=
  .symbol flag.name

end StoryAsm
