import StoryAsm.Code.Line
import StoryAsm.Error
import StoryAsm.Version

/-!
# Opcodes

Operations that a routine can ask for, and the instruction that carries each of them out. Some
operations exist only from a version on.
-/

namespace StoryAsm

/-- An instruction that carries out an operation. -/
structure Opcode where
  name : String
  /-- The instruction produces a result. -/
  stores : Bool := false
  kind : LineKind := .plain
  deriving DecidableEq

/-- The opcode, if the version is new enough. -/
def Opcode.from (opcode : Opcode) (first : Nat) (version : Version) : Option Opcode :=
  if first ≤ version.number then some opcode else none

/-- The opcode of an operation, or an error if the version has none. -/
def Opcode.require (operation : String) (version : Version) :
    Option Opcode → Except EmitError Opcode
  | some opcode => .ok opcode
  | none => .error (.unavailable operation version.number)

/-! ## Conditions -/

/-- Branch conditions with instructions of their own. -/
inductive Condition where
  /-- Decrement the variable and compare: is it now less? -/
  | decCheck
  | greater
  /-- Increment the variable and compare: is it now greater? -/
  | incCheck
  /-- The first object is directly inside the second. -/
  | inside
  | less
  | testAttr
  | testBits
  /-- The object has a child, which is pushed on the stack. -/
  | hasChild
  /-- The object has a sibling, which is pushed on the stack. -/
  | hasSibling
  | argProvided
  | verify
  deriving DecidableEq

namespace Condition

def name : Condition → String
  | decCheck => "DecCheck"
  | greater => "Greater"
  | incCheck => "IncCheck"
  | inside => "Inside"
  | less => "Less"
  | testAttr => "TestAttr"
  | testBits => "TestBits"
  | hasChild => "HasChild"
  | hasSibling => "HasSibling"
  | argProvided => "ArgProvided"
  | verify => "Verify"

/-- The number of operands. -/
def arity : Condition → Nat
  | verify => 0
  | hasChild | hasSibling | argProvided => 1
  | decCheck | greater | incCheck | inside | less | testAttr | testBits => 2

/-- The left operand must be a variable. -/
def stepsVariable : Condition → Bool
  | decCheck | incCheck => true
  | _ => false

/-- The left operand is written as a variable and not as a value. -/
def takesReference : Condition → Bool
  | decCheck | incCheck | argProvided => true
  | _ => false

def opcode? (version : Version) : Condition → Option Opcode
  | decCheck => some { name := "DLESS?" }
  | greater => some { name := "GRTR?" }
  | incCheck => some { name := "IGRTR?" }
  | inside => some { name := "IN?" }
  | less => some { name := "LESS?" }
  | testAttr => some { name := "FSET?" }
  | testBits => some { name := "BTST" }
  | hasChild => some { name := "FIRST?", stores := true }
  | hasSibling => some { name := "NEXT?", stores := true }
  | argProvided => Opcode.from { name := "ASSIGNED?" } 5 version
  | verify => Opcode.from { name := "VERIFY" } 3 version

def all : List Condition :=
  [.decCheck, .greater, .incCheck, .inside, .less, .testAttr, .testBits, .hasChild, .hasSibling,
    .argProvided, .verify]

/-- The condition with the given name. -/
def ofName? (name : String) : Option Condition :=
  all.find? (·.name = name)

end Condition

/-! ## Operations by number of operands -/

inductive NullaryOp where
  | quit
  | restart
  | showStatus
  | catchFrame
  | save
  | restore
  | saveUndo
  | restoreUndo
  deriving DecidableEq

namespace NullaryOp

def name : NullaryOp → String
  | quit => "Quit"
  | restart => "Restart"
  | showStatus => "ShowStatus"
  | catchFrame => "Catch"
  | save => "Save"
  | restore => "Restore"
  | saveUndo => "SaveUndo"
  | restoreUndo => "RestoreUndo"

def opcode? (version : Version) : NullaryOp → Option Opcode
  | quit => some { name := "QUIT", kind := .heavyTerminator }
  | restart => some { name := "RESTART", kind := .heavyTerminator }
  | showStatus => if version.number ≤ 3 then some { name := "USL" } else none
  | catchFrame => Opcode.from { name := "CATCH", stores := true } 5 version
  | save => Opcode.from { name := "SAVE", stores := true } 4 version
  | restore => Opcode.from { name := "RESTORE", stores := true } 4 version
  | saveUndo => Opcode.from { name := "ISAVE", stores := true } 5 version
  | restoreUndo => Opcode.from { name := "IRESTORE", stores := true } 5 version

def all : List NullaryOp :=
  [.quit, .restart, .showStatus, .catchFrame, .save, .restore, .saveUndo, .restoreUndo]

/-- The operation with the given name. -/
def ofName? (name : String) : Option NullaryOp :=
  all.find? (·.name = name)

end NullaryOp

inductive UnaryOp where
  | neg
  | not
  | getParent
  | getPropSize
  | loadIndirect
  | random
  | removeObject
  | clearWindow
  | splitWindow
  | setWindow
  | directOutput
  | directInput
  | eraseLine
  | setFont
  deriving DecidableEq

namespace UnaryOp

def name : UnaryOp → String
  | neg => "Neg"
  | not => "Not"
  | getParent => "GetParent"
  | getPropSize => "GetPropSize"
  | loadIndirect => "LoadIndirect"
  | random => "Random"
  | removeObject => "RemoveObject"
  | clearWindow => "ClearWindow"
  | splitWindow => "SplitWindow"
  | setWindow => "SetWindow"
  | directOutput => "DirectOutput"
  | directInput => "DirectInput"
  | eraseLine => "EraseLine"
  | setFont => "SetFont"

def opcode? (version : Version) : UnaryOp → Option Opcode
  | neg => some { name := "SUB", stores := true }
  | not => some { name := "BCOM", stores := true }
  | getParent => some { name := "LOC", stores := true }
  | getPropSize => some { name := "PTSIZE", stores := true }
  | loadIndirect => some { name := "VALUE", stores := true }
  | random => some { name := "RANDOM", stores := true }
  | removeObject => some { name := "REMOVE" }
  | splitWindow => Opcode.from { name := "SPLIT" } 3 version
  | setWindow => Opcode.from { name := "SCREEN" } 3 version
  | directOutput => Opcode.from { name := "DIROUT" } 3 version
  | directInput => Opcode.from { name := "DIRIN" } 3 version
  | clearWindow => Opcode.from { name := "CLEAR" } 4 version
  | eraseLine => Opcode.from { name := "ERASE" } 4 version
  | setFont => Opcode.from { name := "FONT", stores := true } 5 version

def all : List UnaryOp :=
  [.neg, .not, .getParent, .getPropSize, .loadIndirect, .random, .removeObject, .clearWindow,
    .splitWindow, .setWindow, .directOutput, .directInput, .eraseLine, .setFont]

/-- The operation with the given name. -/
def ofName? (name : String) : Option UnaryOp :=
  all.find? (·.name = name)

end UnaryOp

inductive BinaryOp where
  | add
  | sub
  | mul
  | div
  | mod
  | and
  | or
  | artShift
  | logShift
  | getWord
  | getByte
  | getProperty
  | getPropertyAddress
  | getNextProperty
  | moveObject
  | setFlag
  | clearFlag
  | setCursor
  | setColor
  | throwFrame
  deriving DecidableEq

namespace BinaryOp

def name : BinaryOp → String
  | add => "Add"
  | sub => "Sub"
  | mul => "Mul"
  | div => "Div"
  | mod => "Mod"
  | and => "And"
  | or => "Or"
  | artShift => "ArtShift"
  | logShift => "LogShift"
  | getWord => "GetWord"
  | getByte => "GetByte"
  | getProperty => "GetProperty"
  | getPropertyAddress => "GetPropertyAddress"
  | getNextProperty => "GetNextProperty"
  | moveObject => "MoveObject"
  | setFlag => "SetFlag"
  | clearFlag => "ClearFlag"
  | setCursor => "SetCursor"
  | setColor => "SetColor"
  | throwFrame => "Throw"

def opcode? (version : Version) : BinaryOp → Option Opcode
  | add => some { name := "ADD", stores := true }
  | sub => some { name := "SUB", stores := true }
  | mul => some { name := "MUL", stores := true }
  | div => some { name := "DIV", stores := true }
  | mod => some { name := "MOD", stores := true }
  | and => some { name := "BAND", stores := true }
  | or => some { name := "BOR", stores := true }
  | getWord => some { name := "GET", stores := true }
  | getByte => some { name := "GETB", stores := true }
  | getProperty => some { name := "GETP", stores := true }
  | getPropertyAddress => some { name := "GETPT", stores := true }
  | getNextProperty => some { name := "NEXTP", stores := true }
  | moveObject => some { name := "MOVE" }
  | setFlag => some { name := "FSET" }
  | clearFlag => some { name := "FCLEAR" }
  | setCursor => Opcode.from { name := "CURSET" } 4 version
  | artShift => Opcode.from { name := "ASHIFT", stores := true } 5 version
  | logShift => Opcode.from { name := "SHIFT", stores := true } 5 version
  | setColor => Opcode.from { name := "COLOR" } 5 version
  | throwFrame => Opcode.from { name := "THROW", kind := .terminator } 5 version

def all : List BinaryOp :=
  [.add, .sub, .mul, .div, .mod, .and, .or, .artShift, .logShift, .getWord, .getByte,
    .getProperty, .getPropertyAddress, .getNextProperty, .moveObject, .setFlag, .clearFlag,
    .setCursor, .setColor, .throwFrame]

/-- The operation with the given name. -/
def ofName? (name : String) : Option BinaryOp :=
  all.find? (·.name = name)

end BinaryOp

inductive TernaryOp where
  | putWord
  | putByte
  | putProperty
  | copyTable
  deriving DecidableEq

namespace TernaryOp

def name : TernaryOp → String
  | putWord => "PutWord"
  | putByte => "PutByte"
  | putProperty => "PutProperty"
  | copyTable => "CopyTable"

def opcode? (version : Version) : TernaryOp → Option Opcode
  | putWord => some { name := "PUT" }
  | putByte => some { name := "PUTB" }
  | putProperty => some { name := "PUTP" }
  | copyTable => Opcode.from { name := "COPYT" } 5 version

def all : List TernaryOp :=
  [.putWord, .putByte, .putProperty, .copyTable]

/-- The operation with the given name. -/
def ofName? (name : String) : Option TernaryOp :=
  all.find? (·.name = name)

end TernaryOp

/-! ## Printing -/

inductive PrintOp where
  | number
  | character
  | packedString
  | addressString
  | objectName
  | unicode
  deriving DecidableEq

namespace PrintOp

def name : PrintOp → String
  | number => "Number"
  | character => "Character"
  | packedString => "PackedString"
  | addressString => "AddressString"
  | objectName => "ObjectName"
  | unicode => "Unicode"

def opcode? (version : Version) : PrintOp → Option Opcode
  | number => some { name := "PRINTN" }
  | character => some { name := "PRINTC" }
  | packedString => some { name := "PRINT" }
  | addressString => some { name := "PRINTB" }
  | objectName => some { name := "PRINTD" }
  | unicode => Opcode.from { name := "PRINTU" } 5 version

def all : List PrintOp :=
  [.number, .character, .packedString, .addressString, .objectName, .unicode]

/-- The operation with the given name. -/
def ofName? (name : String) : Option PrintOp :=
  all.find? (·.name = name)

end PrintOp

end StoryAsm
