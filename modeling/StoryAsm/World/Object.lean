import StoryAsm.Error
import StoryAsm.Table
import StoryAsm.World.Handle

/-!
# Objects

An object is a node of the object tree with properties and flags. Its record holds the flags as
bits and the links as names; its properties stand in a table of their own, in descending order of their
numbers.
-/

namespace StoryAsm

inductive PropertyValue where
  | byte (operand : Operand)
  | word (operand : Operand)
  | table (table : Table)

structure Object where
  name : String
  description : Option String := none
  parent : Option ObjectId := none
  child : Option ObjectId := none
  sibling : Option ObjectId := none
  /-- Values by property number, each number once. -/
  properties : Array (Nat × PropertyValue) := #[]
  /-- The numbers of the flags that are set, each once. -/
  flags : List Nat := []

namespace Object

def operand (object : Object) : Operand :=
  .symbol object.name

/-- The label of the object's property table. -/
def tableSymbol (object : Object) : String :=
  "?PTBL?" ++ object.name

/-! ## Flags -/

def hasFlag (object : Object) (flag : FlagId) : Bool :=
  object.flags.contains flag.number

def setFlag (object : Object) (flag : FlagId) : Object :=
  { object with flags := object.flags.insert flag.number }

def clearFlag (object : Object) (flag : FlagId) : Object :=
  { object with flags := object.flags.erase flag.number }

/-- Sixteen flags as the bits of a word: the first of them is the highest bit. -/
def flagWord (flags : List Nat) (index : Nat) : Nat :=
  (flags.filter (· / 16 = index)).foldl (fun word flag => word ||| 1 <<< (15 - flag % 16)) 0

/-- The first words of the object's flags. -/
def flagWords (object : Object) (count : Nat) : List Nat :=
  (List.range count).map (flagWord object.flags)

/-! ## Properties -/

/-- Give the object a property. A property is given once. -/
def addProperty (object : Object) (property : PropertyId) (value : PropertyValue) :
    Except EmitError Object :=
  if object.properties.any (·.1 == property.number) then
    .error (.propertyTaken object.name property.number)
  else
    .ok { object with properties := object.properties.push (property.number, value) }

/-- An empty table for a property of the object. -/
def emptyTable (object : Object) (property : PropertyId) : Table :=
  .new s!"{object.tableSymbol}?{property.number}" true

/-- The table of a property, if the object has one there. -/
def propertyTable? (object : Object) (property : PropertyId) : Option Table :=
  object.properties.toList.findSome? fun
    | (number, .table table) => if number = property.number then some table else none
    | _ => none

/-- Change the table of a property. -/
def modifyTable (object : Object) (property : PropertyId) (change : Table → Table) : Object :=
  { object with
    properties := object.properties.map fun
      | (number, .table table) =>
        (number, .table (if number = property.number then change table else table))
      | entry => entry }

/-- Properties in descending order of their numbers. -/
def sortedProperties (object : Object) : List (Nat × PropertyValue) :=
  object.properties.toList.mergeSort fun a b => decide (b.1 ≤ a.1)

/-! ## Statements -/

/-- The object record. `nameOf` gives the name of a linked object. -/
def record (object : Object) (flagWords : Nat) (nameOf : Option ObjectId → String) : Statement :=
  .object object.name (object.flagWords flagWords) (nameOf object.parent)
    (nameOf object.sibling) (nameOf object.child) object.tableSymbol

/-- One property value. A table must have between 1 and `limit` bytes. -/
def propertyStatements (object : Object) (limit number : Nat) :
    PropertyValue → Except EmitError (List Statement)
  | .byte operand => .ok [.property 1 number, .data .byte [operand.text]]
  | .word operand => .ok [.property 2 number, .data .word [operand.text]]
  | .table table =>
    if table.size = 0 ∨ limit < table.size then
      .error (.propertyLength object.name number table.size limit)
    else
      .ok (.property table.size number :: table.body)

/-- The property table: short name, properties, end mark. -/
def tableStatements (object : Object) (limit : Nat) : Except EmitError (List Statement) := do
  let properties ← object.sortedProperties.mapM fun (number, value) =>
    object.propertyStatements limit number value
  let shortName :=
    match object.description with
    | some text => .shortName text
    | none => .data .byte ["0"]
  return .label object.tableSymbol :: shortName :: properties.flatten ++ [.data .byte ["0"]]

end Object

end StoryAsm
