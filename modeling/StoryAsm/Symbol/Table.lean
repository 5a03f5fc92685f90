import Std.Data.TreeMap
import StoryAsm.Error

/-!
# The symbol table

All definitions of a story share one namespace: a name is defined once, as one kind of thing.
-/

namespace StoryAsm

/-- What a symbol was defined as. -/
inductive SymbolKind where
  | constant
  | global
  | table
  | routine
  | object
  | property
  | flag
  | word
  deriving DecidableEq

def SymbolKind.text : SymbolKind → String
  | .constant => "constant"
  | .global => "global"
  | .table => "table"
  | .routine => "routine"
  | .object => "object"
  | .property => "property"
  | .flag => "flag"
  | .word => "word"

def SymbolKind.all : List SymbolKind :=
  [.constant, .global, .table, .routine, .object, .property, .flag, .word]

def SymbolKind.ofText? (text : String) : Option SymbolKind :=
  all.find? (·.text = text)

/-- The kind as the first word of a log text. -/
def SymbolKind.title : SymbolKind → String
  | .constant => "Constant"
  | .global => "Global"
  | .table => "Table"
  | .routine => "Routine"
  | .object => "Object"
  | .property => "Property"
  | .flag => "Flag"
  | .word => "Word"

/-- The symbols defined so far, by name. -/
structure SymbolTable where
  kinds : Std.TreeMap String SymbolKind := {}

namespace SymbolTable

def kind? (table : SymbolTable) (name : String) : Option SymbolKind :=
  table.kinds[name]?

def contains (table : SymbolTable) (name : String) : Bool :=
  table.kinds.contains name

def size (table : SymbolTable) : Nat :=
  table.kinds.size

/-- The symbols in ascending order of their names. -/
def toList (table : SymbolTable) : List (String × SymbolKind) :=
  table.kinds.toList

/-- Define a name; a name that is taken is refused. -/
def define (table : SymbolTable) (name : String) (kind : SymbolKind) :
    Except EmitError SymbolTable :=
  if table.contains name then .error (.duplicateSymbol name)
  else .ok { kinds := table.kinds.insert name kind }

end SymbolTable

end StoryAsm
