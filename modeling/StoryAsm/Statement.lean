import StoryAsm.Code.Instr
import StoryAsm.Text.Quoted

/-!
# Statements

The segments of a story are lists of assembler statements. A statement is written on lines of its
own.
-/

namespace StoryAsm

open Text

/-- The width of a value in a data directive. -/
inductive Width where
  | byte
  | word
  deriving DecidableEq

def Width.bytes : Width → Nat
  | byte => 1
  | word => 2

def Width.directive : Width → String
  | byte => ".BYTE"
  | word => ".WORD"

inductive Statement where
  | blank
  /-- A label that the other segments can see. -/
  | label (name : String)
  | assign (name value : String)
  | global (name : String) (value : Option String)
  | data (width : Width) (values : List String)
  /-- An object record: name, flag words, links and property table. -/
  | object (name : String) (flags : List Nat) (parent sibling child table : String)
  /-- The short name of an object. -/
  | shortName (text : String)
  /-- The head of a property value. -/
  | property (size number : Nat)
  | dictionaryWord (text : String)
  | packedString (name text : String)
  | frequentString (name text : String)
  /-- A symbol as a word of data. -/
  | entry (name : String)
  | version (number : Nat)
  | insert (file : String)
  | endOfSource
  /-- The head of a routine: its name and its variables with the values given there. -/
  | routine (name : String) (slots : List (String × Option String))
  | code (line : Line Instr)
  /-- A label behind the last line of a routine. -/
  | lastLabel (place : Label)
  /-- A debug directive. -/
  | debug (record : String)
  deriving DecidableEq

namespace Statement

/-- `NAME`, or `NAME=VALUE` where a value is given. -/
def binding (name : String) : Option String → String
  | some value => name ++ "=" ++ value
  | none => name

/-- An indented line. -/
def indented (text : String) : String :=
  "\t" ++ text ++ "\n"

def text : Statement → String
  | blank => "\n"
  | label name => name ++ "::\n"
  | assign name value => indented (binding name (some value))
  | global name value => indented (".GVAR " ++ binding name value)
  | data width values => indented (width.directive ++ " " ++ ",".intercalate values)
  | object name flags parent sibling child table =>
    indented (".OBJECT " ++
      ",".intercalate ([name] ++ flags.map toString ++ [parent, sibling, child, table]))
  | shortName text => indented (".STRL " ++ quote text)
  | property size number => indented s!".PROP {size},{number}"
  | dictionaryWord text => indented (".ZWORD " ++ quote text)
  | packedString name text => indented (".GSTR " ++ name ++ "," ++ quote text)
  | frequentString name text => indented (".FSTR " ++ name ++ "," ++ quote text)
  | entry name => indented name
  | version number => indented s!".NEW {number}"
  | insert file => indented (".INSERT " ++ quote file)
  | endOfSource => indented ".END"
  | routine name slots =>
    indented (".FUNCT " ++
      ",".intercalate (name :: slots.map fun (name, value) => binding name value))
  | code line => line.text
  | lastLabel place => place.text ++ ":\n"
  | debug record => indented record

end Statement

/-- The text of a list of statements. -/
def sourceText (statements : List Statement) : String :=
  String.join (statements.map (·.text))

end StoryAsm
