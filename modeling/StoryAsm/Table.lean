import StoryAsm.Operand.Basic
import StoryAsm.Statement

/-!
# Tables and vocabulary words

A table is a sequence of bytes and words, each a literal or an operand. Its entries are written in
runs: a directive holds at most ten values, all of one width and all literals or all operands. A word
of the dictionary has a text and a table of data that follows the text in its record.
-/

namespace StoryAsm

inductive Entry where
  | byte (value : UInt8)
  | byteOperand (operand : Operand)
  | word (value : Int16)
  | wordOperand (operand : Operand)
  deriving DecidableEq

namespace Entry

def width : Entry → Width
  | byte _ | byteOperand _ => .byte
  | word _ | wordOperand _ => .word

def isLiteral : Entry → Bool
  | byte _ | word _ => true
  | byteOperand _ | wordOperand _ => false

def text : Entry → String
  | byte value => toString value.toNat
  | word value => toString value.toInt
  | byteOperand operand | wordOperand operand => operand.text

/-- The two entries may stand in one directive. -/
def alike (a b : Entry) : Bool :=
  a.width == b.width && a.isLiteral == b.isLiteral

end Entry

/-- Entries per directive. -/
def runLimit : Nat := 10

/-- A run of entries that one directive holds: the first entry and the others. -/
structure Run where
  head : Entry
  tail : List Entry := []

namespace Run

def entries (run : Run) : List Entry :=
  run.head :: run.tail

/-- The entry still fits into the run. -/
def accepts (run : Run) (entry : Entry) : Bool :=
  run.head.alike entry && decide (run.entries.length < runLimit)

def statement (run : Run) : Statement :=
  .data run.head.width (run.entries.map (·.text))

/-- Split entries into runs, where `run` holds the entries of the current one. -/
def split (run : Run) : List Entry → List Run
  | [] => [run]
  | entry :: rest =>
    if run.accepts entry then { run with tail := run.tail ++ [entry] }.split rest
    else run :: split { head := entry } rest

end Run

/-- The runs of a list of entries: each is as long as it can be. -/
def runs : List Entry → List Run
  | [] => []
  | entry :: rest => Run.split { head := entry } rest

/-- The directives of a list of entries. -/
def entryStatements (entries : List Entry) : List Statement :=
  (runs entries).map (·.statement)

structure Table where
  name : String
  /-- The story does not change the table. -/
  isPure : Bool
  entries : Array Entry
  /-- Size in bytes, which is counted as entries are added. -/
  size : Nat
  counted : size = entries.toList.foldl (fun size entry => size + entry.width.bytes) 0

namespace Table

/-- A table without entries. -/
def new (name : String) (isPure : Bool) : Table where
  name
  isPure
  entries := #[]
  size := 0
  counted := rfl

@[simp] theorem name_new (name : String) (isPure : Bool) : (new name isPure).name = name := rfl

def operand (table : Table) : Operand :=
  .symbol table.name

def isEmpty (table : Table) : Bool :=
  table.entries.isEmpty

def push (table : Table) (entry : Entry) : Table :=
  { table with
    entries := table.entries.push entry
    size := table.size + entry.width.bytes
    counted := by simp [table.counted] }

/-- Add entries one after the other. -/
def add (table : Table) (entries : List Entry) : Table :=
  entries.foldl push table

/-- The entries without the label. -/
def body (table : Table) : List Statement :=
  entryStatements table.entries.toList

def statements (table : Table) : List Statement :=
  .label table.name :: table.body

end Table

structure Word where
  /-- The data of the word. The table has the name of the word's symbol. -/
  table : Table
  /-- The dictionary text, in lower case. -/
  text : String

/-- The record of a word, with zeros that fill its data up to the given number of bytes. -/
def Word.statements (word : Word) (dataSize : Nat) : List Statement :=
  [.label word.table.name, .dictionaryWord word.text] ++ word.table.body ++
    List.replicate (dataSize - word.table.size) (.data .byte ["0"])

end StoryAsm
