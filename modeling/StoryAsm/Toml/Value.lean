import StoryAsm.Manifest.Data
import StoryAsm.Toml.Moment

/-!
# TOML values

The data of a TOML document. Numbers with a fraction are recognised, but their values are of no use
here. A table remembers how it was made, since that decides what may be added to it.
-/

namespace StoryAsm.Toml

/-- How a table came to be. -/
inductive Origin where
  /-- Written in braces. Nothing can be added to it. -/
  | inline
  /-- Opened by a header of its own. -/
  | header
  /-- Named on the way in the header of another table. -/
  | implicit
  /-- Named on the way in a dotted key. -/
  | dotted
  deriving DecidableEq

inductive Value where
  | string (text : String)
  | integer (value : Int)
  | float
  | boolean (value : Bool)
  | moment (moment : Moment)
  | array (values : List Value)
  | table (origin : Origin) (entries : List (String × Value))
  /-- An array of tables that were opened by headers: the last one and those before it, nearest
  first. -/
  | tables (last : List (String × Value)) (earlier : List (List (String × Value)))

/-- The entries of a table, in the order of their keys' first appearance. -/
abbrev Entries := List (String × Value)

/-- The name of the one member that a moment has as data. -/
def momentKey : String := "$__toml_private_datetime"

mutual

/-- The value without the history of its tables. A moment is a record of its text. -/
def Value.toData : Value → Data
  | .string text => .text text
  | .integer value => .integer value
  | .boolean value => .boolean value
  | .float => .other
  | .moment moment => .record [(momentKey, .text moment.text)]
  | .array values => .list (dataOfValues values)
  | .table _ entries => .record (dataOfEntries entries)
  | .tables last earlier => .list ((Data.record (dataOfEntries last) :: dataOfTables earlier).reverse)

def dataOfValues : List Value → List Data
  | [] => []
  | value :: rest => value.toData :: dataOfValues rest

def dataOfEntries : List (String × Value) → List (String × Data)
  | [] => []
  | (key, value) :: rest => (key, value.toData) :: dataOfEntries rest

def dataOfTables : List (List (String × Value)) → List Data
  | [] => []
  | entries :: rest => .record (dataOfEntries entries) :: dataOfTables rest

end

namespace Entries

/-- Put a value in the place of the old value of a key, or at the end if the key is new. -/
def put (key : String) (value : Value) : Entries → Entries
  | [] => [(key, value)]
  | (other, old) :: rest =>
    if other = key then (key, value) :: rest else (other, old) :: put key value rest

/-- Add a value under a dotted key: the tables on the way, and the last part of the key. Tables on
the way are made if they do not exist. The table that takes the value must have been made by a dotted key
too, and a value or a table with its own header cannot stand on the way. -/
def insertDotted : (path : List String) → (key : String) → Value → Entries → Option Entries
  | [], key, value, entries =>
    if (entries.lookup key).isSome then none else some (entries ++ [(key, value)])
  | part :: path, key, value, entries =>
    match entries.lookup part with
    | none => do
      let inner ← insertDotted path key value []
      return entries.put part (.table .dotted inner)
    | some (.table .dotted inner) => do
      let inner ← insertDotted path key value inner
      return entries.put part (.table .dotted inner)
    | some (.table .implicit inner) => do
      if path.isEmpty then none
      let inner ← insertDotted path key value inner
      return entries.put part (.table .implicit inner)
    | some (.tables last earlier) => do
      if path.isEmpty then none
      let last ← insertDotted path key value last
      return entries.put part (.tables last earlier)
    | some _ => none

/-- Change the table at the path of a header. Tables on the way are made if they do not exist; in
an array of tables the last one counts. -/
def changeAt (change : Entries → Option Entries) : List String → Entries → Option Entries
  | [], entries => change entries
  | part :: path, entries =>
    match entries.lookup part with
    | none => do
      let inner ← changeAt change path []
      return entries.put part (.table .implicit inner)
    | some (.table .inline _) => none
    | some (.table origin inner) => do
      let inner ← changeAt change path inner
      return entries.put part (.table origin inner)
    | some (.tables last earlier) => do
      let last ← changeAt change path last
      return entries.put part (.tables last earlier)
    | some _ => none

/-- Open a table by its header. Only a table that was named on the way to another can exist. -/
def openTable (key : String) (entries : Entries) : Option Entries :=
  match entries.lookup key with
  | none => some (entries.put key (.table .header []))
  | some (.table .implicit inner) => some (entries.put key (.table .header inner))
  | some _ => none

/-- Open one more table of an array of tables. -/
def openElement (key : String) (entries : Entries) : Option Entries :=
  match entries.lookup key with
  | none => some (entries.put key (.tables [] []))
  | some (.tables last earlier) => some (entries.put key (.tables [] (last :: earlier)))
  | some _ => none

end Entries

end StoryAsm.Toml
