import StoryAsm.Manifest.Basic

/-!
# Manifests as plain data

`Data` is what any format for structured text can hold. `Manifest.ofData?` reads a manifest from it and
`Manifest.toData` gives a manifest back as data.
-/

namespace StoryAsm

inductive Data where
  | null
  | boolean (value : Bool)
  | integer (value : Int)
  | text (value : String)
  | list (values : List Data)
  | record (members : List (String × Data))
  /-- A value that has no place in a manifest, such as a number with a fraction. -/
  | other
  deriving Inhabited

namespace Data

def boolean? : Data → Option Bool
  | boolean value => some value
  | _ => none

/-- An integer that fits in 32 bits. -/
def int32? : Data → Option Int
  | integer value => if -2147483648 ≤ value ∧ value ≤ 2147483647 then some value else none
  | _ => none

def text? : Data → Option String
  | text value => some value
  | _ => none

def list? {α : Type} (read : Data → Option α) : Data → Option (List α)
  | list values => values.mapM read
  | _ => none

/-- The fields of a record. A record can also be written as the list of its fields in the order of their
names here; the last ones can be left out, and `exact` says that nothing may follow them. -/
def fields? (exact : Bool) (names : List String) : Data → Option (String → Option Data)
  | record members => some fun name => members.lookup name
  | list values =>
    if exact && names.length < values.length then none
    else some fun name => (names.zip values).lookup name
  | _ => none

/-- A field that has to be there. -/
def required {α : Type} (read : Data → Option α) : Option Data → Option α
  | some data => read data
  | none => none

/-- A field with a default. -/
def defaulted {α : Type} (default : α) (read : Data → Option α) : Option Data → Option α
  | some data => read data
  | none => some default

/-- A field that may be missing or null. -/
def nullable {α : Type} (read : Data → Option α) : Option Data → Option (Option α)
  | none | some null => some none
  | some data => (read data).map some

end Data

namespace Manifest

open Data

/-! ## Reading -/

def Value.ofData? : Data → Option Value
  | .text name => some (.symbol name)
  | data => data.int32?.map .number

def valuesOfData? : Data → Option Values
  | .record members => do
    let values ← members.mapM fun (name, data) => return (name, ← Value.ofData? data)
    return .ofList values
  | _ => none

def Game.ofData? (exact : Bool) (data : Data) : Option Game := do
  let field ← data.fields? exact ["name", "zversion", "debug", "greeting"]
  let game : Game := { name := ← required text? (field "name") }
  return { game with
    version := ← defaulted game.version int32? (field "zversion")
    debug := ← defaulted game.debug boolean? (field "debug")
    greeting := ← defaulted game.greeting text? (field "greeting") }

def Slot.ofData? (exact : Bool) (data : Data) : Option Slot := do
  let field ← data.fields? exact ["name", "default"]
  return {
    name := ← required text? (field "name")
    value := ← nullable Value.ofData? (field "default") }

def Thing.ofData? (exact : Bool) (data : Data) : Option Thing := do
  let field ← data.fields? exact ["name", "desc", "parent", "flags", "properties"]
  return {
    name := ← required text? (field "name")
    description := ← nullable text? (field "desc")
    parent := ← nullable text? (field "parent")
    flags := ← defaulted [] (list? text?) (field "flags")
    properties := ← defaulted {} valuesOfData? (field "properties") }

/-- The manifest that the data describe. Members of a record that are no fields are ignored. -/
def ofData? (exact : Bool) (data : Data) : Option Manifest := do
  let field ← data.fields? exact
    ["game", "constants", "flags", "properties", "globals", "objects", "vocabulary"]
  return {
    game := ← required (Game.ofData? exact) (field "game")
    constants := ← defaulted {} valuesOfData? (field "constants")
    flags := ← defaulted [] (list? text?) (field "flags")
    properties := ← defaulted [] (list? (Slot.ofData? exact)) (field "properties")
    globals := ← defaulted [] (list? (Slot.ofData? exact)) (field "globals")
    objects := ← defaulted [] (list? (Thing.ofData? exact)) (field "objects")
    vocabulary := ← defaulted [] (list? text?) (field "vocabulary") }

/-! ## Writing -/

def Value.toData : Value → Data
  | .number value => .integer value
  | .symbol name => .text name

def valuesToData (values : Values) : Data :=
  .record (values.toList.map fun (name, value) => (name, value.toData))

def textsToData (texts : List String) : Data :=
  .list (texts.map .text)

/-- A field that is left out if there is nothing in it. -/
def fieldUnless (isMissing : Bool) (name : String) (data : Data) : List (String × Data) :=
  if isMissing then [] else [(name, data)]

/-- A field that is left out if it has no value. -/
def optionalField (name : String) (data : Option Data) : List (String × Data) :=
  data.toList.map fun data => (name, data)

def Game.toData (game : Game) : Data :=
  .record [("name", .text game.name), ("zversion", .integer game.version),
    ("debug", .boolean game.debug), ("greeting", .text game.greeting)]

def Slot.toData (slot : Slot) : Data :=
  .record (("name", .text slot.name) :: optionalField "default" (slot.value.map (·.toData)))

def Thing.toData (thing : Thing) : Data :=
  .record (("name", .text thing.name)
    :: optionalField "desc" (thing.description.map .text)
    ++ optionalField "parent" (thing.parent.map .text)
    ++ fieldUnless thing.flags.isEmpty "flags" (textsToData thing.flags)
    ++ fieldUnless thing.properties.isEmpty "properties" (valuesToData thing.properties))

def toData (manifest : Manifest) : Data :=
  .record [
    ("game", manifest.game.toData),
    ("constants", valuesToData manifest.constants),
    ("flags", textsToData manifest.flags),
    ("properties", .list (manifest.properties.map (·.toData))),
    ("globals", .list (manifest.globals.map (·.toData))),
    ("objects", .list (manifest.objects.map (·.toData))),
    ("vocabulary", textsToData manifest.vocabulary)]

end Manifest

end StoryAsm
