import StoryAsm.Manifest.Data
import StoryAsm.Toml.Reader
import StoryAsm.Toml.Writer

/-!
# Manifests as text

Manifests are kept as TOML documents.
-/

namespace StoryAsm.Manifest

open Toml (Section Item)

/-- What is wrong with a text that is no manifest. -/
inductive Flaw where
  | notToml
  | notManifest
  deriving DecidableEq

def Flaw.message : Flaw → String
  | .notToml => "the text is not valid TOML"
  | .notManifest => "the document does not have the fields of a manifest"

/-- Read a manifest. A list that stands for a record may go on behind its fields. -/
def parse (text : String) : Except Flaw Manifest :=
  match Toml.parse? text with
  | none => .error .notToml
  | some entries =>
    match ofData? false (Toml.Value.table .header entries).toData with
    | none => .error .notManifest
    | some manifest => .ok manifest

def Value.item : Value → Item
  | .number value => .integer value
  | .symbol name => .text name

def valuePairs (values : Values) : List (String × Item) :=
  values.toList.map fun (name, value) => (name, value.item)

/-- A pair that is left out if it has no value. -/
def optionalPair (key : String) (item : Option Item) : List (String × Item) :=
  item.toList.map fun item => (key, item)

/-- The document's own pair for a list of tables, which is there only if the list is empty. -/
def emptyList {α : Type} (key : String) (values : List α) : List (String × Item) :=
  if values.isEmpty then [(key, .texts [])] else []

def Game.toSection (game : Game) : Section where
  header := .table "game"
  pairs := [("name", .text game.name), ("zversion", .integer game.version),
    ("debug", .boolean game.debug), ("greeting", .text game.greeting)]

def Slot.toSection (path : String) (slot : Slot) : Section where
  header := .element path
  pairs := ("name", .text slot.name) :: optionalPair "default" (slot.value.map (·.item))

/-- An object, and its properties if it has any. -/
def Thing.sections (thing : Thing) : List Section :=
  { header := .element "objects"
    pairs := ("name", .text thing.name)
      :: optionalPair "desc" (thing.description.map .text)
      ++ optionalPair "parent" (thing.parent.map .text)
      ++ if thing.flags.isEmpty then [] else [("flags", .texts thing.flags)] }
  :: if thing.properties.isEmpty then []
    else [{ header := .table "objects.properties", pairs := valuePairs thing.properties }]

def sections (manifest : Manifest) : List Section :=
  { header := .document
    pairs := ("flags", .texts manifest.flags)
      :: emptyList "properties" manifest.properties
      ++ emptyList "globals" manifest.globals
      ++ emptyList "objects" manifest.objects
      ++ [("vocabulary", .texts manifest.vocabulary)] }
  :: manifest.game.toSection
  :: { header := .table "constants", pairs := valuePairs manifest.constants }
  :: manifest.properties.map (Slot.toSection "properties")
  ++ manifest.globals.map (Slot.toSection "globals")
  ++ manifest.objects.flatMap Thing.sections

/-- The manifest as the text of a document. -/
def render (manifest : Manifest) : String :=
  Toml.write manifest.sections

end StoryAsm.Manifest
