import Std.Data.TreeMap
import StoryAsm.Text.Alphanumeric

/-!
# Manifests

A manifest describes a small game: what the game is called, and the flags, properties, globals, objects,
vocabulary words and constants of its story. Values refer to other definitions by name.
-/

namespace StoryAsm

open Text

/-- A literal number, or the name of another definition. -/
inductive Manifest.Value where
  | number (value : Int)
  | symbol (name : String)
  deriving DecidableEq

/-- Values by name, in the order of the names. -/
abbrev Manifest.Values := Std.TreeMap String Manifest.Value

structure Manifest.Game where
  name : String
  version : Int := 3
  debug : Bool := false
  greeting : String := "Hello, sailor!"
  deriving DecidableEq

/-- A property or a global, with its default value. -/
structure Manifest.Slot where
  name : String
  value : Option Manifest.Value := none
  deriving DecidableEq

structure Manifest.Thing where
  name : String
  description : Option String := none
  parent : Option String := none
  flags : List String := []
  properties : Manifest.Values := {}

structure Manifest where
  game : Manifest.Game
  constants : Manifest.Values := {}
  flags : List String := []
  properties : List Manifest.Slot := []
  globals : List Manifest.Slot := []
  objects : List Manifest.Thing := []
  vocabulary : List String := []

/-- How a story is built. -/
structure BuildSettings where
  version : Int := 3
  debug : Bool := false
  outDir : String := "."
  /-- What the names of the output files start with. -/
  outName : String := "story"
  /-- Write the frequent-words file even if there is one. -/
  forceFrequentWords : Bool := false
  deriving DecidableEq

namespace Manifest

/-- The name of manifest files. -/
def fileName : String := "zapgen.toml"

/-- A game of one room. -/
def sample (name : String) : Manifest where
  game := { name, greeting := s!"Welcome to {name}!" }
  flags := ["LIGHTBIT"]
  globals := [{ name := "HERE", value := some (.symbol "START-ROOM") }]
  objects := [
    { name := "ROOMS" },
    { name := "START-ROOM", description := some "Starting Room", parent := some "ROOMS"
      flags := ["LIGHTBIT"] }]

/-- Letters and digits of any script and dashes may stand in the name of an output file; capitals from A
to Z become small. -/
def outputChar (c : Char) : Char :=
  if isAlphanumeric c || c = '-' then c.toLower else '_'

/-- What the names of a game's output files start with. -/
def outputName (game : String) : String :=
  if game = "" then "story" else String.ofList (game.toList.map outputChar)

/-- The settings of the manifest on top of given ones. -/
def settings (manifest : Manifest) (base : BuildSettings) : BuildSettings :=
  { base with
    version := manifest.game.version
    debug := base.debug || manifest.game.debug
    outName := outputName manifest.game.name }

end Manifest

end StoryAsm
