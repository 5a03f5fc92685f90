import StoryAsm.Story.Basic
import StoryAsm.Text.Casing

/-!
# Definitions

Each definition claims a symbol in the one namespace of the story. Properties and flags are numbered
downward from the greatest number of the version.
-/

namespace StoryAsm.Story

open Text

/-- Define a symbol. -/
def defineSymbol (symbol : String) (kind : SymbolKind) : StoryM Unit := do
  let story ← get
  match story.symbols.define symbol kind with
  | .error error => throw error
  | .ok symbols => set { story with symbols }

/-- Define the symbol of a name. -/
def claim (name : String) (kind : SymbolKind) : StoryM String := do
  let symbol := Symbol.ofName name
  defineSymbol symbol kind
  report (.defined kind symbol)
  return symbol

def maxGlobals : Nat := 240

def defineConstant (name : String) (value : Operand) : StoryM Operand := do
  let symbol ← claim name .constant
  modify fun story => { story with constants := story.constants.push (symbol, value) }
  return .symbol symbol

def defineGlobal (name : String) : StoryM GlobalId := do
  let index := (← get).globals.size
  if maxGlobals ≤ index then throw (.tooManyGlobals maxGlobals)
  let symbol ← claim name .global
  modify fun story => { story with globals := story.globals.push { name := symbol } }
  return ⟨index⟩

/-- Tables have no names of their own. -/
def defineTable (isPure : Bool) : StoryM TableId := do
  let index := (← get).tables.size
  let name := s!"TBL?{index}"
  defineSymbol name .table
  modify fun story => { story with tables := story.tables.push (.new name isPure) }
  return ⟨index⟩

/-- Define a routine. A story has one entry point at most. -/
def defineRoutine (name : String) (isEntryPoint cleansStack : Bool) : StoryM RoutineId := do
  let story ← get
  if isEntryPoint then
    if let some entry := story.entryPoint then
      throw (.entryPointTaken (((story.routines[entry.index]?).map (·.name)).getD ""))
  let id : RoutineId := ⟨story.routines.size⟩
  let symbol ← claim name .routine
  modify fun story =>
    { story with
      routines := story.routines.push
        { name := symbol, version := story.version, isEntryPoint, cleansStack }
      entryPoint := if isEntryPoint then some id else story.entryPoint }
  return id

def defineObject (name : String) : StoryM ObjectId := do
  let story ← get
  let index := story.objects.size
  let limit := story.version.maxObjects
  if limit ≤ index then throw (.tooManyObjects story.version.number limit)
  let symbol ← claim name .object
  modify fun story => { story with objects := story.objects.push { name := symbol } }
  return ⟨index⟩

def defineProperty (name : String) : StoryM PropertyId := do
  let story ← get
  let used := story.properties.size
  let limit := story.version.maxProperties
  if limit ≤ used then throw (.tooManyProperties story.version.number limit)
  let symbol := Symbol.ofName name
  let _ ← claim (Property.symbolOf symbol) .property
  let number := limit - used
  modify fun story => { story with properties := story.properties.push { name := symbol, number } }
  return ⟨used, number⟩

def defineFlag (name : String) : StoryM FlagId := do
  let story ← get
  let used := story.flags.size
  let greatest := story.version.maxFlags
  if greatest < used then throw (.tooManyFlags story.version.number (greatest + 1))
  let symbol ← claim name .flag
  let number := greatest - used
  modify fun story => { story with flags := story.flags.push { name := symbol, number } }
  return ⟨used, number⟩

/-- The symbol of a vocabulary word. -/
def wordSymbol (word : String) : String :=
  "W?" ++ Symbol.ofName (upperCase word)

def defineWord (word : String) : StoryM WordId := do
  let index := (← get).words.size
  let symbol := wordSymbol word
  defineSymbol symbol .word
  report (.definedWord symbol)
  let table : Table := .new symbol true
  modify fun story => { story with words := story.words.push { table, text := lowerCase word } }
  return ⟨index⟩

end StoryAsm.Story
