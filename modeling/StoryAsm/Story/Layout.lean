import StoryAsm.Output.Segment
import StoryAsm.Story.Basic

/-!
# The layout of the segments

The four segments of a story as lists of statements: the code, the data that the code refers to, the
strings, and a stub for frequent words.
-/

namespace StoryAsm.Story

open Text

/-! ## Code -/

/-- The story header of 64 bytes, where the version has it written out. -/
def headerStatements (version : Version) : List Statement :=
  [.data .byte [version.text], .data .byte ["FLAGS"]] ++
  ["RELEASEID", "ENDLOD", "START", "VOCAB", "OBJECT", "GLOBAL", "IMPURE", "FLAGS2"].map
    (fun symbol => .data .word [symbol]) ++
  [ -- serial number
    .data .byte (List.replicate 6 "0"),
    .data .word ["WORDS"],
    -- length and checksum, filled in by the assembler
    .data .word ["0", "0"],
    .data .word (List.replicate 17 "0")]

/-- The main segment. `base` is what the file names start with. -/
def mainStatements (story : Story) (base : String) : List Statement :=
  [.version story.version.number] ++
  (if story.version.hasHeaderBlock then headerStatements story.version else []) ++
  [.insert (Segment.frequentWords.insertName base), .insert (Segment.data.insertName base)] ++
  story.routines.toList.flatMap (fun routine => routine.body.getD []) ++
  [.blank, .insert (Segment.strings.insertName base), .endOfSource]

/-! ## Data -/

/-- Symbols of the header that are zero unless the story defines them. -/
def headerSymbols : List String := ["RELEASEID", "FLAGS", "FLAGS2"]

/-- The assignments of numbers and values to symbols. -/
def assignments (story : Story) : List Statement :=
  let headers :=
    if story.version.hasHeaderBlock then headerSymbols.filter (!story.symbols.contains ·) else []
  let flags := story.flags.toList.mergeSort fun a b => decide (a.number ≤ b.number)
  let properties := story.properties.toList.mergeSort fun a b => decide (a.number ≤ b.number)
  let constants := story.constants.toList.mergeSort fun a b => decide (a.1 ≤ b.1)
  headers.map (.assign · "0") ++
  flags.map (fun flag => .assign flag.name (toString flag.number)) ++
  properties.map (fun property => .assign property.symbol (toString property.number)) ++
  constants.map (fun (name, value) => .assign name value.text)

/-- Globals that early versions show in the status line. They take the first places. -/
def statusGlobals : List String := ["HERE", "SCORE", "MOVES"]

/-- The globals in the order of their places. -/
def orderedGlobals (story : Story) : List Global :=
  let globals := story.globals.toList
  if story.version.number < 4 then
    statusGlobals.filterMap (fun name => globals.find? (·.name == name)) ++
      globals.filter (!statusGlobals.contains ·.name)
  else globals

/-- The default value of the property with a number. -/
def propertyDefault (story : Story) (number : Nat) : String :=
  match (story.properties.find? (·.number == number)).bind (·.value) with
  | some value => value.text
  | none => "0"

/-- The name of a linked object, or zero. -/
def linkName (story : Story) (link : Option ObjectId) : String :=
  ((link.bind fun id => story.objects[id.index]?).map (·.name)).getD "0"

/-- Default values of properties, in ascending order, and the object records. -/
def objectStatements (story : Story) : List Statement :=
  (List.range story.version.maxProperties).map
    (fun index => .data .word [story.propertyDefault (index + 1)]) ++
  story.objects.toList.map (·.record story.version.flagWords story.linkName)

/-- The property tables of all objects, a blank line before each. -/
def propertyTables (story : Story) : Except EmitError (List Statement) := do
  let tables ← story.objects.toList.mapM (·.tableStatements story.version.maxPropertyLength)
  return tables.flatMap (.blank :: ·)

/-- The tables that the story changes, or those that it does not. -/
def tableStatements (story : Story) (isPure : Bool) : List Statement :=
  (story.tables.toList.filter (·.isPure == isPure)).flatMap (.blank :: ·.statements)

/-- Characters that are words of their own in a line of input. -/
def separators : List Char := ['.', ',', '"']

/-- The data bytes of a dictionary record. -/
def wordDataSize (story : Story) : Nat :=
  story.words.foldl (fun size word => max size word.table.size) 0

/-- The words in ascending order of their texts. -/
def sortedWords (story : Story) : List Word :=
  story.words.toList.mergeSort fun a b => decide (a.text ≤ b.text)

/-- The dictionary: separators, length and number of the records, records. -/
def vocabulary (story : Story) : List Statement :=
  let size := story.wordDataSize
  [.data .byte [toString separators.length],
    .data .byte (separators.map (toString ·.toNat)),
    .data .byte [toString (story.version.zwordBytes + size)],
    .data .word [toString story.words.size]] ++
  story.sortedWords.flatMap (·.statements size)

/-- The debug records of the data segment. -/
def debugRecords (story : Story) : List String :=
  let named (directive symbol name : String) : String :=
    s!".DEBUG-{directive} {symbol},{quote name}"
  let flags := (story.flags.toList.map (·.name)).mergeSort fun a b => decide (a ≤ b)
  let properties := story.properties.toList.mergeSort fun a b => decide (a.name ≤ b.name)
  let tables := (story.tables.toList.map (·.name)).mergeSort fun a b => decide (a ≤ b)
  story.registry.fileIds.map (fun (id, file) => Registry.fileRecord id file) ++
  flags.map (fun name => named "ATTR" name name) ++
  properties.map (fun property => named "PROP" property.symbol property.name) ++
  story.orderedGlobals.map (fun global => named "GLOBAL" global.name global.name) ++
  tables.map (fun name => named "ARRAY" name name) ++
  story.registry.stored.toList

/-- The data segment. It fails if the table of a property is empty or too long. -/
def dataStatements (story : Story) : Except EmitError (List Statement) := do
  let propertyTables ← story.propertyTables
  return story.assignments ++
    [.blank, .label "GLOBAL"] ++ story.orderedGlobals.map (·.statement) ++
    [.blank, .label "OBJECT"] ++ story.objectStatements ++ propertyTables ++
    story.tableStatements false ++
    [.blank, .label "IMPURE"] ++
    [.blank, .label "VOCAB"] ++ story.vocabulary ++
    story.tableStatements true ++
    [.blank, .label "ENDLOD"] ++
    (if story.wantsDebug then .blank :: story.debugRecords.map .debug else [])

/-! ## Strings and frequent words -/

def stringStatements (story : Story) : List Statement :=
  story.pool.sortedStrings.map fun (content, operand) => .packedString operand.text content

/-- A stub with the same entry for all frequent words. -/
def frequentStatements : List Statement :=
  [.frequentString "FSTR?DUMMY" "", .label "WORDS"] ++ List.replicate 96 (.entry "FSTR?DUMMY")

end StoryAsm.Story
