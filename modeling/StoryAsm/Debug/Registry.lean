import StoryAsm.Files.Path
import StoryAsm.Text.Quoted

/-!
# The debug registry

Source files are numbered from 1 in the order in which they are first seen. The registry lists the
files and also maps them to their ids; a file is looked up in the map and written from the list.
Records that belong to no line of code are stored and written with the data.
-/

namespace StoryAsm

open Text

/-- A region of source text. -/
structure Span where
  file : String
  startLine : Nat
  startColumn : Nat
  endLine : Nat
  endColumn : Nat
  deriving DecidableEq

/-- The span of a single position. -/
def Span.point (file : String) (line column : Nat) : Span :=
  ⟨file, line, column, line, column⟩

namespace Registry

/-- The map knows the files of the list and no others. The id of a file is its place, counted from 1. -/
def InStep (files : List String) (ids : List (String × Nat)) : Prop :=
  ∀ file, ids.lookup file = (files.idxOf? file).map (· + 1)

theorem inStep_nil : InStep [] [] := fun _ => rfl

/-- A file that the map does not know takes the next place in the list, and its number. -/
theorem InStep.push {files : List String} {ids : List (String × Nat)} (h : InStep files ids)
    {file : String} (hnew : ids.lookup file = none) :
    InStep (files ++ [file]) ((file, files.length + 1) :: ids) := by
  intro other
  have hplace : (files ++ [file]).idxOf? other =
      (files.idxOf? other).or (if file = other then some files.length else none) := by
    simp [List.idxOf?, List.findIdx?_append]
  rw [hplace]
  by_cases heq : file = other
  · subst heq
    have hfile : files.idxOf? file = none := by simpa [h file] using hnew
    simp [hfile]
  · have hne : (other == file) = false := beq_false_of_ne (Ne.symm heq)
    simp only [List.lookup_cons, hne, if_neg heq, Option.or_none, h other]

end Registry

structure Registry where
  /-- The file at index `i` has the id `i + 1`. -/
  files : Array String := #[]
  /-- The ids of the files. -/
  ids : List (String × Nat) := []
  stored : Array String := #[]
  inStep : Registry.InStep files.toList ids := by exact Registry.inStep_nil

namespace Registry

/-- The id of a file, which is the next free one if the file is new. -/
def fileId (file : String) (registry : Registry) : Nat × Registry :=
  match h : registry.ids.lookup file with
  | some id => (id, registry)
  | none =>
    let files := registry.files.push file
    (files.size,
      { registry with
        files
        ids := (file, files.size) :: registry.ids
        inStep := by simpa [files] using registry.inStep.push h })

/-- The directive that marks the start of a span. -/
def lineRecord (span : Span) (registry : Registry) : String × Registry :=
  let (id, registry) := registry.fileId span.file
  (s!".DEBUG-LINE {id},{span.startLine},{span.startColumn}", registry)

/-- Store a record as it is. -/
def store (record : String) (registry : Registry) : Registry :=
  { registry with stored := registry.stored.push record }

def markObject (object name : String) (span : Span) (registry : Registry) : Registry :=
  let (id, registry) := registry.fileId span.file
  registry.store (s!".DEBUG-OBJECT {object},{quote name}," ++
    s!"{id},{span.startLine},{span.startColumn},{id},{span.endLine},{span.endColumn}")

def markAction (action name : String) (registry : Registry) : Registry :=
  registry.store s!".DEBUG-ACTION {action},{quote name}"

def map (key value : String) (registry : Registry) : Registry :=
  registry.store s!".DEBUG-MAP {quote key}={quote value}"

/-- The files with their ids, in the order of the ids. -/
def fileIds (registry : Registry) : List (Nat × String) :=
  registry.files.toList.zipIdx.map fun (file, index) => (index + 1, file)

/-- The record of a file: its id, its name without extension and its path. -/
def fileRecord (id : Nat) (file : String) : String :=
  let stem := (Path.fileStem? file).getD file
  s!".DEBUG-FILE {id},{quote stem},{quote file}"

end Registry

end StoryAsm
