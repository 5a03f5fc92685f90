/-!
# Paths

A path is a text with parts between slashes. Empty parts, and parts `.` that do not stand at the
start, carry no meaning. Paths are kept as they were given: the parent of a path is one of its
beginnings.
-/

namespace StoryAsm.Path

/-- The parts of a text between slashes. -/
def splitSlash : List Char → List (List Char)
  | [] => [[]]
  | c :: rest =>
    if c = '/' then [] :: splitSlash rest
    else
      match splitSlash rest with
      | [] => [[c]]
      | part :: parts => (c :: part) :: parts

def parts (path : String) : List String :=
  (splitSlash path.toList).map String.ofList

inductive Component where
  | root
  | current
  | up
  | name (text : String)
  deriving DecidableEq

/-- A part that carries meaning. -/
def Component.ofPart (part : String) : Component :=
  if part = ".." then .up else .name part

/-- The components of the given parts, each with the path up to it; `before` is the path in front
of the parts. -/
def scan (before : String) : List String → List (Component × String)
  | [] => []
  | part :: rest =>
    let upTo := before ++ "/" ++ part
    if part = "" ∨ part = "." then scan upTo rest
    else (.ofPart part, upTo) :: scan upTo rest

/-- The components of a path, each with the beginning of the path that ends with it. -/
def components (path : String) : List (Component × String) :=
  match parts path with
  | [] => []
  | "" :: [] => []
  | "" :: rest => (.root, "/") :: scan "" rest
  | "." :: rest => (.current, ".") :: scan "." rest
  | part :: rest => (.ofPart part, part) :: scan part rest

/-- The path without its last component. The root and the empty path have no parent. -/
def parent? (path : String) : Option String :=
  match (components path).reverse with
  | [] => none
  | (.root, _) :: _ => none
  | _ :: [] => some ""
  | _ :: (_, upTo) :: _ => some upTo

/-- The path and its parents, from the longest to the shortest, without the root and the empty
path. -/
def ancestors (path : String) : List String :=
  match ((components path).filter (·.1 ≠ .root)).reverse with
  | [] => []
  | _ :: above => path :: above.map (·.2)

/-- The last component, if it is a name. -/
def fileName? (path : String) : Option String :=
  match (components path).getLast? with
  | some (.name text, _) => some text
  | _ => none

/-- A file name up to its last dot. A dot at the start of the name does not count. -/
def stem (name : String) : String :=
  match (name.toList.reverse.dropWhile (· ≠ '.')).drop 1 with
  | [] => name
  | before => String.ofList before.reverse

def fileStem? (path : String) : Option String :=
  (fileName? path).map stem

/-- The path of a file below a directory. A file with an absolute path stays where it is. -/
def join (dir file : String) : String :=
  if file.startsWith "/" then file
  else if dir = "" ∨ dir.endsWith "/" then dir ++ file
  else dir ++ "/" ++ file

end StoryAsm.Path
