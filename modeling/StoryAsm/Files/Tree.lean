import StoryAsm.Files.Disk

/-!
# File trees

A file system in memory. A place in it is the list of names that lead there from the root. A path is
followed part by part: every part needs a directory to start from, so that a path with a slash at its
end can only stand for a directory.
-/

namespace StoryAsm

/-- The names on the way from the root. -/
abbrev Place := List String

inductive Node where
  | file (text : String)
  | directory
  deriving DecidableEq

structure Tree where
  /-- The place in which relative paths start. -/
  start : Place := []
  /-- Everything below the root, each place once. -/
  nodes : List (Place × Node) := []

namespace Tree

def node? (tree : Tree) (place : Place) : Option Node :=
  if place = [] then some .directory else tree.nodes.lookup place

def put (tree : Tree) (place : Place) (node : Node) : Tree :=
  { tree with nodes := (place, node) :: tree.nodes.filter (·.1 ≠ place) }

/-- The nodes that another tree does not have, or has with another content. -/
def changesFrom (tree before : Tree) : List (Place × Node) :=
  tree.nodes.filter fun (place, node) => before.node? place ≠ some node

/-! ## Paths -/

/-- The place must be a directory. -/
def enter (tree : Tree) (place : Place) : Except DiskError Unit :=
  match tree.node? place with
  | some .directory => .ok ()
  | some (.file _) => .error .notDirectory
  | none => .error .notFound

/-- The greatest number of bytes in a name. -/
def maxName : Nat := 255

/-- The greatest number of bytes in a path. -/
def maxPath : Nat := 4095

/-- A path that can be followed at all. -/
def checkPath (path : String) : Except DiskError Unit :=
  if path.toList.contains '\x00' then .error .nulInName
  else if maxPath < path.utf8ByteSize then .error .nameTooLong
  else .ok ()

/-- Follow the parts of a path. What the last part leads to need not exist. A name that is too
long is noticed when it is looked up. -/
def follow (tree : Tree) : Place → List String → Except DiskError Place
  | place, [] => .ok place
  | place, part :: parts => do
    tree.enter place
    if part = "" ∨ part = "." then tree.follow place parts
    else if part = ".." then tree.follow place.dropLast parts
    else if maxName < part.utf8ByteSize then .error .nameTooLong
    else tree.follow (place ++ [part]) parts

/-- Follow the parts of a path from where the path starts. -/
def locateParts (tree : Tree) : List String → Except DiskError Place
  | [""] => .error .notFound
  | "" :: parts => tree.follow [] parts
  | parts => tree.follow tree.start parts

/-- The place of a path. The empty path has none. -/
def locate (tree : Tree) (path : String) : Except DiskError Place := do
  checkPath path
  tree.locateParts (Path.parts path)

/-- The parts of a path without slashes at its end. -/
def partsWithoutEnd (path : String) : List String :=
  match ((Path.parts path).reverse.dropWhile (· = "")).reverse with
  | [] => Path.parts path
  | parts => parts

/-- The path ends with a slash. -/
def endsWithSlash (path : String) : Bool :=
  (Path.parts path).length ≠ (partsWithoutEnd path).length

/-! ## Operations -/

def lookup (tree : Tree) (path : String) : Except DiskError Node := do
  match tree.node? (← tree.locate path) with
  | some node => .ok node
  | none => .error .notFound

def isDirectory (tree : Tree) (path : String) : Bool :=
  match tree.lookup path with
  | .ok .directory => true
  | _ => false

def has (tree : Tree) (path : String) : Bool :=
  match tree.lookup path with
  | .ok _ => true
  | .error _ => false

def read (tree : Tree) (path : String) : Except DiskError String := do
  match ← tree.lookup path with
  | .file text => .ok text
  | .directory => .error .isDirectory

/-- The place of a file to create. A path with a slash at its end is no path of a file, which is
noticed before its last name is looked up. -/
def locateFile (tree : Tree) (path : String) : Except DiskError Place := do
  checkPath path
  let parts := partsWithoutEnd path
  if endsWithSlash path then
    let _ ← tree.locateParts (parts.dropLast ++ ["."])
    .error .isDirectory
  else tree.locateParts parts

/-- Create a file or replace its text. -/
def write (tree : Tree) (path text : String) : Except DiskError Tree := do
  let place ← tree.locateFile path
  if tree.node? place = some .directory then .error .isDirectory
  else .ok (tree.put place (.file text))

/-- Create one directory. -/
def makeDir (tree : Tree) (path : String) : Except DiskError Tree := do
  checkPath path
  let place ← tree.locateParts (partsWithoutEnd path)
  match tree.node? place with
  | some _ => .error .alreadyExists
  | none => .ok (tree.put place .directory)

/-- The path of a place. -/
def pathOf (place : Place) : String :=
  "/" ++ "/".intercalate place

/-- Change the tree, or leave it as it is on failure. -/
def change (operation : Tree → Except DiskError Tree) : StateM Tree (Except DiskError Unit) := do
  match operation (← get) with
  | .ok tree => set tree; return .ok ()
  | .error error => return .error error

/-- File trees as a disk. -/
def disk : Disk (StateM Tree) where
  current := return pathOf (← get).start
  has path := return (← get).has path
  read path := return (← get).read path
  write path text := change (·.write path text)
  isDirectory path := return (← get).isDirectory path
  makeDir path := change (·.makeDir path)

end Tree

end StoryAsm
