import StoryAsm.Toml.Number

/-!
# Reading TOML

`Toml.parse?` reads a document. Every line of it is blank, opens a table, opens one more table of an
array of tables, or puts a value under a key of the table that was opened last.
-/

namespace StoryAsm.Toml

/-! ## Values -/

/-- Skip blanks, comments and newlines. A comment must end with a newline. -/
def skipLines : (inComment : Bool) → List Char → Option (List Char)
  | true, [] => none
  | false, [] => some []
  | _, '\n' :: rest => skipLines false rest
  | _, '\r' :: '\n' :: rest => skipLines false rest
  | true, c :: rest => if isPrintable c then skipLines true rest else none
  | false, c :: rest =>
    if isBlank c then skipLines false rest
    else if c = '#' then skipLines true rest
    else some (c :: rest)

/-- The values of an array behind its opening bracket. A comma may follow the last one. -/
def readArray (element : Reader Value) (cs : List Char) : Option (List Value × List Char) := do
  match ← skipLines false cs with
  | ']' :: rest => return ([], rest)
  | start =>
    let (value, rest) ← element start
    match ← skipLines false rest with
    | ']' :: rest => return ([value], rest)
    | ',' :: rest =>
      if rest.length < cs.length then
        let (values, rest) ← readArray element rest
        return (value :: values, rest)
      else none
    | _ => none
termination_by cs.length

/-- A key with its value. -/
def readPair (element : Reader Value) : Reader ((List String × String) × Value) := fun cs => do
  let (key, rest) ← readKey cs
  let '=' :: rest := rest | none
  let (value, rest) ← element (skipBlanks rest)
  return ((key, value), rest)

/-- The entries of an inline table that follow those that were read. -/
def readEntries (element : Reader Value) (entries : Entries) (cs : List Char) :
    Option (Entries × List Char) := do
  let (((path, key), value), rest) ← readPair element cs
  let entries ← entries.insertDotted path key value
  match skipBlanks rest with
  | '\x7d' :: rest => return (entries, rest)
  | ',' :: rest => if rest.length < cs.length then readEntries element entries rest else none
  | _ => none
termination_by cs.length

/-- The entries of an inline table behind its opening brace. It stands on one line. -/
def readInline (element : Reader Value) : Reader Entries := fun cs =>
  match skipBlanks cs with
  | '\x7d' :: rest => some ([], rest)
  | rest => readEntries element [] rest

/-- A value that holds no others. -/
def readScalar : Reader Value := fun cs =>
  match cs with
  | 't' :: 'r' :: 'u' :: 'e' :: rest => some (.boolean true, rest)
  | 'f' :: 'a' :: 'l' :: 's' :: 'e' :: rest => some (.boolean false, rest)
  | '"' :: _ | '\x27' :: _ => do
    let (text, rest) ← readText cs
    return (.string text, rest)
  | _ =>
    match readMoment cs with
    | some (moment, rest) => some (.moment moment, rest)
    | none => readNumber cs

/-- A value that is nested to less than the given depth. -/
def readValue : (depth : Nat) → Reader Value
  | 0, '[' :: _ | 0, '\x7b' :: _ => none
  | depth + 1, '[' :: rest => do
    let (values, rest) ← readArray (readValue depth) rest
    return (.array values, rest)
  | depth + 1, '\x7b' :: rest => do
    let (entries, rest) ← readInline (readValue depth) rest
    return (.table .inline entries, rest)
  | _, cs => readScalar cs

/-! ## Documents -/

/-- The end of a line: blanks, a comment, and a newline or the end of the input. -/
def skipLineEnd : (inComment : Bool) → List Char → Option (List Char)
  | _, [] => some []
  | _, '\n' :: rest => some rest
  | _, '\r' :: '\n' :: rest => some rest
  | true, c :: rest => if isPrintable c then skipLineEnd true rest else none
  | false, c :: rest =>
    if isBlank c then skipLineEnd false rest
    else if c = '#' then skipLineEnd true rest
    else none

/-- A document up to some line. -/
structure Document where
  entries : Entries := []
  /-- The path of the table that was opened last. -/
  opened : List String := []

/-- Read one line that is not blank. -/
def readLine (document : Document) : Reader Document := fun cs =>
  match cs with
  | '[' :: '[' :: rest => do
    let ((path, key), rest) ← readKey rest
    let ']' :: ']' :: rest := rest | none
    let entries ← document.entries.changeAt (·.openElement key) path
    return ({ entries, opened := path ++ [key] }, rest)
  | '[' :: rest => do
    let ((path, key), rest) ← readKey rest
    let ']' :: rest := rest | none
    let entries ← document.entries.changeAt (·.openTable key) path
    return ({ entries, opened := path ++ [key] }, rest)
  | _ => do
    let (((path, key), value), rest) ← readPair (readValue (depthLimit - 1)) cs
    let entries ← document.entries.changeAt (·.insertDotted path key value) document.opened
    return ({ document with entries }, rest)

/-- There is nothing on the line but blanks and a comment. -/
def isBlankLine : List Char → Bool
  | [] => true
  | c :: _ => c = '#' || c = '\n' || c = '\r'

/-- Read the lines that follow. -/
def readLines (document : Document) (cs : List Char) : Option Document := do
  let start := skipBlanks cs
  let (document, rest) ←
    if isBlankLine start then some (document, start) else readLine document start
  match ← skipLineEnd false rest with
  | [] => return document
  | rest => if rest.length < cs.length then readLines document rest else none
termination_by cs.length

/-- The content of a document, in which a byte-order mark may come first. -/
def parse? (text : String) : Option Entries := do
  let cs := match text.toList with
    | '\ufeff' :: rest => rest
    | cs => cs
  return (← readLines {} cs).entries

end StoryAsm.Toml
