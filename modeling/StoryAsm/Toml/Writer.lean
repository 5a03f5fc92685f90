import StoryAsm.Toml.Text

/-!
# Writing TOML

A document is written as sections with a blank line between them: the pairs of the document itself, then
those of its tables. A text is written in the first of its forms that can hold it as it is; escapes
are a last resort.
-/

namespace StoryAsm.Toml

/-! ## Texts -/

/-- A character that only an escape can write, the newline included. -/
def isControl (c : Char) : Bool :=
  !isPrintable c

/-- The greatest number of times that a character stands in a row. -/
def longestRun (c : Char) : List Char → (run : Nat) → Nat
  | [], run => run
  | d :: rest, run => if d = c then longestRun c rest (run + 1) else max run (longestRun c rest 0)

/-- The escape of a character in a basic text. -/
def escape (c : Char) : String :=
  match c with
  | '\x08' => "\\b"
  | '\t' => "\\t"
  | '\n' => "\\n"
  | '\x0c' => "\\f"
  | '\r' => "\\r"
  | '"' => "\\\""
  | '\\' => "\\\\"
  | _ =>
    let digits := String.ofList ((Nat.toDigits 16 c.toNat).map Char.toUpper)
    "\\u" ++ String.ofList (List.replicate (4 - digits.length) '0') ++ digits

/-- The characters of a basic text on one line. -/
def basicChars : List Char → String
  | [] => ""
  | c :: rest =>
    (if isControl c || c = '\t' || c = '"' || c = '\\' then escape c else c.toString)
      ++ basicChars rest

/-- The characters of a basic text on several lines. Of quotes in a row each third is escaped;
`quotes` is the number of those in front that are not. -/
def basicLines : (quotes : Nat) → List Char → String
  | _, [] => ""
  | quotes, '"' :: rest =>
    if quotes < 2 then "\"" ++ basicLines (quotes + 1) rest else escape '"' ++ basicLines 0 rest
  | _, c :: rest =>
    (if c ≠ '\n' && isControl c || c = '\t' || c = '\\' then escape c else c.toString)
      ++ basicLines 0 rest

/-- The written forms of texts. -/
inductive Form where
  | basic
  | literal
  | basicLines
  | literalLines
  deriving DecidableEq

/-- The form for a text. -/
def formOf (cs : List Char) : Form :=
  let hasNewline := cs.contains '\n'
  let hasControl := cs.any fun c => c ≠ '\n' && isControl c
  if !hasControl && !hasNewline && !cs.contains '"' && !cs.contains '\\' then .basic
  else if !hasControl && !hasNewline && !cs.contains '\x27' then .literal
  else if !hasControl && longestRun '"' cs 0 ≤ 2 && !cs.contains '\\' then .basicLines
  else if !hasControl && longestRun '\x27' cs 0 ≤ 2 then .literalLines
  else if hasNewline then .basicLines
  else .basic

/-- A text in a form. On several lines it starts on a line of its own if it has a newline. -/
def writeIn (form : Form) (cs : List Char) : String :=
  let opening := if cs.contains '\n' then "\n" else ""
  match form with
  | .basic => "\"" ++ basicChars cs ++ "\""
  | .literal => "'" ++ String.ofList cs ++ "'"
  | .basicLines => "\"\"\"" ++ opening ++ basicLines 0 cs ++ "\"\"\""
  | .literalLines => "'''" ++ opening ++ String.ofList cs ++ "'''"

def writeText (text : String) : String :=
  writeIn (formOf text.toList) text.toList

/-- A key is written without quotes if it can be. -/
def writeKey (key : String) : String :=
  let cs := key.toList
  if !cs.isEmpty && cs.all isBare then key
  else if cs.any isControl || !(cs.contains '"' || cs.contains '\\') then writeIn .basic cs
  else if !cs.contains '\x27' then writeIn .literal cs
  else writeIn .basic cs

/-! ## Sections -/

/-- A value that stands behind a key. -/
inductive Item where
  | text (value : String)
  | integer (value : Int)
  | boolean (value : Bool)
  | texts (values : List String)

/-- A list of two or more texts has each on a line of its own. -/
def Item.write : Item → String
  | .text value => writeText value
  | .integer value => toString value
  | .boolean value => if value then "true" else "false"
  | .texts [] => "[]"
  | .texts [value] => "[" ++ writeText value ++ "]"
  | .texts values => "[\n" ++ String.join (values.map fun v => "    " ++ writeText v ++ ",\n") ++ "]"

/-- What the header of a section opens. -/
inductive Header where
  | document
  | table (path : String)
  | element (path : String)
  deriving DecidableEq

def Header.write : Header → String
  | .document => ""
  | .table path => "[" ++ path ++ "]\n"
  | .element path => "[[" ++ path ++ "]]\n"

structure Section where
  header : Header
  pairs : List (String × Item)

def Section.write (part : Section) : String :=
  part.header.write
    ++ String.join (part.pairs.map fun (key, item) => writeKey key ++ " = " ++ item.write ++ "\n")

/-- A document of the given sections. -/
def write (sections : List Section) : String :=
  "\n".intercalate (sections.map (·.write))

end StoryAsm.Toml
