/-!
# Texts and keys of TOML

A text has four written forms: basic (`"…"`) and literal (`'…'`), each on one line or, between triple
quotes, on several. Readers take the characters behind an opening quote and give the text and
what follows the closing quote.
-/

namespace StoryAsm.Toml

/-- A reader gives what it read and the rest of the input, or fails. -/
abbrev Reader (α : Type) := List Char → Option (α × List Char)

/-! ## Characters -/

def isBlank (c : Char) : Bool :=
  c = ' ' || c = '\t'

/-- A character that may stand in a comment or a text: no control character but the tab. -/
def isPrintable (c : Char) : Bool :=
  c = '\t' || (' ' ≤ c && c ≠ '\x7f')

/-- A character of a key without quotes. -/
def isBare (c : Char) : Bool :=
  c.isAlphanum || c = '-' || c = '_'

def skipBlanks (cs : List Char) : List Char :=
  cs.dropWhile isBlank

/-! ## Escapes -/

def hexDigit? (c : Char) : Option Nat :=
  if '0' ≤ c ∧ c ≤ '9' then some (c.toNat - '0'.toNat)
  else if 'a' ≤ c ∧ c ≤ 'f' then some (c.toNat - 'a'.toNat + 10)
  else if 'A' ≤ c ∧ c ≤ 'F' then some (c.toNat - 'A'.toNat + 10)
  else none

/-- The character whose code is written in hexadecimal. -/
def scalar? (digits : List Char) : Option Char := do
  let code ← digits.foldlM (fun code c => return code * 16 + (← hexDigit? c)) 0
  if Nat.isValidChar code then some (Char.ofNat code) else none

/-- The character that a letter behind a backslash stands for. -/
def escaped? : Char → Option Char
  | 'b' => some '\x08'
  | 't' => some '\t'
  | 'n' => some '\n'
  | 'f' => some '\x0c'
  | 'r' => some '\r'
  | '"' => some '"'
  | '\\' => some '\\'
  | _ => none

/-- Put characters in front of what was read. -/
def before (chars : List Char) (read : Option (List Char × List Char)) :
    Option (List Char × List Char) :=
  read.map fun (text, rest) => (chars ++ text, rest)

/-! ## Texts on one line -/

/-- The characters of a basic text. -/
def readBasic : Reader (List Char)
  | [] => none
  | '"' :: rest => some ([], rest)
  | '\\' :: 'u' :: a :: b :: c :: d :: rest => do
    before [← scalar? [a, b, c, d]] (readBasic rest)
  | '\\' :: 'U' :: a :: b :: c :: d :: e :: f :: g :: h :: rest => do
    before [← scalar? [a, b, c, d, e, f, g, h]] (readBasic rest)
  | '\\' :: c :: rest => do before [← escaped? c] (readBasic rest)
  | c :: rest => if c ≠ '\\' && isPrintable c then before [c] (readBasic rest) else none

/-- The characters of a literal text. -/
def readLiteral : Reader (List Char)
  | [] => none
  | '\x27' :: rest => some ([], rest)
  | c :: rest => if isPrintable c then before [c] (readLiteral rest) else none

/-! ## Texts on several lines

A line end is read as a newline. In the basic form a backslash at the end of a line joins it with
the next text, without the blanks and newlines between.
-/

/-- Where in a basic text on several lines a reader stands. -/
inductive Place where
  | text
  /-- Between a backslash and the end of its line. -/
  | lineEnd
  /-- Behind a joined line end. -/
  | joined
  deriving DecidableEq

/-- The characters of a basic text on several lines. Up to two quotes may stand before the closing
ones. -/
def readBasicLines : Place → Reader (List Char)
  | _, [] => none
  | .lineEnd, '\n' :: rest => readBasicLines .joined rest
  | .lineEnd, '\r' :: '\n' :: rest => readBasicLines .joined rest
  | .lineEnd, c :: rest => if isBlank c then readBasicLines .lineEnd rest else none
  | place, c :: rest =>
    if place = .joined && (isBlank c || c = '\n') then readBasicLines .joined rest
    else
      match c, rest with
      | '\r', '\n' :: rest =>
        if place = .joined then readBasicLines .joined rest
        else before ['\n'] (readBasicLines .text rest)
      | '"', '"' :: '"' :: '"' :: '"' :: rest => some (['"', '"'], rest)
      | '"', '"' :: '"' :: '"' :: rest => some (['"'], rest)
      | '"', '"' :: '"' :: rest => some ([], rest)
      | '\\', 'u' :: a :: b :: c :: d :: rest => do
        before [← scalar? [a, b, c, d]] (readBasicLines .text rest)
      | '\\', 'U' :: a :: b :: c :: d :: e :: f :: g :: h :: rest => do
        before [← scalar? [a, b, c, d, e, f, g, h]] (readBasicLines .text rest)
      | '\\', c :: rest =>
        if c = '\n' then readBasicLines .joined rest
        else if isBlank c || c = '\r' && rest.head? = some '\n' then readBasicLines .lineEnd rest
        else do before [← escaped? c] (readBasicLines .text rest)
      | c, rest =>
        if c = '\n' || c ≠ '\\' && isPrintable c then before [c] (readBasicLines .text rest)
        else none

/-- The characters of a literal text on several lines. -/
def readLiteralLines : Reader (List Char)
  | [] => none
  | '\x27' :: '\x27' :: '\x27' :: '\x27' :: '\x27' :: rest => some (['\x27', '\x27'], rest)
  | '\x27' :: '\x27' :: '\x27' :: '\x27' :: rest => some (['\x27'], rest)
  | '\x27' :: '\x27' :: '\x27' :: rest => some ([], rest)
  | '\r' :: '\n' :: rest => before ['\n'] (readLiteralLines rest)
  | c :: rest => if c = '\n' || isPrintable c then before [c] (readLiteralLines rest) else none

/-- A newline directly behind the opening quotes is not part of the text. -/
def skipNewline : List Char → List Char
  | '\n' :: rest => rest
  | '\r' :: '\n' :: rest => rest
  | cs => cs

/-- A text in any of its forms, from the opening quote on. -/
def readText : Reader String := fun cs => do
  let (text, rest) ←
    match cs with
    | '"' :: '"' :: '"' :: rest => readBasicLines .text (skipNewline rest)
    | '\x27' :: '\x27' :: '\x27' :: rest => readLiteralLines (skipNewline rest)
    | '"' :: rest => readBasic rest
    | '\x27' :: rest => readLiteral rest
    | _ => none
  return (String.ofList text, rest)

/-! ## Keys -/

/-- One part of a key. -/
def readKeyPart : Reader String := fun cs => do
  let (part, rest) ←
    match cs with
    | '"' :: rest => readBasic rest
    | '\x27' :: rest => readLiteral rest
    | _ =>
      let part := cs.takeWhile isBare
      if part.isEmpty then none else some (part, cs.dropWhile isBare)
  return (String.ofList part, rest)

/-- The parts of a key, with dots between them, and the blanks around. -/
def readKeyParts (cs : List Char) : Option (List String × List Char) := do
  let (part, rest) ← readKeyPart (skipBlanks cs)
  match skipBlanks rest with
  | '.' :: more =>
    if more.length < cs.length then
      let (parts, rest) ← readKeyParts more
      return (part :: parts, rest)
    else none
  | rest => return ([part], rest)
termination_by cs.length

/-- A key has fewer parts than this, and arrays and inline tables are nested to a smaller depth. -/
def depthLimit : Nat := 80

/-- A key: the parts on the way and the last part. -/
def readKey : Reader (List String × String) := fun cs => do
  let (parts, rest) ← readKeyParts cs
  if depthLimit ≤ parts.length then none
  else return ((parts.dropLast, ← parts.getLast?), rest)

end StoryAsm.Toml
