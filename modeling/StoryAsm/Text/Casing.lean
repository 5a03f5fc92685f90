import StoryAsm.Text.Alphanumeric
import StoryAsm.Text.CaseTables

/-!
# Upper and lower case

The full Unicode case mappings: most characters map to one character, a few map to several
(`ß` becomes `SS` in upper case). The only mapping that looks at its surroundings is the capital
sigma in lower case, which has a form of its own at the end of a word.
-/

namespace StoryAsm.Text

/-- The image of a code point that belongs to the run. -/
def CaseRun.map? (run : CaseRun) (code : Nat) : Option Nat :=
  if run.first ≤ code ∧ code ≤ run.last ∧ (code - run.first) % run.step = 0 then
    some (run.image + (code - run.first))
  else
    none

/-- The image of a character under expansions first and runs second; itself if neither has it. -/
def mapCase (expansions : List (Nat × List Nat)) (runs : List CaseRun) (c : Char) : List Char :=
  match expansions.lookup c.toNat with
  | some image => image.map Char.ofNat
  | none => [((runs.findSome? (·.map? c.toNat)).map Char.ofNat).getD c]

/-- The upper case of a character. -/
def upperChar (c : Char) : List Char :=
  if c.toNat < 128 then [c.toUpper] else mapCase upperExpansions upperRuns c

/-- The lower case of a character, out of context. -/
def lowerChar (c : Char) : List Char :=
  if c.toNat < 128 then [c.toLower] else mapCase lowerExpansions lowerRuns c

/-- Letters that have a case. -/
def isCased (c : Char) : Bool :=
  c.isAlpha || (decide (128 ≤ c.toNat) && inRanges casedRanges c.toNat)

/-- Marks and signs that stand inside words, or beside them. -/
def isCaseIgnorable (c : Char) : Bool :=
  ['\x27', '.', ':', '^', '\x60'].contains c ||
    (decide (128 ≤ c.toNat) && inRanges caseIgnorableRanges c.toNat)

/-- The first character that is not case-ignorable exists and is cased. -/
def startsCased (text : List Char) : Bool :=
  match text.dropWhile isCaseIgnorable with
  | c :: _ => isCased c
  | [] => false

def upperCase (text : String) : String :=
  String.ofList (text.toList.flatMap upperChar)

/-- Lower case of the rest of a text, where `before` holds the characters in front of it, nearest
first. A capital sigma takes its final form after a cased letter and not before one. -/
def lowerFrom (before : List Char) : List Char → List Char
  | [] => []
  | c :: rest =>
    let image :=
      if c = 'Σ' then
        [if startsCased before && !startsCased rest then 'ς' else 'σ']
      else
        lowerChar c
    image ++ lowerFrom (c :: before) rest

def lowerCase (text : String) : String :=
  String.ofList (lowerFrom [] text.toList)

end StoryAsm.Text
