/-!
# Quoted texts

A text is written between double quotes, and a double quote inside it is written twice. The
reader of such a literal starts at a quote and ends at the first quote that is not followed by another.
-/

namespace StoryAsm.Text

/-- The inside of a literal: every double quote twice. -/
def doubleQuotes : List Char → List Char
  | [] => []
  | c :: rest => if c = '"' then '"' :: '"' :: doubleQuotes rest else c :: doubleQuotes rest

/-- The literal of a text. -/
def quote (text : String) : String :=
  String.ofList ('"' :: doubleQuotes text.toList ++ ['"'])

/-- Reads the inside of a literal up to its closing quote: the text and what follows the quote. -/
def readInside : List Char → Option (List Char × List Char)
  | [] => none
  | '"' :: '"' :: rest => (readInside rest).map fun (text, after) => ('"' :: text, after)
  | c :: rest =>
    if c = '"' then some ([], rest)
    else (readInside rest).map fun (text, after) => (c :: text, after)

/-- Reads one literal from the front of a text: the text it stands for and what follows it. -/
def readQuoted : List Char → Option (List Char × List Char)
  | '"' :: rest => readInside rest
  | _ => none

end StoryAsm.Text
