import StoryAsm.Symbol.Table

/-!
# The symbol table as JSON

One `"NAME": "kind"` member a line, indented by two blanks, in ascending order of the names. In the
JSON literal of a text only the double quote, the backslash and the control characters below the
space are escaped.
-/

namespace StoryAsm

namespace Text

def jsonChar (c : Char) : List Char :=
  if c = '"' then ['\\', '"']
  else if c = '\\' then ['\\', '\\']
  else if c = '\n' then ['\\', 'n']
  else if c = '\r' then ['\\', 'r']
  else if c = '\t' then ['\\', 't']
  else if c.toNat = 8 then ['\\', 'b']
  else if c.toNat = 12 then ['\\', 'f']
  else if c.toNat < 32 then ['\\', 'u'] ++ List.leftpad 4 '0' (Nat.toDigits 16 c.toNat)
  else [c]

/-- The JSON literal of a text. -/
def jsonString (text : String) : String :=
  String.ofList ('"' :: text.toList.flatMap jsonChar ++ ['"'])

end Text

namespace SymbolTable

open Text

def dumpMember (entry : String × SymbolKind) : String :=
  "  " ++ jsonString entry.1 ++ ": " ++ jsonString entry.2.text

def dump (table : SymbolTable) : String :=
  match table.toList with
  | [] => "\x7b\x7d"
  | entries => "\x7b\n" ++ ",\n".intercalate (entries.map dumpMember) ++ "\n\x7d"

end SymbolTable

end StoryAsm
