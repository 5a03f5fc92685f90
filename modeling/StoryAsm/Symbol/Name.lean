import StoryAsm.Text.Alphanumeric

/-!
# Symbol names

Any name can be turned into a legal assembler symbol. Characters that the assembler does not take
are written as `$` and their code point in hexadecimal. The sign `$` itself is kept, so a name that is
already a symbol stays as it is.
-/

namespace StoryAsm.Symbol

open StoryAsm.Text

/-- The characters that a symbol may hold. -/
def isSymbolChar (c : Char) : Bool :=
  isAlphanumeric c || c = '?' || c = '#' || c = '-' || c = '$'

/-- `$` and the code point in lower case hexadecimal, with at least four digits. -/
def escapeChar (c : Char) : List Char :=
  '$' :: List.leftpad 4 '0' (Nat.toDigits 16 c.toNat)

/-- What a character of a name contributes to its symbol. -/
def encodeChar (c : Char) : List Char :=
  if isSymbolChar c then [c] else escapeChar c

/-- The symbol of a name. The three punctuation marks that are words of their own have fixed
symbols. -/
def ofName (name : String) : String :=
  if name = "." then "PERIOD"
  else if name = "," then "COMMA"
  else if name = "\"" then "QUOTE"
  else String.ofList (name.toList.flatMap encodeChar)

end StoryAsm.Symbol
