import StoryAsm.Toml.Text
import StoryAsm.Toml.Value

/-!
# Numbers and dates of TOML

Integers have 64 bits. Of a number with a fraction or an exponent it is only checked that it is finite as
a double if it has no minus sign; dates and times are checked to be possible.
-/

namespace StoryAsm.Toml

/-- The value of a digit in a base up to sixteen. -/
def digit? (base : Nat) (c : Char) : Option Nat := do
  let value ← hexDigit? c
  if value < base then some value else none

def isDecimal (c : Char) : Bool :=
  (digit? 10 c).isSome

/-- The value of a row of digits. -/
def digitsValue (base : Nat) (digits : List Char) : Nat :=
  digits.foldl (fun value c => value * base + (digit? base c).getD 0) 0

/-- The digits that go on a row. An underscore may stand between two digits. -/
def readMoreDigits (base : Nat) : Reader (List Char)
  | [] => some ([], [])
  | '_' :: c :: rest => if (digit? base c).isSome then before [c] (readMoreDigits base rest) else none
  | c :: rest =>
    if c = '_' then none
    else if (digit? base c).isSome then before [c] (readMoreDigits base rest)
    else some ([], c :: rest)

/-- A row of one or more digits. -/
def readDigits (base : Nat) : Reader (List Char)
  | [] => none
  | c :: rest => if (digit? base c).isSome then before [c] (readMoreDigits base rest) else none

/-! ## Integers and floats -/

inductive Sign where
  | none
  | plus
  | minus
  deriving DecidableEq

def readSign : List Char → Sign × List Char
  | '+' :: rest => (.plus, rest)
  | '-' :: rest => (.minus, rest)
  | cs => (.none, cs)

def Sign.apply (sign : Sign) (value : Nat) : Int :=
  if sign = .minus then -value else value

/-- An integer of 64 bits. -/
def integer? (value : Int) : Option Value :=
  if Int64.minValue.toInt ≤ value ∧ value ≤ Int64.maxValue.toInt then some (.integer value) else none

/-- A decimal numeral without sign: zero, or digits that do not start with zero. -/
def readDecimal : Reader (List Char)
  | '0' :: rest => some (['0'], rest)
  | cs => readDigits 10 cs

/-- The least number that is rounded to infinity. -/
def infinityBound : Nat := (1 <<< 1024) - (1 <<< 970)

/-- The number `digits · 10 ^ scale` is less than the bound of finite numbers. The position of its
leading digit decides unless it is near that of the bound, which has 309 digits. -/
def isFinite (digits : List Char) (scale : Int) : Bool :=
  let digits := digits.dropWhile (· = '0')
  let size := digits.length + scale
  if digits.isEmpty || size < 300 then true
  else if 320 < size then false
  else
    let value := digitsValue 10 digits
    if 0 ≤ scale then value * Nat.pow 10 scale.toNat < infinityBound
    else value < infinityBound * Nat.pow 10 (-scale).toNat

/-- The fraction of a number, with its point. -/
def readFraction : Reader (List Char)
  | '.' :: rest => readDigits 10 rest
  | cs => some ([], cs)

/-- The exponent of a number, with its mark. -/
def readExponent : Reader (Option Int)
  | c :: rest =>
    if c = 'e' || c = 'E' then do
      let (sign, rest) := readSign rest
      let (digits, rest) ← readDigits 10 rest
      return (some (sign.apply (digitsValue 10 digits)), rest)
    else some (none, c :: rest)
  | [] => some (none, [])

/-- A decimal number behind its sign: an integer unless it has a fraction or an exponent. -/
def readDecimalNumber (sign : Sign) : Reader Value := fun cs => do
  let (whole, rest) ← readDecimal cs
  let (fraction, rest) ← readFraction rest
  let (exponent, rest) ← readExponent rest
  if fraction.isEmpty && exponent.isNone then
    return (← integer? (sign.apply (digitsValue 10 whole)), rest)
  else if sign = .minus || isFinite (whole ++ fraction) (exponent.getD 0 - fraction.length) then
    return (.float, rest)
  else none

/-- An integer in another base, behind the mark of the base. -/
def readBased (base : Nat) : Reader Value := fun cs => do
  let (digits, rest) ← readDigits base cs
  return (← integer? (digitsValue base digits), rest)

def readNumber : Reader Value := fun cs =>
  match cs with
  | '0' :: 'x' :: rest => readBased 16 rest
  | '0' :: 'o' :: rest => readBased 8 rest
  | '0' :: 'b' :: rest => readBased 2 rest
  | _ =>
    match readSign cs with
    | (_, 'i' :: 'n' :: 'f' :: rest) => some (.float, rest)
    | (_, 'n' :: 'a' :: 'n' :: rest) => some (.float, rest)
    | (sign, rest) => readDecimalNumber sign rest

/-! ## Dates and times -/

/-- A numeral of two digits, within bounds. -/
def readTwo (least greatest : Nat) : Reader Nat
  | a :: b :: rest =>
    let value := digitsValue 10 [a, b]
    if isDecimal a && isDecimal b && least ≤ value && value ≤ greatest then some (value, rest)
    else none
  | _ => none

def daysOfMonth (year month : Nat) : Nat :=
  if month = 2 then if year % 4 = 0 ∧ (year % 100 ≠ 0 ∨ year % 400 = 0) then 29 else 28
  else if month = 4 ∨ month = 6 ∨ month = 9 ∨ month = 11 then 30
  else 31

/-- A calendar date. -/
def readDate : Reader Date := fun cs => do
  let (century, rest) ← readTwo 0 99 cs
  let (year, rest) ← readTwo 0 99 rest
  let year := century * 100 + year
  let '-' :: rest := rest | none
  let (month, rest) ← readTwo 1 12 rest
  let '-' :: rest := rest | none
  let (day, rest) ← readTwo 1 (daysOfMonth year month) rest
  return ({ year, month, day }, rest)

/-- The nanoseconds of a fraction of a second. Digits behind the ninth are dropped. -/
def nanoseconds (digits : List Char) : Nat :=
  let digits := digits.take 9
  digitsValue 10 digits * Nat.pow 10 (9 - digits.length)

/-- The fraction of a second, which may be missing. -/
def readNanoseconds (cs : List Char) : Nat × List Char :=
  match cs with
  | '.' :: rest =>
    let digits := rest.takeWhile isDecimal
    if digits.isEmpty then (0, cs) else (nanoseconds digits, rest.dropWhile isDecimal)
  | _ => (0, cs)

/-- A time of day. A minute may have a second 60. -/
def readTime : Reader Time := fun cs => do
  let (hour, rest) ← readTwo 0 23 cs
  let ':' :: rest := rest | none
  let (minute, rest) ← readTwo 0 59 rest
  let ':' :: rest := rest | none
  let (second, rest) ← readTwo 0 60 rest
  let (nanosecond, rest) := readNanoseconds rest
  return ({ hour, minute, second, nanosecond }, rest)

/-- Hours and minutes behind a sign. -/
def readMinutes (sign : Sign) : Reader Offset := fun cs => do
  let (hours, rest) ← readTwo 0 23 cs
  let ':' :: rest := rest | none
  let (minutes, rest) ← readTwo 0 59 rest
  return (.minutes (sign.apply (hours * 60 + minutes)), rest)

/-- The distance from universal time. -/
def readOffset : Reader Offset
  | '+' :: rest => readMinutes .plus rest
  | '-' :: rest => readMinutes .minus rest
  | c :: rest => if c = 'Z' || c = 'z' then some (.zulu, rest) else none
  | [] => none

/-- A time behind a date and the mark between them. -/
def readTimeOf (date : Date) : Reader Moment
  | [] => none
  | c :: rest =>
    if c = 'T' || c = 't' || c = ' ' then do
      let (time, rest) ← readTime rest
      match readOffset rest with
      | some (offset, rest) => return (.both date time (some offset), rest)
      | none => return (.both date time none, rest)
    else none

/-- A date, a time, or both. -/
def readMoment : Reader Moment := fun cs =>
  match readDate cs with
  | some (date, rest) => some ((readTimeOf date rest).getD (.date date, rest))
  | none => (readTime cs).map fun (time, rest) => (.time time, rest)

end StoryAsm.Toml
