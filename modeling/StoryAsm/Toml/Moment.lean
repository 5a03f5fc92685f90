/-!
# Dates and times of TOML

A moment is a date, a time of day, or both with a distance from universal time. It has one written form:
`T` stands between date and time, and a fraction of a second has no zeros at its end.
-/

namespace StoryAsm.Toml

structure Date where
  year : Nat
  month : Nat
  day : Nat
  deriving DecidableEq

structure Time where
  hour : Nat
  minute : Nat
  second : Nat
  nanosecond : Nat
  deriving DecidableEq

/-- The distance from universal time. -/
inductive Offset where
  | zulu
  | minutes (count : Int)
  deriving DecidableEq

inductive Moment where
  | date (day : Date)
  | time (clock : Time)
  | both (day : Date) (clock : Time) (offset : Option Offset)
  deriving DecidableEq

/-- A number with zeros in front up to a width. -/
def padded (width value : Nat) : String :=
  let digits := Nat.toDigits 10 value
  String.ofList (List.replicate (width - digits.length) '0' ++ digits)

def Date.text (date : Date) : String :=
  s!"{padded 4 date.year}-{padded 2 date.month}-{padded 2 date.day}"

/-- The fraction of a second, with its point. -/
def fractionText (nanosecond : Nat) : String :=
  if nanosecond = 0 then ""
  else
    let digits := (padded 9 nanosecond).toList
    "." ++ String.ofList (digits.reverse.dropWhile (· = '0')).reverse

def Time.text (time : Time) : String :=
  s!"{padded 2 time.hour}:{padded 2 time.minute}:{padded 2 time.second}"
    ++ fractionText time.nanosecond

def Offset.text : Offset → String
  | .zulu => "Z"
  | .minutes count =>
    let sign := if count < 0 then "-" else "+"
    s!"{sign}{padded 2 (count.natAbs / 60)}:{padded 2 (count.natAbs % 60)}"

def Moment.text : Moment → String
  | .date day => day.text
  | .time clock => clock.text
  | .both day clock offset => day.text ++ "T" ++ clock.text ++ (offset.map (·.text)).getD ""

end StoryAsm.Toml
