/-!
# Segments

A story is written as four texts, each in a file of its own.
-/

namespace StoryAsm

inductive Segment where
  | main
  | data
  | strings
  | frequentWords
  deriving DecidableEq

namespace Segment

/-- What the name of a segment's file ends with. -/
def ending : Segment → String
  | main => ""
  | data => "_data"
  | strings => "_str"
  | frequentWords => "_freq"

/-- The name by which segments refer to one another. -/
def insertName (base : String) (segment : Segment) : String :=
  base ++ segment.ending

/-- The name of the segment's file. -/
def fileName (base : String) (segment : Segment) : String :=
  insertName base segment ++ ".zap"

end Segment

end StoryAsm
