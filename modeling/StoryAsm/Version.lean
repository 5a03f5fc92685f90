import StoryAsm.Error

/-!
# Versions

Story files come in versions 1 to 8. The version decides how many properties, flags and call
arguments there are, and which instructions and header parts exist.
-/

namespace StoryAsm

/-- A story file version. -/
structure Version where
  number : Nat
  one_le : 1 ≤ number := by decide
  le_eight : number ≤ 8 := by decide
  deriving DecidableEq

namespace Version

def ofInt (version : Int) : Except EmitError Version :=
  if h : 1 ≤ version ∧ version ≤ 8 then
    .ok { number := version.toNat, one_le := by omega, le_eight := by omega }
  else
    .error (.unsupportedVersion version)

variable (version : Version)

def text : String := toString version.number

/-- Properties are numbered from 1 to this. -/
def maxProperties : Nat := if 4 ≤ version.number then 63 else 31

/-- Flags are numbered from 0 to this. -/
def maxFlags : Nat := if 4 ≤ version.number then 47 else 31

/-- Greatest length of a property value in bytes. -/
def maxPropertyLength : Nat := if 4 ≤ version.number then 64 else 8

def maxCallArguments : Nat := if 4 ≤ version.number then 7 else 3

def maxObjects : Nat := if version.number < 4 then 255 else 65535

/-- Call instructions differ by the number of arguments. -/
def hasSizedCalls : Bool := 4 ≤ version.number

/-- There are call instructions without a result. -/
def hasNoStoreCalls : Bool := 5 ≤ version.number

/-- Defaults of local variables stand in the routine header. -/
def hasHeaderDefaults : Bool := version.number < 5

/-- The story header is written out in the source. -/
def hasHeaderBlock : Bool := 4 < version.number

/-- Words of flags in an object record. -/
def flagWords : Nat := if 4 ≤ version.number then 3 else 2

/-- Bytes of an encoded dictionary word. -/
def zwordBytes : Nat := if 4 ≤ version.number then 6 else 4

end Version

end StoryAsm
