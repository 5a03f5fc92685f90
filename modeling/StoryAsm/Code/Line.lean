/-!
# Lines of code

A line is one instruction with its label, its branch target and the debug directives in front of
it. What the instruction is does not matter here, only how control leaves the line. A branch goes to
a place in the same routine, or returns from it at once.
-/

namespace StoryAsm

/-! ## Labels -/

/-- A branch target inside one routine. -/
inductive Label where
  /-- A numbered place. -/
  | point (number : Nat)
  /-- Branching here returns true. -/
  | returnTrue
  /-- Branching here returns false. -/
  | returnFalse
  deriving DecidableEq, Inhabited

def Label.text : Label → String
  | .point number => s!"?L{number}"
  | .returnTrue => "TRUE"
  | .returnFalse => "FALSE"

/-! ## Lines -/

/-- How a line affects control flow. -/
inductive LineKind where
  | plain
  | branchAlways
  | branchPositive
  | branchNegative
  | terminator
  | heavyTerminator
  deriving DecidableEq, Inhabited

/-- Control never goes on to the next line. -/
def LineKind.isUnconditional : LineKind → Bool
  | .branchAlways | .terminator | .heavyTerminator => true
  | .plain | .branchPositive | .branchNegative => false

/-- An instruction with its branch target and its effect on control flow. -/
structure LineBody (α : Type) where
  code : α
  target : Option Label := none
  kind : LineKind := .plain
  deriving DecidableEq

/-- A line in its place: with a label and directives. -/
structure Line (α : Type) extends LineBody α where
  label : Option Label := none
  /-- Directives written just before the line. -/
  debug : List String := []
  deriving DecidableEq

/-- Decides whether two adjacent lines become one, and which. -/
abbrev Combiner (α : Type) := Line α → Line α → Option (LineBody α)

namespace Line

variable {α : Type}

/-- The line carries a label of the list. -/
def isLabelledIn (line : Line α) (labels : List Label) : Bool :=
  line.label.any labels.contains

/-- Put directives in front of those that the line has. -/
def addDebugBefore (line : Line α) (debug : List String) : Line α :=
  { line with debug := debug ++ line.debug }

/-- The line that takes the place of two lines. It keeps both lists of directives, and the label
of the second line if the first has none. -/
def fuse (first second : Line α) (fused : LineBody α) : Line α :=
  { fused with label := first.label.or second.label, debug := first.debug ++ second.debug }

/-- The line does nothing but jump to the label of the line after it. -/
def jumpsTo (line next : Line α) : Bool :=
  decide (line.kind = .branchAlways ∧ line.label = none ∧ line.target.isSome ∧
    line.target = next.label)

end Line

end StoryAsm
