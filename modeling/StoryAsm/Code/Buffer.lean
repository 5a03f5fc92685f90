import StoryAsm.Code.Line

/-!
# The code buffer

Lines are collected before they are written, since the lines around a line decide what becomes of
it. A label or a directive waits in the buffer for the next line. Where several labels wait for one line,
the first is attached to the line and the others become its aliases. A label that is marked at two places
can become an alias of its own alias; resolving it never ends.
-/

namespace StoryAsm

structure Buffer (α : Type) where
  lines : Array (Line α) := #[]
  pendingLabel : Option Label := none
  pendingDebug : List String := []
  /-- Labels and the labels they stand for. The newest entry of a label counts. -/
  aliases : List (Label × Label) := []

namespace Buffer

variable {α : Type}

/-- Attach a label to the next line. A second label at the same place is an alias of the first. -/
def markLabel (buffer : Buffer α) (label : Label) : Buffer α :=
  match buffer.pendingLabel with
  | none => { buffer with pendingLabel := some label }
  | some existing =>
    if existing = label then buffer
    else { buffer with aliases := (label, existing) :: buffer.aliases }

/-- Attach a debug directive to the next line. -/
def addDebug (buffer : Buffer α) (text : String) : Buffer α :=
  { buffer with pendingDebug := buffer.pendingDebug ++ [text] }

/-- Add a line, which takes the label and the directives that wait for it. -/
def addLine (buffer : Buffer α) (body : LineBody α) : Buffer α :=
  { buffer with
    lines := buffer.lines.push
      { body with label := buffer.pendingLabel, debug := buffer.pendingDebug }
    pendingLabel := none
    pendingDebug := [] }

/-- Mark the label, if there is one. -/
def markLabel? (buffer : Buffer α) : Option Label → Buffer α
  | some label => buffer.markLabel label
  | none => buffer

/-- Add a line of another buffer, with its label and directives. -/
def replay (buffer : Buffer α) (line : Line α) : Buffer α :=
  let buffer := buffer.markLabel? line.label
  { buffer with pendingDebug := buffer.pendingDebug ++ line.debug }.addLine line.toLineBody

/-- All of the second buffer after the first. -/
def append (buffer other : Buffer α) : Buffer α :=
  let merged := { buffer with aliases := other.aliases ++ buffer.aliases }
  let replayed := (other.lines.foldl replay merged).markLabel? other.pendingLabel
  { replayed with pendingDebug := replayed.pendingDebug ++ other.pendingDebug }

instance : Append (Buffer α) := ⟨append⟩

section
variable (aliases : List (Label × Label))

/-- Follow aliases to the label where there are no more. In a circle of aliases this goes on forever. -/
def follow (label : Label) : Option Label :=
  match aliases.lookup label with
  | some next => by
    -- The term of a plain call would hold the place of the call in this file.
    apply follow
    exact next
  | none => some label
partial_fixpoint

/-- The same, with a number of steps written out. -/
def unrolled : Nat → Label → Option Label
  | 0, label => follow aliases label
  | steps + 1, label =>
    match aliases.lookup label with
    | some next => unrolled steps next
    | none => some label

end

/-- The label that stands for a label: where its chain of aliases ends, if it does. A chain that ends
is no longer than the list of aliases. -/
def resolve? (buffer : Buffer α) (label : Label) : Option Label :=
  unrolled buffer.aliases (buffer.aliases.length + 1) label

/-- The label that stands for a label, to be used where the chain ends. -/
def resolve (buffer : Buffer α) (label : Label) : Label :=
  (buffer.resolve? label).getD label

/-- The lines with their targets resolved. -/
def resolvedLines (buffer : Buffer α) : List (Line α) :=
  buffer.lines.toList.map fun line => { line with target := line.target.map buffer.resolve }

end Buffer

end StoryAsm
