import StoryAsm.Code.Buffer
import StoryAsm.Log

/-!
# Flushing the buffer

When all lines of a routine are there, the buffer is cleaned up in four passes:

* targets are replaced by the labels that their aliases stand for;
* adjacent lines are fused where the combiner says so;
* lines that control cannot reach are dropped;
* jumps to the line that follows are dropped.

A label counts as referenced if it is the target of a line after the first pass. No line moves
past a referenced label.
-/

namespace StoryAsm

/-- Lines ready to be written, and what is left without a line to go before. -/
structure Flushed (α : Type) where
  lines : List (Line α)
  trailingDebug : List String
  trailingLabel : Option Label
  deriving DecidableEq

namespace Code

variable {α : Type}

/-- The labels that are targets of lines. -/
def referenced (lines : List (Line α)) : List Label :=
  lines.filterMap (·.target)

/-- Put a line after lines that are held in reverse order. If the combiner fuses it with the line
before it, the fused line is put after what remains, and so on. -/
def pushFused (combine : Combiner α) (labels : List Label) :
    List (Line α) → Line α → List (Line α)
  | [], line => [line]
  | last :: before, line =>
    match if line.isLabelledIn labels then none else combine last line with
    | some fused => pushFused combine labels before (last.fuse line fused)
    | none => line :: last :: before

/-- Fuse adjacent lines, from the first line to the last. -/
def fuseLines (combine : Combiner α) (labels : List Label) (lines : List (Line α)) :
    List (Line α) :=
  (lines.foldl (pushFused combine labels) []).reverse

/-- Drop the lines that follow an unconditional line up to the next referenced label. The
directives of dropped lines go to the next line that is kept, or are returned if there is none. -/
def dropUnreachable (labels : List Label) :
    (reachable : Bool) → (carried : List String) → List (Line α) → List (Line α) × List String
  | _, carried, [] => ([], carried)
  | reachable, carried, line :: rest =>
    if reachable || line.isLabelledIn labels then
      let (kept, left) := dropUnreachable labels (!line.kind.isUnconditional) [] rest
      (line.addDebugBefore carried :: kept, left)
    else
      dropUnreachable labels false (carried ++ line.debug) rest

/-- Drop jumps to the next line. Their directives go to that line. -/
def dropJumps : (carried : List String) → List (Line α) → List (Line α)
  | _, [] => []
  | carried, line :: rest =>
    let line := line.addDebugBefore carried
    if rest.head?.any line.jumpsTo then dropJumps line.debug rest
    else line :: dropJumps [] rest

/-- The events of fusing lines: when a line is put on `size` lines and `left` lines remain, the
lines at `size - 1`, `size - 2`, … were fused with their successors. -/
def fuseEvents (combine : Combiner α) (labels : List Label) (lines : List (Line α)) :
    List Log.Event :=
  (lines.foldl (fun (events, stack) line =>
    let next := pushFused combine labels stack line
    let fusions := List.range (stack.length + 1 - next.length)
    (events ++ fusions.map fun k => .fusedLine (stack.length - 1 - k), next))
    (([] : List Log.Event), ([] : List (Line α)))).1

end Code

namespace Buffer

open Code

variable {α : Type}

/-- The lines after all four passes. -/
def flush (combine : Combiner α) (buffer : Buffer α) : Flushed α :=
  let lines := buffer.resolvedLines
  let labels := referenced lines
  let fused := fuseLines combine labels lines
  let (kept, carried) := dropUnreachable labels true [] fused
  { lines := dropJumps [] kept
    trailingDebug := carried ++ buffer.pendingDebug
    trailingLabel := buffer.pendingLabel }

/-- What flushing reports: the fusions, then one event for each dropped line. -/
def flushEvents (combine : Combiner α) (buffer : Buffer α) : List Log.Event :=
  let lines := buffer.resolvedLines
  let labels := referenced lines
  let fused := fuseLines combine labels lines
  let kept := (dropUnreachable labels true [] fused).1
  fuseEvents combine labels lines ++
    List.replicate (fused.length - kept.length) .droppedUnreachable ++
    List.replicate (kept.length - (dropJumps [] kept).length) .droppedJump

end Buffer

end StoryAsm
