import StoryAsm.Proofs.Code.Passes
import StoryAsm.Proofs.Code.Script

/-!
# A flush keeps the debug directives

Directives wait in the buffer for the next line, and move from line to line when lines are fused or
dropped. In the order in which they stand they are always those that were added, in the order in which
they were added (`Buffer.directives_flush`, `Buffer.directives_fill`, `Script.directives_flush_eq_texts`).
-/

namespace StoryAsm

variable {α : Type}

/-- The directives on lines of code, from the first line to the last. -/
def Code.directives (lines : List (Line α)) : List String :=
  lines.flatMap (·.debug)

/-- The directives of a buffer, those that wait for a line at the end. -/
def Buffer.directives (buffer : Buffer α) : List String :=
  Code.directives buffer.lines.toList ++ buffer.pendingDebug

def Flushed.directives (flushed : Flushed α) : List String :=
  Code.directives flushed.lines ++ flushed.trailingDebug

/-- The directives that are added. -/
def Piece.texts : List (Piece α) → List String
  | [] => []
  | debug text :: rest => text :: texts rest
  | mark _ :: rest | line _ :: rest => texts rest

theorem Piece.texts_map_line (bodies : List (LineBody α)) : texts (bodies.map .line) = [] := by
  induction bodies with
  | nil => rfl
  | cons body bodies ih => exact ih

@[simp] theorem Piece.texts_append (xs ys : List (Piece α)) : texts (xs ++ ys) = texts xs ++ texts ys := by
  induction xs with
  | nil => rfl
  | cons piece xs ih => cases piece <;> simp [texts, ih]

namespace Code

variable {combine : Combiner α} {labels : List Label}

@[simp] theorem directives_append (xs ys : List (Line α)) :
    directives (xs ++ ys) = directives xs ++ directives ys := List.flatMap_append

@[simp] theorem directives_cons (line : Line α) (lines : List (Line α)) :
    directives (line :: lines) = line.debug ++ directives lines := List.flatMap_cons

theorem directives_fuseLines (combine : Combiner α) (labels : List Label) (lines : List (Line α)) :
    directives (fuseLines combine labels lines) = directives lines := by
  refine fuseLines_induction (P := fun current => directives current = directives lines) ?_ rfl
  intro before a b f after _ _ h
  rw [← h]
  simp [Line.fuse]

/-- Directives of dropped lines are carried to the next line that is kept, or left over. -/
theorem directives_dropUnreachable (labels : List Label) (reachable : Bool) (carried : List String)
    (lines : List (Line α)) :
    directives (dropUnreachable labels reachable carried lines).1 ++
      (dropUnreachable labels reachable carried lines).2 = carried ++ directives lines := by
  induction lines generalizing reachable carried with
  | nil => simp [dropUnreachable, directives]
  | cons line rest ih =>
    simp only [dropUnreachable]
    split
    · simp only [directives_cons, Line.addDebugBefore, List.append_assoc, ih, List.nil_append]
    · simp only [ih, directives_cons, List.append_assoc]

/-- A jump is dropped only in front of a line, which takes its directives. -/
theorem directives_dropJumps {carried : List String} {lines : List (Line α)}
    (h : lines = [] → carried = []) :
    directives (dropJumps carried lines) = carried ++ directives lines := by
  induction lines generalizing carried with
  | nil => simp [dropJumps, directives, h]
  | cons line rest ih =>
    rw [dropJumps_cons]
    split
    · rename_i hjump
      have hrest : rest ≠ [] := by
        rintro rfl
        simp at hjump
      rw [ih fun hnil => absurd hnil hrest, directives_cons, List.append_assoc]
    · rw [directives_cons, directives_cons, ih fun _ => rfl]
      simp [Line.addDebugBefore]

end Code

open Code

namespace Buffer

@[simp] theorem directives_resolvedLines (buffer : Buffer α) :
    Code.directives buffer.resolvedLines = Code.directives buffer.lines.toList := by
  simp [Code.directives, resolvedLines, List.flatMap_map]

theorem directives_flush (combine : Combiner α) (buffer : Buffer α) :
    (buffer.flush combine).directives = buffer.directives := by
  have hkept := directives_dropUnreachable (referenced buffer.resolvedLines) true []
    (fuseLines combine (referenced buffer.resolvedLines) buffer.resolvedLines)
  rw [directives_fuseLines, directives_resolvedLines, List.nil_append] at hkept
  show Code.directives (dropJumps [] _) ++ (_ ++ buffer.pendingDebug) = _
  rw [directives_dropJumps fun _ => rfl, List.nil_append, ← List.append_assoc, hkept]
  rfl

@[simp] theorem directives_markLabel (buffer : Buffer α) (label : Label) :
    (buffer.markLabel label).directives = buffer.directives := by
  simp only [markLabel]
  split
  · rfl
  · split <;> rfl

@[simp] theorem directives_addDebug (buffer : Buffer α) (text : String) :
    (buffer.addDebug text).directives = buffer.directives ++ [text] := by
  simp [directives, addDebug]

@[simp] theorem directives_addLine (buffer : Buffer α) (body : LineBody α) :
    (buffer.addLine body).directives = buffer.directives := by
  simp [directives, addLine, Code.directives]

theorem directives_fill (buffer : Buffer α) (pieces : List (Piece α)) :
    (buffer.fill pieces).directives = buffer.directives ++ Piece.texts pieces := by
  induction pieces generalizing buffer with
  | nil => simp [fill, Piece.texts]
  | cons piece pieces ih =>
    show ((buffer.add piece).fill pieces).directives = _
    rw [ih]
    cases piece <;> simp [add, Piece.texts]

theorem directives_append (buffer other : Buffer α) :
    (buffer ++ other).directives = buffer.directives ++ other.directives := by
  cases h : other.lines.toList with
  | nil => simp [append_of_nil h, directives, h, Code.directives]
  | cons first rest => simp [append_of_cons h, directives, h]

end Buffer

/-- A buffer holds the directives of its script, those of appended buffers in their places. -/
theorem Script.directives_buffer (script : Script α) :
    script.buffer.directives = Piece.texts script.pieces := by
  induction script with
  | new => rfl
  | mark before label ih =>
    rw [buffer, Buffer.directives_markLabel, ih, pieces, Piece.texts_append]
    exact (List.append_nil _).symm
  | debug before text ih =>
    rw [buffer, Buffer.directives_addDebug, ih, pieces, Piece.texts_append]
    rfl
  | line before body ih =>
    rw [buffer, Buffer.directives_addLine, ih, pieces, Piece.texts_append]
    exact (List.append_nil _).symm
  | append before other ihb iho =>
    rw [buffer, Buffer.directives_append, ihb, iho, pieces, Piece.texts_append]

/-- **A flush neither loses nor duplicates nor reorders directives**, whatever is fused or dropped: those
of its lines, one line after the other, and then those that no line follows are the texts of the script. -/
theorem Script.directives_flush_eq_texts (combine : Combiner α) (script : Script α) :
    Code.directives (script.buffer.flush combine).lines ++ (script.buffer.flush combine).trailingDebug =
      Piece.texts script.pieces :=
  (Buffer.directives_flush combine script.buffer).trans script.directives_buffer

end StoryAsm
