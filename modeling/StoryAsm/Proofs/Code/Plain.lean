import StoryAsm.Code.Flush
import StoryAsm.Code.Fusion

/-!
# Code without debug directives

Debug directives ride on the lines of code and change nothing about them. Taking the directives away
(`Buffer.plain`) commutes with whatever is done to a buffer, up to the lines of a flush
(`Buffer.flush_plain`) and what the flush reports (`Buffer.flushEvents_plain`). All this holds for every
combiner that does not look at directives.
-/

namespace StoryAsm

variable {α : Type}

namespace Line

/-- The line without its directives. -/
def plain (line : Line α) : Line α :=
  { line with debug := [] }

/-- Without directives before it, a line stays as it is. -/
theorem plain_addDebugBefore_nil (line : Line α) : line.plain.addDebugBefore [] = line.plain := rfl

end Line

/-- A combiner that does not look at directives. -/
def Combiner.IgnoresDebug (combine : Combiner α) : Prop :=
  ∀ first second, combine first.plain second.plain = combine first second

theorem Fusion.ignoresDebug_combine : Combiner.IgnoresDebug Fusion.combine := by
  intro first second
  rfl

namespace Code

variable {combine : Combiner α} {labels : List Label}

theorem referenced_plain (lines : List (Line α)) : referenced (lines.map Line.plain) = referenced lines := by
  rw [referenced, List.filterMap_map]
  rfl

theorem pushFused_plain (hignores : combine.IgnoresDebug) (stack : List (Line α)) (line : Line α) :
    pushFused combine labels (stack.map Line.plain) line.plain =
      (pushFused combine labels stack line).map Line.plain := by
  induction stack generalizing line with
  | nil => rfl
  | cons last before ih =>
    have hlabel : line.plain.isLabelledIn labels = line.isLabelledIn labels := rfl
    rw [List.map_cons, pushFused, pushFused, hignores, hlabel]
    cases (if line.isLabelledIn labels then none else combine last line) with
    | none => rfl
    | some fused => exact ih (last.fuse line fused)

theorem foldl_pushFused_plain (hignores : combine.IgnoresDebug) (lines stack : List (Line α)) :
    (lines.map Line.plain).foldl (pushFused combine labels) (stack.map Line.plain) =
      (lines.foldl (pushFused combine labels) stack).map Line.plain := by
  induction lines generalizing stack with
  | nil => rfl
  | cons line lines ih =>
    rw [List.map_cons, List.foldl_cons, List.foldl_cons, pushFused_plain hignores, ih]

theorem fuseLines_plain (hignores : combine.IgnoresDebug) (lines : List (Line α)) :
    fuseLines combine labels (lines.map Line.plain) =
      (fuseLines combine labels lines).map Line.plain := by
  rw [fuseLines, fuseLines, List.map_reverse]
  exact congrArg List.reverse (foldl_pushFused_plain hignores lines [])

/-- Fusing lines reports the same. The report counts lines, which are as many without directives. -/
theorem fuseEvents_plain (hignores : combine.IgnoresDebug) (lines : List (Line α)) :
    fuseEvents combine labels (lines.map Line.plain) = fuseEvents combine labels lines := by
  rw [fuseEvents, fuseEvents, List.foldl_map]
  refine (List.foldl_rel (r := fun (plain full : List Log.Event × List (Line α)) =>
    plain.1 = full.1 ∧ plain.2 = full.2.map Line.plain) ⟨rfl, rfl⟩ ?_).1
  rintro line - ⟨events, plainStack⟩ ⟨events', stack⟩ ⟨hevents, hstack⟩
  obtain rfl : events = events' := hevents
  obtain rfl : plainStack = stack.map Line.plain := hstack
  simp only [pushFused_plain hignores, List.length_map, and_self]

theorem dropUnreachable_plain (reachable : Bool) (carried : List String) (lines : List (Line α)) :
    dropUnreachable labels reachable [] (lines.map Line.plain) =
      ((dropUnreachable labels reachable carried lines).1.map Line.plain, []) := by
  induction lines generalizing reachable carried with
  | nil => rfl
  | cons line lines ih =>
    rw [List.map_cons, dropUnreachable, dropUnreachable]
    show (if (reachable || line.isLabelledIn labels) = true then _ else _) = _
    by_cases hkept : (reachable || line.isLabelledIn labels) = true
    · rw [if_pos hkept, if_pos hkept, ih _ []]
      rfl
    · rw [if_neg hkept, if_neg hkept]
      exact ih false _

theorem dropJumps_plain (carried : List String) (lines : List (Line α)) :
    dropJumps [] (lines.map Line.plain) = (dropJumps carried lines).map Line.plain := by
  induction lines generalizing carried with
  | nil => rfl
  | cons line lines ih =>
    have hjumps : (lines.map Line.plain).head?.any line.plain.jumpsTo =
        lines.head?.any (line.addDebugBefore carried).jumpsTo := by
      cases lines with
      | nil => rfl
      | cons next lines => rfl
    simp only [List.map_cons, dropJumps, Line.plain_addDebugBefore_nil, hjumps]
    by_cases hjump : lines.head?.any (line.addDebugBefore carried).jumpsTo = true
    · rw [if_pos hjump, if_pos hjump]
      exact ih _
    · rw [if_neg hjump, if_neg hjump, List.map_cons, ih []]
      rfl

end Code

/-- What a flush gives, without directives. -/
def Flushed.plain (flushed : Flushed α) : Flushed α where
  lines := flushed.lines.map Line.plain
  trailingDebug := []
  trailingLabel := flushed.trailingLabel

namespace Buffer

open Code

/-- The buffer without the directives of its lines and those that wait for a line. -/
def plain (buffer : Buffer α) : Buffer α :=
  { buffer with
    lines := buffer.lines.map Line.plain
    pendingDebug := [] }

theorem plain_new : ({} : Buffer α).plain = {} := by
  rw [plain, Array.map_empty]

theorem plain_markLabel (buffer : Buffer α) (label : Label) :
    (buffer.markLabel label).plain = buffer.plain.markLabel label := by
  obtain ⟨lines, pending, debug, aliases⟩ := buffer
  cases pending with
  | none => rfl
  | some existing =>
    simp only [markLabel, plain]
    split <;> rfl

theorem plain_addLine (buffer : Buffer α) (body : LineBody α) :
    (buffer.addLine body).plain = buffer.plain.addLine body := by
  simp only [plain, addLine, Array.map_push]
  rfl

theorem plain_foldl_addLine (bodies : List (LineBody α)) (buffer : Buffer α) :
    (bodies.foldl addLine buffer).plain = bodies.foldl addLine buffer.plain := by
  induction bodies generalizing buffer with
  | nil => rfl
  | cons body bodies ih => rw [List.foldl_cons, List.foldl_cons, ih, plain_addLine]

theorem plain_markLabel? (buffer : Buffer α) (label : Option Label) :
    (buffer.markLabel? label).plain = buffer.plain.markLabel? label := by
  cases label with
  | none => rfl
  | some label => exact plain_markLabel buffer label

/-- No directive waits in a buffer without directives, and adding none adds nothing. -/
theorem plain_wait_nil {buffer other : Buffer α} (h : buffer.plain = other) :
    { other with pendingDebug := other.pendingDebug ++ [] } = other := by
  subst h
  rfl

theorem plain_replay (buffer : Buffer α) (line : Line α) :
    (buffer.replay line).plain = buffer.plain.replay line.plain := by
  have hmark := plain_markLabel? buffer line.label
  rw [replay, plain_addLine]
  calc (buffer.markLabel? line.label).plain.addLine line.toLineBody
      = (buffer.plain.markLabel? line.label).addLine line.toLineBody := by rw [hmark]
    _ = buffer.plain.replay line.plain :=
      congrArg (·.addLine line.toLineBody) (plain_wait_nil hmark).symm

theorem plain_foldl_replay (lines : List (Line α)) (buffer : Buffer α) :
    (lines.foldl replay buffer).plain = (lines.map Line.plain).foldl replay buffer.plain := by
  induction lines generalizing buffer with
  | nil => rfl
  | cons line lines ih => rw [List.map_cons, List.foldl_cons, List.foldl_cons, ih, plain_replay]

theorem plain_append (buffer other : Buffer α) : (buffer ++ other).plain = buffer.plain ++ other.plain := by
  have hlines : ∀ merged : Buffer α, (other.lines.foldl replay merged).plain =
      other.plain.lines.foldl replay merged.plain := by
    intro merged
    rw [← Array.foldl_toList, ← Array.foldl_toList, plain_foldl_replay]
    exact congrArg (List.foldl replay merged.plain) Array.toList_map.symm
  let merged := { buffer with aliases := other.aliases ++ buffer.aliases }
  have hmark : ((other.lines.foldl replay merged).markLabel? other.pendingLabel).plain =
      (other.plain.lines.foldl replay merged.plain).markLabel? other.pendingLabel := by
    rw [plain_markLabel?, hlines]
  exact hmark.trans (plain_wait_nil hmark).symm

theorem resolvedLines_plain (buffer : Buffer α) :
    buffer.plain.resolvedLines = buffer.resolvedLines.map Line.plain := by
  simp only [resolvedLines, plain, Array.toList_map, List.map_map]
  rfl

/-- **Directives change nothing about the lines of a flush.** -/
theorem flush_plain {combine : Combiner α} (hignores : combine.IgnoresDebug) (buffer : Buffer α) :
    buffer.plain.flush combine = (buffer.flush combine).plain := by
  simp only [flush, Flushed.plain, resolvedLines_plain, referenced_plain, fuseLines_plain hignores]
  rw [dropUnreachable_plain true [], dropJumps_plain []]
  rfl

theorem flushEvents_plain {combine : Combiner α} (hignores : combine.IgnoresDebug)
    (buffer : Buffer α) : buffer.plain.flushEvents combine = buffer.flushEvents combine := by
  simp only [flushEvents, resolvedLines_plain, referenced_plain, fuseLines_plain hignores,
    fuseEvents_plain hignores, List.length_map]
  rw [dropUnreachable_plain true [], dropJumps_plain [], List.length_map, List.length_map]

end Buffer

end StoryAsm
