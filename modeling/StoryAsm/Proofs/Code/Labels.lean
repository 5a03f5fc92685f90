import StoryAsm.Proofs.Code.FlushMeaning

/-!
# A flush keeps the labels

A flush renames targets, moves labels from line to line and drops lines. Still no label stands at two
places afterwards, and a place that is jumped to keeps its label (`Script.labelsKept_flush`).

The passes know one list of labels, those that are referenced before the first line is touched. Each pass
leaves the labels of this list on some line and makes no target that is not in it.
-/

namespace StoryAsm

variable {α : Type}

/-- A fused line has no target, or that of one of the two lines. -/
def Combiner.KeepsTargets (combine : Combiner α) : Prop :=
  ∀ {a b f}, combine a b = some f → f.target = none ∨ f.target = a.target ∨ f.target = b.target

namespace Code

variable {combine : Combiner α} {labels : List Label} {label : Label}
variable {a b : Line α} {before after lines : List (Line α)}

/-! ## Labels on lines -/

/-- The second of two lines that are fused carries no referenced label. -/
theorem mem_carried_fuse (f : LineBody α) (hl : b.isLabelledIn labels = false) (hm : label ∈ labels)
    (h : label ∈ carried (before ++ a :: b :: after)) :
    label ∈ carried (before ++ a.fuse b f :: after) := by
  have hb : b.label ≠ some label := fun hb => by simp [isLabelledIn_of_mem hb hm] at hl
  simp only [carried, List.filterMap_append, List.mem_append] at h ⊢
  refine h.imp_right fun h => ?_
  obtain ⟨line, hline, hlabel⟩ := List.mem_filterMap.mp h
  rcases List.mem_cons.mp hline with rfl | hline
  · exact List.mem_filterMap.mpr ⟨_, List.mem_cons_self, by simp [Line.fuse, hlabel]⟩
  rcases List.mem_cons.mp hline with rfl | hline
  · exact absurd hlabel hb
  · exact List.mem_filterMap.mpr ⟨line, .tail _ hline, hlabel⟩

theorem mem_carried_fuseLines (hm : label ∈ labels) (h : label ∈ carried lines) :
    label ∈ carried (fuseLines combine labels lines) :=
  fuseLines_induction (P := fun lines => label ∈ carried lines)
    (fun _ _ _ f _ _ hl h => mem_carried_fuse f hl hm h) h

theorem mem_carried_dropUnreachable (hm : label ∈ labels) (h : label ∈ carried lines)
    (reachable : Bool) (debug : List String) :
    label ∈ carried (dropUnreachable labels reachable debug lines).1 := by
  induction lines generalizing reachable debug with
  | nil => exact h
  | cons line rest ih =>
    obtain ⟨line', hline', hlabel⟩ := List.mem_filterMap.mp h
    simp only [dropUnreachable]
    split
    · rcases List.mem_cons.mp hline' with rfl | hrest
      · exact List.mem_filterMap.mpr ⟨_, List.mem_cons_self, hlabel⟩
      · have hkept := ih (List.mem_filterMap.mpr ⟨line', hrest, hlabel⟩) (!line.kind.isUnconditional) []
        obtain ⟨line'', hline'', hlabel''⟩ := List.mem_filterMap.mp hkept
        exact List.mem_filterMap.mpr ⟨line'', .tail _ hline'', hlabel''⟩
    · rename_i hdropped
      rcases List.mem_cons.mp hline' with rfl | hrest
      · -- a line with a referenced label is reachable
        simp [isLabelledIn_of_mem hlabel hm] at hdropped
      · exact ih (List.mem_filterMap.mpr ⟨line', hrest, hlabel⟩) _ _

/-- A jump that is dropped carries no label. -/
theorem carried_dropJumps (debug : List String) (lines : List (Line α)) :
    carried (dropJumps debug lines) = carried lines := by
  induction lines generalizing debug with
  | nil => rfl
  | cons line rest ih =>
    rw [dropJumps_cons]
    split
    · rename_i hjump
      obtain ⟨_, _, _, _, _, hnone, _⟩ := jumpsTo_head hjump
      rw [ih, carried, carried, List.filterMap_cons_none hnone]
    · simp only [carried, List.filterMap_cons, addDebugBefore_label] at ih ⊢
      rw [ih]

/-! ## Targets -/

theorem referenced_fuseLines_subset (hkeeps : combine.KeepsTargets) (labels : List Label)
    (lines : List (Line α)) : referenced (fuseLines combine labels lines) ⊆ referenced lines := by
  have htargets : TargetsIn (referenced lines) (fuseLines combine labels lines) :=
    fuseLines_induction (P := TargetsIn (referenced lines))
      (fun _ _ _ _ _ hf _ h => targetsIn_fuse (hkeeps hf) h) (targetsIn_referenced lines)
  intro label hm
  obtain ⟨line, hline, hlabel⟩ := List.mem_filterMap.mp hm
  exact htargets line hline label hlabel

theorem referenced_dropUnreachable_subset (labels : List Label) (reachable : Bool) (debug : List String)
    (lines : List (Line α)) :
    referenced (dropUnreachable labels reachable debug lines).1 ⊆ referenced lines := by
  induction lines generalizing reachable debug with
  | nil => exact List.Subset.refl _
  | cons line rest ih =>
    have hrest : referenced rest ⊆ referenced (line :: rest) :=
      List.filterMap_subset _ (List.subset_cons_self line rest)
    simp only [dropUnreachable]
    split
    · intro label hm
      obtain ⟨line', hline', hlabel⟩ := List.mem_filterMap.mp hm
      rcases List.mem_cons.mp hline' with rfl | hline'
      · exact List.mem_filterMap.mpr ⟨line, List.mem_cons_self, hlabel⟩
      · exact hrest (ih _ _ (List.mem_filterMap.mpr ⟨line', hline', hlabel⟩))
    · exact List.Subset.trans (ih _ _) hrest

theorem referenced_dropJumps_subset (debug : List String) (lines : List (Line α)) :
    referenced (dropJumps debug lines) ⊆ referenced lines := by
  induction lines generalizing debug with
  | nil => exact List.Subset.refl _
  | cons line rest ih =>
    have hrest : referenced rest ⊆ referenced (line :: rest) :=
      List.filterMap_subset _ (List.subset_cons_self line rest)
    rw [dropJumps_cons]
    split
    · exact List.Subset.trans (ih _) hrest
    · intro label hm
      obtain ⟨line', hline', hlabel⟩ := List.mem_filterMap.mp hm
      rcases List.mem_cons.mp hline' with rfl | hline'
      · exact List.mem_filterMap.mpr ⟨line, List.mem_cons_self, hlabel⟩
      · exact hrest (ih _ (List.mem_filterMap.mpr ⟨line', hline', hlabel⟩))

end Code

open Code

/-- The labels of what is left after a flush, in the order in which they stand. -/
def Flushed.labels (flushed : Flushed α) : List Label :=
  carried flushed.lines ++ flushed.trailingLabel.toList

namespace Buffer

variable {pieces : List (Piece α)} {buffer : Buffer α} {combine : Combiner α} {label : Label}

theorem Tracks.nodup_labels (h : Tracks pieces buffer) :
    (carried buffer.lines.toList ++ buffer.pendingLabel.toList).Nodup := by
  refine List.nodup_append.mpr ⟨h.nodup_carried, by cases buffer.pendingLabel <;> simp, ?_⟩
  intro label hcarried label' hpending he
  subst he
  obtain ⟨index, hi, hat⟩ := labelAt_of_mem_carried hcarried
  have hline := h.carries (Nat.le_of_lt hi) hat
  rw [h.pending_lineOf (Option.mem_toList.mp hpending), Option.some.injEq, ← h.length_eq] at hline
  omega

/-- No pass puts a label on a line that others have. -/
theorem labels_flush_sublist (combine : Combiner α) (buffer : Buffer α) :
    (buffer.flush combine).labels.Sublist
      (carried buffer.lines.toList ++ buffer.pendingLabel.toList) := by
  refine List.Sublist.append ?_ (List.Sublist.refl _)
  show (carried (dropJumps [] _)).Sublist _
  rw [carried_dropJumps, ← carried_resolvedLines]
  exact (carried_dropUnreachable_sublist ..).trans (carried_fuseLines_sublist ..)

theorem referenced_flush_subset (hkeeps : combine.KeepsTargets) (buffer : Buffer α) :
    referenced (buffer.flush combine).lines ⊆ referenced buffer.resolvedLines :=
  List.Subset.trans (referenced_dropJumps_subset [] _)
    (List.Subset.trans (referenced_dropUnreachable_subset ..) (referenced_fuseLines_subset hkeeps ..))

/-- A referenced label that stands somewhere stands somewhere after the flush. -/
theorem mem_labels_flush (hm : label ∈ referenced buffer.resolvedLines)
    (h : label ∈ carried buffer.lines.toList ++ buffer.pendingLabel.toList) :
    label ∈ (buffer.flush combine).labels := by
  rcases List.mem_append.mp h with h | h
  · apply List.mem_append_left
    show label ∈ carried (dropJumps [] _)
    rw [carried_dropJumps]
    rw [← carried_resolvedLines] at h
    exact mem_carried_dropUnreachable hm (mem_carried_fuseLines hm h) _ _
  · exact List.mem_append_right _ h

/-- The label that a marked label stands for is carried by a line, or waits behind the last one. -/
theorem Tracks.resolve_mem (h : Tracks pieces buffer) (hm : label ∈ Piece.marks pieces) :
    buffer.resolve label ∈ carried buffer.lines.toList ++ buffer.pendingLabel.toList := by
  obtain ⟨index, hline⟩ := Option.isSome_iff_exists.mp (Piece.lineOf_isSome_iff.mpr hm)
  have hat := h.labelAt_resolve hline
  have hle := h.length_eq ▸ Piece.lineOf_le hline
  rcases Nat.lt_or_eq_of_le hle with hi | rfl
  · rw [labelAt_of_lt hi] at hat
    exact List.mem_append_left _ (List.mem_filterMap.mpr ⟨_, List.getElem_mem hi, hat⟩)
  · rw [labelAt_length] at hat
    exact List.mem_append_right _ (Option.mem_toList.mpr hat)

end Buffer

/-- What a flush owes to the labels of a script. -/
structure Script.LabelsKept (script : Script α) (flushed : Flushed α) : Prop where
  /-- No label is carried by two lines, or by a line and behind the last one. -/
  nodup : flushed.labels.Nodup
  /-- Every target is what a target of the script stands for. -/
  origin : ∀ target ∈ referenced flushed.lines, ∃ body ∈ Piece.lines script.pieces,
    body.target.map script.buffer.resolve = some target
  /-- If a marked label is jumped to, the label that it stands for is found at one place. -/
  found : ∀ label ∈ Piece.marks script.pieces,
    script.buffer.resolve label ∈ referenced flushed.lines →
      flushed.labels.count (script.buffer.resolve label) = 1

/-- A loop that starts with two labels, and a jump behind the last line. Of the two lines that become
one the second carries a label, and the last line is never reached. -/
def Script.loopToEnd : Script Nat :=
  new |>.mark (.point 0) |>.mark (.point 1) |>.line { code := 1 }
    |>.mark (.point 3) |>.line { code := 2 }
    |>.line { code := 4, target := some (.point 1), kind := .branchPositive }
    |>.line { code := 0, target := some (.point 2), kind := .branchAlways }
    |>.line { code := 50 } |>.mark (.point 2)

/-- Flushing the buffer of any script loses no label that is jumped to and duplicates none. -/
theorem Script.labelsKept_flush (combine : Combiner α) (hkeeps : combine.KeepsTargets)
    (script : Script α) (h : script.WellMarked) :
    script.LabelsKept (script.buffer.flush combine) := by
  have htracks := script.tracks h.nodup
  have hnodup := htracks.nodup_labels.sublist (Buffer.labels_flush_sublist combine _)
  refine ⟨hnodup, fun target htarget => ?_, fun label hmark htarget => ?_⟩
  · have hreferenced := Buffer.referenced_flush_subset hkeeps _ htarget
    obtain ⟨line, hline, hlabel⟩ := List.mem_filterMap.mp hreferenced
    obtain ⟨line', hline', rfl⟩ := List.mem_map.mp hline
    refine ⟨line'.toLineBody, ?_, hlabel⟩
    rw [← htracks.bodies]
    exact List.mem_map_of_mem hline'
  · have hreferenced := Buffer.referenced_flush_subset hkeeps _ htarget
    exact List.count_eq_one_of_mem hnodup
      (Buffer.mem_labels_flush hreferenced (htracks.resolve_mem hmark))

/-- Two of the four labels are left, one on a line and one behind the last line. -/
theorem Script.labelsKept_flush_loopToEnd :
    Combiner.adding.KeepsTargets ∧ loopToEnd.WellMarked ∧
      (loopToEnd.buffer.flush Combiner.adding).labels = [.point 0, .point 2] ∧
      referenced (loopToEnd.buffer.flush Combiner.adding).lines = [.point 0, .point 2] ∧
      loopToEnd.LabelsKept (loopToEnd.buffer.flush Combiner.adding) := by
  have hkeeps : Combiner.adding.KeepsTargets := Combiner.adding_sound.target_fused trivial trivial
  have hmarked : loopToEnd.WellMarked := by
    refine ⟨by decide, fun label hlabel => ?_⟩
    cases label with
    | point number => exact ⟨number, rfl⟩
    | returnTrue | returnFalse => exact absurd hlabel (by decide)
  exact ⟨hkeeps, hmarked, by decide, by decide, labelsKept_flush _ hkeeps loopToEnd hmarked⟩

end StoryAsm
