import StoryAsm.Proofs.Code.Labels

/-!
# Lines that the passes of a flush leave alone

A line is steady for a combiner if it is never the first of two lines that are fused, and control may go
on behind it. Steady lines in front of other code stay as they are, and the passes do with the rest what
they do without them (`Code.clean_append`). A label on the first line of the rest stays there
(`Code.label_clean`).
-/

namespace StoryAsm

variable {α : Type}

/-- The line is never the first of two that are fused, and does not end the code before it. -/
structure Combiner.Steady (combine : Combiner α) (line : Line α) : Prop where
  unfused : ∀ next, combine line next = none
  goesOn : line.kind.isUnconditional = false

namespace Code

variable {combine : Combiner α} {labels : List Label} {label : Label}
variable {front rest lines : List (Line α)}

/-- The passes of a flush over lines with resolved targets. -/
def clean (combine : Combiner α) (labels : List Label) (lines : List (Line α)) : List (Line α) :=
  dropJumps [] (dropUnreachable labels true [] (fuseLines combine labels lines)).1

theorem lines_flush (combine : Combiner α) (buffer : Buffer α) :
    (buffer.flush combine).lines =
      clean combine (referenced buffer.resolvedLines) buffer.resolvedLines := rfl

/-! ## Fusion -/

/-- Lines below a line that is not fused with any next one are not touched. -/
theorem pushFused_append {below : List (Line α)}
    (hbelow : ∀ last ∈ below.head?, ∀ next, combine last next = none) (stack : List (Line α))
    (line : Line α) :
    pushFused combine labels (stack ++ below) line = pushFused combine labels stack line ++ below := by
  induction stack generalizing line with
  | nil =>
    cases below with
    | nil => rfl
    | cons last below =>
      have hnone := hbelow last (by simp) line
      simp [pushFused, hnone]
  | cons last stack ih =>
    simp only [List.cons_append, pushFused]
    split
    · exact ih _
    · rfl

theorem foldl_pushFused_append {below : List (Line α)}
    (hbelow : ∀ last ∈ below.head?, ∀ next, combine last next = none) (lines stack : List (Line α)) :
    lines.foldl (pushFused combine labels) (stack ++ below) =
      lines.foldl (pushFused combine labels) stack ++ below := by
  induction lines generalizing stack with
  | nil => rfl
  | cons line lines ih => rw [List.foldl_cons, pushFused_append hbelow, ih, List.foldl_cons]

theorem fuseLines_append (hfront : ∀ line ∈ front, combine.Steady line) (rest : List (Line α)) :
    fuseLines combine labels (front ++ rest) = front ++ fuseLines combine labels rest := by
  induction front with
  | nil => rfl
  | cons line front ih =>
    -- all lines after the first are put on a stack with this line at the bottom
    have hfold : (line :: (front ++ rest)).foldl (pushFused combine labels) [] =
        (front ++ rest).foldl (pushFused combine labels) [] ++ [line] := by
      have hbelow : ∀ last ∈ [line].head?, ∀ next, combine last next = none := by
        intro last hlast
        cases Option.mem_some.mp hlast
        exact (hfront line List.mem_cons_self).unfused
      exact foldl_pushFused_append hbelow (front ++ rest) []
    rw [List.cons_append, fuseLines, hfold, List.reverse_append, ← fuseLines,
      ih fun line hm => hfront line (.tail _ hm)]
    rfl

/-! ## Lines that are dropped -/

theorem dropUnreachable_append (hfront : ∀ line ∈ front, line.kind.isUnconditional = false)
    (rest : List (Line α)) :
    (dropUnreachable labels true [] (front ++ rest)).1 =
      front ++ (dropUnreachable labels true [] rest).1 := by
  induction front with
  | nil => rfl
  | cons line front ih =>
    have hline := hfront line List.mem_cons_self
    simp only [List.cons_append, dropUnreachable, Bool.true_or, if_true, hline, Bool.not_false]
    rw [ih fun line hm => hfront line (.tail _ hm)]
    rfl

theorem dropJumps_append (hfront : ∀ line ∈ front, line.kind.isUnconditional = false)
    (rest : List (Line α)) : dropJumps [] (front ++ rest) = front ++ dropJumps [] rest := by
  induction front with
  | nil => rfl
  | cons line front ih =>
    have hkeep : ¬(front ++ rest).head?.any line.jumpsTo = true := by
      intro h
      obtain ⟨_, _, _, _, hkind, _⟩ := jumpsTo_head h
      have hline := hfront line List.mem_cons_self
      simp [hkind, LineKind.isUnconditional] at hline
    rw [List.cons_append, dropJumps_cons, if_neg hkeep, ih fun line hm => hfront line (.tail _ hm)]
    rfl

/-- Steady lines stay, and the rest becomes what it becomes without them. -/
theorem clean_append (hfront : ∀ line ∈ front, combine.Steady line) (rest : List (Line α)) :
    clean combine labels (front ++ rest) = front ++ clean combine labels rest := by
  have hgoesOn : ∀ line ∈ front, line.kind.isUnconditional = false := fun line hm =>
    (hfront line hm).goesOn
  rw [clean, fuseLines_append hfront, dropUnreachable_append hgoesOn, dropJumps_append hgoesOn, clean]

/-! ## The first label -/

/-- The label in front of the lines: that of the first line, or the one behind the code if there is no
line. -/
def entry (lines : List (Line α)) (trailing : Option Label) : Option Label :=
  match lines with
  | [] => trailing
  | line :: _ => line.label

/-- The first line may be fused with the next, but is not dropped where it carries a label. -/
theorem label_clean {line : Line α} (h : line.label = some label) (rest : List (Line α)) :
    ∃ first others, clean combine labels (line :: rest) = first :: others ∧ first.label = some label := by
  have hfused : ∃ first others, fuseLines combine labels (line :: rest) = first :: others ∧
      first.label = some label := by
    refine fuseLines_induction (P := fun current => ∃ first others, current = first :: others ∧
      first.label = some label) ?_ ⟨line, rest, rfl, h⟩
    rintro before a b f after - - ⟨first, others, he, hlabel⟩
    cases before with
    | nil =>
      obtain ⟨rfl, -⟩ := List.cons.inj he
      exact ⟨_, _, rfl, by simp [Line.fuse, hlabel]⟩
    | cons head before =>
      obtain ⟨rfl, -⟩ := List.cons.inj he
      exact ⟨_, _, rfl, hlabel⟩
  obtain ⟨first, others, hfuse, hlabel⟩ := hfused
  have hkeep : ∀ next : List (Line α), ¬next.head?.any (first.addDebugBefore []).jumpsTo = true := by
    intro next hjump
    obtain ⟨_, _, _, _, _, hnone, _⟩ := jumpsTo_head hjump
    cases hlabel.symm.trans hnone
  rw [clean, hfuse]
  simp only [dropUnreachable, Bool.true_or, if_true]
  rw [dropJumps_cons, if_neg (hkeep _)]
  exact ⟨_, _, rfl, hlabel⟩

theorem entry_clean {trailing : Option Label} (h : entry lines trailing = some label) :
    entry (clean combine labels lines) trailing = some label := by
  cases lines with
  | nil => exact h
  | cons line rest =>
    obtain ⟨first, others, hclean, hlabel⟩ := label_clean h rest
    rw [hclean]
    exact hlabel

/-! ## Places -/

/-- A label that no line of the front carries is found in the rest. -/
theorem find_append_suffix {trailing : Option Label} (h : label ∉ carried front)
    {place : List (LineBody α)} (hfind : (program (front ++ rest) trailing).find label = some place) :
    place <:+ bodies rest := by
  have hlines : linesFrom label (front ++ rest) = linesFrom label rest := by
    clear hfind
    induction front with
    | nil => rfl
    | cons line front ih =>
      have hline : line.label ≠ some label := fun he => h (List.mem_filterMap.mpr ⟨line, by simp, he⟩)
      rw [List.cons_append, linesFrom_cons_ne hline]
      refine ih fun hm => h ?_
      obtain ⟨line', hline', hlabel⟩ := List.mem_filterMap.mp hm
      exact List.mem_filterMap.mpr ⟨line', .tail _ hline', hlabel⟩
  simp only [program, hlines] at hfind
  cases hrest : linesFrom label rest with
  | none =>
    rw [hrest] at hfind
    obtain ⟨-, hnil⟩ := Option.ite_none_right_eq_some.mp hfind
    cases hnil
    exact List.nil_suffix
  | some found =>
    rw [hrest] at hfind
    cases hfind
    exact (linesFrom_suffix hrest).map _

/-- The label in front of the rest leads to the rest, if no label stands at two places. -/
theorem find_entry {trailing : Option Label}
    (hnodup : (carried (front ++ rest) ++ trailing.toList).Nodup)
    (h : entry rest trailing = some label) :
    (program (front ++ rest) trailing).find label = some (bodies rest) := by
  cases rest with
  | nil =>
    have hnone : linesFrom label (front ++ []) = none := by
      refine linesFrom_eq_none fun hm => ?_
      exact (List.disjoint_of_nodup_append hnodup) hm (Option.mem_toList.mpr h)
    have htrailing : trailing = some label := h
    simp only [program, hnone, htrailing, if_true]
    rfl
  | cons line rest =>
    have hfrom := linesFrom_label hnodup.of_append_left (List.suffix_append front (line :: rest)) h
    simp only [program, hfrom]

end Code

/-- The lines of an appended buffer come after those of the first. A label that waits in the first buffer
stands in front of them. -/
theorem Buffer.exists_append_lines (buffer other : Buffer α) :
    ∃ lines, (buffer ++ other).lines.toList = buffer.lines.toList ++ lines ∧
      ∀ label, buffer.pendingLabel = some label →
        Code.entry lines (buffer ++ other).pendingLabel = some label := by
  cases h : other.lines.toList with
  | nil =>
    rw [append_of_nil h]
    exact ⟨[], by simp, fun label hpending => by simp [Code.entry, hpending]⟩
  | cons first rest =>
    rw [append_of_cons h]
    exact ⟨_, Array.toList_append, fun label hpending => by simp [Code.entry, hpending]⟩

end StoryAsm
