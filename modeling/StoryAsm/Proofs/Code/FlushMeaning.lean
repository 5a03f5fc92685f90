import StoryAsm.Proofs.Code.Passes
import StoryAsm.Proofs.Code.Script

/-!
# A flush keeps the meaning of the code

The pieces of a script are a program: a jump goes to the line that was added after its label was
marked (`Piece.program`). What a flush leaves is a program again, where a jump goes to the line that
carries its label (`Flushed.program`). For a sound combiner the two have the same runs (`sameRuns_flush`).

Resolving the labels is the first step (`sameRuns_resolvedLines`); the passes over the lines are the
others.
-/

namespace StoryAsm

variable {α : Type}

/-- A combiner that keeps the meaning of any two lines. -/
abbrev Combiner.Sound (M : Machine α) (combine : Combiner α) : Prop :=
  combine.SoundOn M fun _ => True

def Piece.program (pieces : List (Piece α)) : Program α where
  start := lines pieces
  find label := (lineOf label pieces).map fun index => (lines pieces).drop index

def Flushed.program (flushed : Flushed α) : Program α :=
  Code.program flushed.lines flushed.trailingLabel

/-- Only places in the code are marked, and each of them once. -/
structure Script.WellMarked (script : Script α) : Prop where
  nodup : (Piece.marks script.pieces).Nodup
  point : ∀ label ∈ Piece.marks script.pieces, ∃ number, label = .point number

namespace Buffer

open Code

variable {pieces : List (Piece α)} {buffer : Buffer α} {label : Label}

/-! ## Labels of lines -/

theorem labelAt_of_lt {index : Nat} (hi : index < buffer.lines.toList.length) :
    buffer.labelAt index = buffer.lines.toList[index].label := by
  simp only [labelAt, List.getElem?_eq_getElem hi]

theorem labelAt_length (buffer : Buffer α) :
    buffer.labelAt buffer.lines.toList.length = buffer.pendingLabel := by
  simp only [labelAt, List.getElem?_length]

theorem labelAt_of_mem_carried (h : label ∈ carried buffer.lines.toList) :
    ∃ index < buffer.lines.toList.length, buffer.labelAt index = some label := by
  obtain ⟨line, hline, hl⟩ := List.mem_filterMap.mp h
  obtain ⟨index, hi, rfl⟩ := List.mem_iff_getElem.mp hline
  exact ⟨index, hi, by rwa [labelAt_of_lt hi]⟩

theorem Tracks.nodup_carried (h : Tracks pieces buffer) :
    (carried buffer.lines.toList).Nodup := by
  rw [carried, List.Nodup, List.pairwise_filterMap, List.pairwise_iff_getElem]
  intro i j hi hj hij label hli label' hlj he
  subst he
  have hci := h.carries (Nat.le_of_lt hi) (by rwa [labelAt_of_lt hi])
  have hcj := h.carries (Nat.le_of_lt hj) (by rwa [labelAt_of_lt hj])
  rw [hci, Option.some.injEq] at hcj
  omega

@[simp] theorem carried_resolvedLines (buffer : Buffer α) :
    carried buffer.resolvedLines = carried buffer.lines.toList := by
  simp [carried, resolvedLines, List.filterMap_map]

theorem bodies_resolvedLines (h : Tracks pieces buffer) :
    bodies buffer.resolvedLines = (Piece.lines pieces).map (·.retarget buffer.resolve) := by
  rw [← h.bodies]
  simp [bodies, resolvedLines, LineBody.retarget, Function.comp_def]

/-- The lines from a label that is carried are those from the line that it was marked for. -/
theorem linesFrom_resolvedLines (h : Tracks pieces buffer) {index : Nat}
    (hi : index < buffer.lines.toList.length) (hl : buffer.labelAt index = some label) :
    linesFrom label buffer.resolvedLines = some (buffer.resolvedLines.drop index) := by
  have hr : index < buffer.resolvedLines.length := by simpa [resolvedLines] using hi
  rw [List.drop_eq_getElem_cons hr]
  refine linesFrom_label (by simpa using h.nodup_carried) ?_ ?_
  · rw [← List.drop_eq_getElem_cons hr]
    exact List.drop_suffix ..
  · rw [labelAt_of_lt hi] at hl
    simpa [resolvedLines] using hl

theorem keepsReturns_resolve (h : Tracks pieces buffer)
    (hpoint : ∀ label ∈ Piece.marks pieces, ∃ number, label = .point number) :
    Machine.KeepsReturns buffer.resolve where
  returnTrue := h.resolve_of_notMem fun hm => by simpa using hpoint _ hm
  returnFalse := h.resolve_of_notMem fun hm => by simpa using hpoint _ hm
  point number := by
    by_cases hm : Label.point number ∈ Piece.marks pieces
    · obtain ⟨index, hline⟩ := Option.isSome_iff_exists.mp (Piece.lineOf_isSome_iff.mpr hm)
      have hle := h.length_eq ▸ Piece.lineOf_le hline
      exact hpoint _ (Tracks.mem_of_lineOf (h.carries hle (h.labelAt_resolve hline)))
    · exact ⟨number, h.resolve_of_notMem hm⟩

/-- A marked label and the label that it resolves to lead to the same lines. -/
theorem find_resolvedLines (h : Tracks pieces buffer) (label : Label) :
    (program buffer.resolvedLines buffer.pendingLabel).find (buffer.resolve label) =
      ((Piece.program pieces).find label).map (·.map (·.retarget buffer.resolve)) := by
  simp only [program, Piece.program]
  cases hline : Piece.lineOf label pieces with
  | none =>
    have hm := Piece.lineOf_eq_none_iff.mp hline
    rw [h.resolve_of_notMem hm, linesFrom_eq_none]
    · have hp : buffer.pendingLabel ≠ some label := fun hp =>
        hm (Tracks.mem_of_lineOf (h.pending_lineOf hp))
      simp [hp]
    · intro hc
      rw [carried_resolvedLines] at hc
      obtain ⟨index, hi, hl⟩ := labelAt_of_mem_carried hc
      exact hm (Tracks.mem_of_lineOf (h.carries (Nat.le_of_lt hi) hl))
  | some index =>
    have hat := h.labelAt_resolve hline
    have hle := h.length_eq ▸ Piece.lineOf_le hline
    rcases Nat.lt_or_eq_of_le hle with hi | rfl
    · rw [linesFrom_resolvedLines h hi hat]
      simp only [Option.map_some, Option.some.injEq]
      rw [List.map_drop, ← bodies_resolvedLines h]
      simp [bodies]
    · -- nothing follows the mark: no line carries the label, which still waits for one
      have hnone : linesFrom (buffer.resolve label) buffer.resolvedLines = none := by
        refine linesFrom_eq_none fun hc => ?_
        rw [carried_resolvedLines] at hc
        obtain ⟨index, hi, hl⟩ := labelAt_of_mem_carried hc
        have hfirst := h.carries (Nat.le_of_lt hi) hl
        rw [h.carries hle hat, Option.some.injEq] at hfirst
        omega
      rw [labelAt_length] at hat
      simp [hnone, hat, h.length_eq]

/-- The first pass keeps the runs: all labels of one line become the label that it carries. -/
theorem sameRuns_resolvedLines {M : Machine α} (h : Tracks pieces buffer)
    (hpoint : ∀ label ∈ Piece.marks pieces, ∃ number, label = .point number) :
    M.SameRuns (Piece.program pieces) (program buffer.resolvedLines buffer.pendingLabel) := by
  have hkeeps := keepsReturns_resolve h hpoint
  refine .of_lockstep (R := fun x y => y = x.map (·.retarget buffer.resolve))
    (bodies_resolvedLines h) ?_
  rintro x _ s rfl
  apply Machine.Matched.of_rel
  cases x with
  | nil => exact .complete
  | cons body rest =>
    simp only [List.map_cons, Machine.step, Machine.exec_retarget hkeeps]
    cases M.exec body s with
    | mk s' exit =>
      cases exit with
      | next => exact .running rfl
      | stop value => exact .complete
      | jump label =>
        simp only [Exit.rename, Machine.proceed, find_resolvedLines h]
        cases hfind : (Piece.program pieces).find label with
        | some lines => exact .running rfl
        | none =>
          have hm : label ∉ Piece.marks pieces := by
            rw [← Piece.lineOf_eq_none_iff]
            simpa [Piece.program] using hfind
          rw [h.resolve_of_notMem hm]
          exact .complete

theorem Tracks.point_of_mem_carried (h : Tracks pieces buffer)
    (hpoint : ∀ label ∈ Piece.marks pieces, ∃ number, label = .point number)
    (hm : label ∈ carried buffer.lines.toList) : ∃ number, label = .point number := by
  obtain ⟨index, hi, hl⟩ := labelAt_of_mem_carried hm
  exact hpoint label (Tracks.mem_of_lineOf (h.carries (Nat.le_of_lt hi) hl))

/-- All four passes keep the runs, if the combiner is sound for the lines that the code is made of. -/
theorem Tracks.sameRuns_flush_of_good {M : Machine α} {combine : Combiner α}
    {good : Line α → Prop} (h : Tracks pieces buffer)
    (hpoint : ∀ label ∈ Piece.marks pieces, ∃ number, label = .point number)
    (hsound : combine.SoundOn M good) (hgood : ∀ line ∈ buffer.resolvedLines, good line) :
    M.SameRuns (Piece.program pieces) (buffer.flush combine).program := by
  have hresolved := sameRuns_resolvedLines (M := M) h hpoint
  obtain ⟨hfusedTargets, hfused⟩ := sameRuns_fuseLines buffer.pendingLabel hsound hgood
    (targetsIn_referenced buffer.resolvedLines)
  have hreached := sameRuns_dropUnreachable (M := M) buffer.pendingLabel hfusedTargets
  -- no label comes to a line that did not carry it, and none is carried by two lines
  have hsub := ((carried_dropUnreachable_sublist (referenced buffer.resolvedLines) true [] _).trans
    (carried_fuseLines_sublist combine (referenced buffer.resolvedLines) buffer.resolvedLines))
  rw [carried_resolvedLines] at hsub
  have hjumps := sameRuns_dropJumps (M := M) buffer.pendingLabel
    (h.nodup_carried.sublist hsub) fun label hm => h.point_of_mem_carried hpoint (hsub.subset hm)
  exact hresolved.trans (hfused.trans (hreached.trans hjumps))

end Buffer

/-- A machine that adds up the codes of its lines. The condition of a branch holds as long as the sum
is below a hundred. -/
def Machine.adder : Machine Nat :=
  .ofEffect (1 : Nat) 0 fun code sum =>
    { state := sum + code, holds := sum + code < 100, value := sum }

/-- Two plain lines become one that adds both codes. -/
def Combiner.adding : Combiner Nat := fun a b =>
  if a.kind = .plain ∧ b.kind = .plain then some { code := a.code + b.code } else none

theorem Combiner.adding_sound : adding.Sound .adder where
  exec_fused := by
    intro a b f _ _ h sum
    obtain ⟨⟨ha, hb⟩, hf⟩ := Option.ite_none_right_eq_some.mp h
    cases hf
    simp [Machine.exec, Machine.execBoth, Machine.adder, Machine.ofEffect, LineBody.isJump,
      LineBody.exit, ha, hb, Exit.settle]
    exact (Nat.add_assoc sum a.code b.code).symm
  target_fused := by
    intro a b f _ _ h
    obtain ⟨-, hf⟩ := Option.ite_none_right_eq_some.mp h
    cases hf
    exact .inl rfl
  good_fused := fun _ _ _ => trivial

/-- Adds up to a hundred. The loop has two labels and the jump behind it only skips
a line that is never reached. -/
def Script.addingLoop : Script Nat :=
  let body : Script Nat := new |>.mark (.point 1) |>.debug ".LINE 2"
    |>.line { code := 1 } |>.line { code := 2 }
    |>.line { code := 4, target := some (.point 1), kind := .branchPositive }
  new |>.mark (.point 0) |>.append body
    |>.line { code := 0, target := some (.point 2), kind := .branchAlways } |>.line { code := 50 }
    |>.mark (.point 2) |>.line { code := 7, kind := .terminator }

/-- Flushing the buffer of any script keeps the runs of its code, on every machine and from every
state, for a combiner that is sound on this machine. -/
theorem Script.sameRuns_flush (M : Machine α) (combine : Combiner α) (hsound : combine.Sound M)
    (script : Script α) (h : script.WellMarked) :
    M.SameRuns (Piece.program script.pieces) (script.buffer.flush combine).program :=
  (script.tracks h.nodup).sameRuns_flush_of_good h.point hsound fun _ _ => trivial

/-- Of the six lines of the loop three are left. -/
theorem Script.sameRuns_flush_addingLoop :
    Combiner.adding.Sound .adder ∧ addingLoop.WellMarked ∧
      (addingLoop.buffer.flush Combiner.adding).lines.map (·.code) = [3, 4, 7] ∧
      Machine.adder.SameRuns (Piece.program addingLoop.pieces)
        (addingLoop.buffer.flush Combiner.adding).program := by
  have hmarked : addingLoop.WellMarked := ⟨by decide, by
    intro label hlabel
    rcases label with number | _ | _
    · exact ⟨number, rfl⟩
    all_goals exact absurd hlabel (by decide)⟩
  exact ⟨Combiner.adding_sound, hmarked, by decide,
    sameRuns_flush _ _ Combiner.adding_sound addingLoop hmarked⟩

end StoryAsm
