import StoryAsm.Proofs.Operation
import StoryAsm.Story.Finish

/-!
# Routines of a story

A routine that is open takes lines, and can be finished once.
-/

namespace StoryAsm

namespace Routine

variable {routine : Routine}

theorem decides_ensureOpen (h : routine.isFinished = false) :
    Decides ensureOpen routine True fun _ routine' => routine' = routine := by
  refine .get_bind ?_
  simp only [h, Bool.false_eq_true, ↓reduceIte]
  exact .pure rfl

theorem decides_setSpan (h : routine.isFinished = false) (span : Span) :
    Decides (setSpan span) routine True fun _ routine' => routine'.isFinished = false :=
  .modify h

theorem decides_addDebug (h : routine.isFinished = false) (record : String) :
    Decides (addDebug record) routine True fun _ routine' => routine'.isFinished = false := by
  refine (decides_ensureOpen h).andThen ?_
  rintro - _ rfl
  exact .modify h

theorem decides_addLine (h : routine.isFinished = false) (body : LineBody Instr) :
    Decides (addLine body) routine True fun _ routine' => routine'.isFinished = false := by
  refine (decides_ensureOpen h).andThen ?_
  rintro - _ rfl
  exact .modify h

theorem decides_addLines (h : routine.isFinished = false) (bodies : List (LineBody Instr)) :
    Decides (bodies.forM addLine) routine True fun _ routine' => routine'.isFinished = false := by
  induction bodies generalizing routine with
  | nil => exact .pure h
  | cons body bodies ih => exact (decides_addLine h body).andThen fun _ _ h' => ih h'

theorem decides_emit (h : routine.isFinished = false) {emission : Emission}
    {bodies : List (LineBody Instr)}
    (hlines : emission.lines routine.version routine.cleansStack = .ok bodies) :
    Decides (emit emission) routine True fun _ routine' => routine'.isFinished = false := by
  refine .get_bind ?_
  simp only [hlines]
  refine (decides_ensureOpen h).andThen ?_
  rintro - _ rfl
  exact decides_addLines h bodies

end Routine

namespace Story

/-- The routine exists and is not finished. -/
def IsOpen (index : Nat) (s : Story) : Prop :=
  ∃ routine, s.routines[index]? = some routine ∧ routine.isFinished = false

variable {s : Story} {index : Nat}

theorem decides_onRoutine {α : Type} {operation : RoutineM α} (h : s.IsOpen index)
    (hop : ∀ routine : Routine, routine.isFinished = false →
      Decides operation routine True fun _ routine' => routine'.isFinished = false) :
    Decides (onRoutine ⟨index⟩ operation) s True fun _ s' => s'.IsOpen index := by
  obtain ⟨routine, hget, hopen⟩ := h
  obtain ⟨a, routine', hy, hopen'⟩ := (hop routine hopen).1 trivial
  have hrun : (onRoutine ⟨index⟩ operation).run.run s =
      (.ok a, { s with routines := s.routines.modify index fun _ => routine' }) := by
    rw [onRoutine, run_run_get_bind]
    simp only [hget]
    rw [hy]
    rfl
  refine ⟨fun _ => ⟨a, _, hrun, routine', ?_, hopen'⟩, fun _ => trivial⟩
  rw [Array.getElem?_modify, if_pos rfl, hget]
  rfl

theorem decides_onRegistry {α : Type} {operation : Registry → α × Registry} (h : s.IsOpen index) :
    Decides (onRegistry operation) s True fun _ s' => s'.IsOpen index :=
  .modifyGet h

theorem decides_markSequencePoint (h : s.IsOpen index) (span : Span) :
    Decides (markSequencePoint ⟨index⟩ span) s True fun _ s' => s'.IsOpen index := by
  refine .get_bind ?_
  split
  · exact (decides_onRegistry h).andThen fun record _ h' =>
      decides_onRoutine h' fun _ hopen => Routine.decides_addDebug hopen record
  · exact .pure h

/-- Where a routine stands that is finished now, if that is to be told, and the registry that then knows
its file. -/
def placeOf (s : Story) (routine : Routine) : Option (Nat × Span) × Registry :=
  match routine.span, s.wantsDebug with
  | some span, true =>
    let (file, registry) := s.registry.fileId span.file
    (some (file, span), registry)
  | _, _ => (none, s.registry)

/-- What finishing a routine that is open does. -/
theorem run_finishRoutine {routine : Routine} (hget : s.routines[index]? = some routine)
    (hopen : routine.isFinished = false) :
    (finishRoutine ⟨index⟩).run.run s =
      (.ok (), { s with
        routines := s.routines.modify index (·.finish (s.placeOf routine).1)
        registry := (s.placeOf routine).2
        log := s.log ++ routine.finishEvents.toArray }) := by
  rw [finishRoutine, run_run_get_bind]
  simp only [hget, hopen, Bool.false_eq_true, ↓reduceIte]
  split
  · rename_i span hspan hdebug
    have hplace : s.placeOf routine =
        (some ((s.registry.fileId span.file).1, span), (s.registry.fileId span.file).2) := by
      simp only [placeOf, hspan, hdebug]
    rw [hplace]
    rfl
  · rename_i hnone
    have hplace : s.placeOf routine = (none, s.registry) := by
      unfold placeOf
      split
      · exact absurd ‹_› (hnone _ ‹_›)
      · rfl
    rw [hplace]
    rfl

theorem decides_finishRoutine (h : s.IsOpen index) :
    Decides (finishRoutine ⟨index⟩) s True fun _ _ => True := by
  obtain ⟨routine, hget, hopen⟩ := h
  exact ⟨fun _ => ⟨_, _, run_finishRoutine hget hopen, trivial⟩, fun _ => trivial⟩

end Story

end StoryAsm
